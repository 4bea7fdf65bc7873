import Mathlib

/-!
# Draining the output ring

`readNextOutputPacket` of `platform/windows/hidmaestro_wire.cpp`, called until it returns
false as `outputLoop` does, while no packet is published. The lap test compares 32-bit
numbers as they stand: where `lastSeq + 64` wraps and the head does not, a reader that is
close behind is taken for one that was lapped and is sent back.
-/

namespace Satellite.Hid

def outputSlotDataCapacity : Nat := 256

structure OutputSlot where
  seqNo : UInt32
  source : UInt8 := 0
  reportId : UInt8 := 0
  size : Nat := 0
  data : List UInt8 := []

/-- The data are the first `size` bytes of the source's array. -/
structure OutputPacket where
  source : UInt8
  reportId : UInt8
  data : List UInt8

def OutputSlot.packet (s : OutputSlot) : OutputPacket where
  source := s.source
  reportId := s.reportId
  data := s.data.take (min s.size outputSlotDataCapacity)

/-- The section at rest: every slot holds the last packet that was published to it, so the
numbers of the last packets, 64 of them once the ring is full, stand where the reader looks
for them. -/
structure OutputRing where
  head : UInt32
  slots : Nat → OutputSlot
  held : Fin 65 := 64
  published : ∀ d < held.val,
    (slots ((head - .ofNat d - 1) % 64).toNat).seqNo = head - .ofNat d

namespace OutputRing

variable (r : OutputRing)

/-- The slot of a packet number. -/
def slotOf (seq : UInt32) : OutputSlot := r.slots ((seq - 1) % 64).toNat

/-- One call: the packet and the new `lastSeq`, or nothing. The number of the slot stays as
it is during the call, so the first of the four attempts decides. -/
def readNextOutputPacket (lastSeq : UInt32) : Option (OutputPacket × UInt32) :=
  if r.head = lastSeq then none
  else
    let nextSeq := lastSeq + 1
    let nextSeq := if r.head > nextSeq + 64 - 1 then r.head - 64 + 1 else nextSeq
    if (r.slotOf nextSeq).seqNo ≠ nextSeq then none
    else some ((r.slotOf nextSeq).packet, nextSeq)

/-- At most `n` calls: the packets delivered and `lastSeq` after them. -/
def drain : Nat → UInt32 → List OutputPacket × UInt32
  | 0, lastSeq => ([], lastSeq)
  | n + 1, lastSeq =>
    match r.readNextOutputPacket lastSeq with
    | none => ([], lastSeq)
    | some (packet, seq) => (packet :: (drain n seq).1, (drain n seq).2)

/-- The last `d` packets, oldest first. -/
def unread : Nat → List OutputPacket
  | 0 => []
  | d + 1 => (r.slotOf (r.head - .ofNat d)).packet :: unread d

/-- Some number of calls delivers the last `d` packets and brings the reader to the head,
where the next call returns false. -/
def Drained (d : Nat) : Prop := ∃ n, r.drain n (r.head - .ofNat d) = (r.unread d, r.head)

/-- The lap test for a reader that is 1 to 64 packets behind. -/
theorem lap_iff (head : UInt32) {d : Nat} (hd : d < 64) :
    head > head - .ofNat (d + 1) + 1 + 64 - 1 ↔ 2 ^ 32 + d ≤ head.toNat + 63 := by
  have := head.toNat_lt
  simp only [gt_iff_lt, UInt32.lt_iff_toNat_lt, UInt32.toNat_add, UInt32.toNat_sub,
    UInt32.toNat_ofNat', UInt32.reduceToNat]
  omega

theorem sub_succ (head : UInt32) (d : Nat) : head - .ofNat (d + 1) + 1 = head - .ofNat d := by
  rw [← UInt32.toNat_inj]
  simp only [UInt32.toNat_add, UInt32.toNat_sub, UInt32.toNat_ofNat', UInt32.reduceToNat]
  omega

theorem head_ne_sub (head : UInt32) {d : Nat} (hd : d < 64) : head ≠ head - .ofNat (d + 1) := by
  have := head.toNat_lt
  rw [ne_eq, ← UInt32.toNat_inj, UInt32.toNat_sub, UInt32.toNat_ofNat']
  omega

/-- How far behind a reader is after a call that found it `d + 1` packets behind. -/
def behindAfter (d : Nat) : Nat := if 2 ^ 32 + d ≤ r.head.toNat + 63 then 63 else d

/-- One call of a reader that is behind: on to the next packet, or back to the oldest. -/
theorem readNextOutputPacket_behind {d : Nat} (hd : d < 64) :
    r.readNextOutputPacket (r.head - .ofNat (d + 1)) =
      let seq := r.head - .ofNat (r.behindAfter d)
      if (r.slotOf seq).seqNo ≠ seq then none else some ((r.slotOf seq).packet, seq) := by
  have hnext : (if r.head > r.head - .ofNat (d + 1) + 1 + 64 - 1 then r.head - 64 + 1
      else r.head - .ofNat (d + 1) + 1) = r.head - .ofNat (r.behindAfter d) := by
    simp only [lap_iff r.head hd, behindAfter]
    split
    · exact sub_succ r.head 63
    · exact sub_succ r.head d
  rw [readNextOutputPacket, if_neg (head_ne_sub r.head hd)]
  dsimp only
  rw [hnext]

theorem drain_behind (hhead : r.head.toNat + 63 < 2 ^ 32) {d : Nat} (hd : d ≤ r.held) :
    r.drain d (r.head - .ofNat d) = (r.unread d, r.head) := by
  induction d with
  | zero => simp [drain, unread]
  | succ d ih =>
    have hnext : r.behindAfter d = d := if_neg (by omega)
    have hslot : (r.slotOf (r.head - .ofNat d)).seqNo = r.head - .ofNat d := r.published d hd
    have hcall := r.readNextOutputPacket_behind (d := d) (by omega)
    simp only [hnext, hslot, ne_eq, not_true_eq_false, if_false] at hcall
    simp only [drain, hcall, ih (by omega), unread]

/-- Near the end of the numbers the reader is sent back before it reaches the head. -/
theorem drain_ne_head (hhead : 2 ^ 32 ≤ r.head.toNat + 63) (n : Nat) {d : Nat} (hd : d < 64) :
    (r.drain n (r.head - .ofNat (d + 1))).2 ≠ r.head := by
  induction n generalizing d with
  | zero => exact (head_ne_sub r.head hd).symm
  | succ n ih =>
    obtain ⟨e, hlt, he⟩ : ∃ e < 64, r.behindAfter d = e + 1 :=
      ⟨r.behindAfter d - 1, by unfold behindAfter; split <;> omega,
        by unfold behindAfter; split <;> omega⟩
    simp only [drain, r.readNextOutputPacket_behind hd, he]
    split
    case h_1 => exact (head_ne_sub r.head hd).symm
    case h_2 hcall =>
      obtain ⟨-, rfl⟩ := Prod.mk.inj (Option.some.inj (Option.ite_none_left_eq_some.1 hcall).2)
      exact ih hlt

/-- A reader whose unread packets are all in the ring drains it exactly when it is at the
head already or the number 63 after the head does not wrap. -/
theorem output_ring_drained (d : Fin (r.held + 1)) :
    r.Drained d ↔ d = 0 ∨ r.head.toNat + 63 < 2 ^ 32 := by
  constructor
  · rintro ⟨n, hdrain⟩
    by_contra hnot
    obtain ⟨hd, hhead⟩ := not_or.1 hnot
    obtain ⟨e, he⟩ : ∃ e, d.val = e + 1 :=
      Nat.exists_eq_succ_of_ne_zero fun h => hd (Fin.ext h)
    rw [he] at hdrain
    exact r.drain_ne_head (by omega) n (by omega) (congrArg Prod.snd hdrain)
  · rintro (rfl | hhead)
    · exact ⟨0, by simp [drain, unread]⟩
    · exact ⟨d, r.drain_behind hhead (by omega)⟩

end OutputRing

/-- The 64 packets up to the last number before the wrap. -/
def lastNumbers : OutputRing where
  head := 0xFFFFFFFF
  slots i := { seqNo := 0xFFFFFFC0 + .ofNat ((i + 1) % 64) }
  published := by decide

/-- The reader that has one packet left is sent back 63 packets, again and again. -/
theorem endless_replay :
    ¬ ∃ n, (lastNumbers.drain n (lastNumbers.head - 1)).2 = lastNumbers.head :=
  fun ⟨n, h⟩ => lastNumbers.drain_ne_head (by decide) n (d := 0) (by decide) h

end Satellite.Hid
