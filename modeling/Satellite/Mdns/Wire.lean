import Satellite.Lib.Buffers

/-!
# Integers and names on the wire

The big-endian integers of `byte_order.h` and the DNS names of `mdns_protocol.cpp`. A name is
a dotted byte string in the program and a run of length-prefixed labels with a zero byte at
its end in a packet; writing one needs room in the buffer, reading one may follow
compression pointers and gives up after 64 steps.
-/

namespace Satellite.Mdns

open List

abbrev Bytes := List UInt8

def ascii (s : String) : Bytes := s.toList.map fun c => UInt8.ofNat c.toNat

/-! ## Integers -/

/-- The bytes `writeBE16` stores. -/
def writeBE16 (v : UInt16) : Bytes := [(v >>> 8).toUInt8, v.toUInt8]

/-- The bytes `writeBE32` stores. -/
def writeBE32 (v : UInt32) : Bytes :=
  [(v >>> 24).toUInt8, (v >>> 16).toUInt8, (v >>> 8).toUInt8, v.toUInt8]

/-- The byte at a position that has been checked against the length. -/
def byteAt (packet : Bytes) (i : Nat) : UInt8 := packet[i]?.getD 0

def readBE16 (packet : Bytes) (pos : Nat) : UInt16 :=
  (byteAt packet pos).toUInt16 <<< 8 ||| (byteAt packet (pos + 1)).toUInt16

def readBE32 (packet : Bytes) (pos : Nat) : UInt32 :=
  (byteAt packet pos).toUInt32 <<< 24 ||| (byteAt packet (pos + 1)).toUInt32 <<< 16 |||
    (byteAt packet (pos + 2)).toUInt32 <<< 8 ||| (byteAt packet (pos + 3)).toUInt32

@[simp] theorem length_writeBE16 (v : UInt16) : (writeBE16 v).length = 2 := rfl

@[simp] theorem length_writeBE32 (v : UInt32) : (writeBE32 v).length = 4 := rfl

variable {packet : Bytes}

theorem byteAt_of_carries {w : Bytes} {pos i : Nat} (h : Carries packet pos w)
    (hi : i < w.length) : byteAt packet (pos + i) = w[i] := by
  rw [byteAt, h.get hi, Option.getD_some]

theorem join_bytes16 (v : UInt16) :
    (v >>> 8).toUInt8.toUInt16 <<< 8 ||| v.toUInt8.toUInt16 = v := by
  apply UInt16.toBitVec_inj.mp
  ext i hi
  simp only [UInt16.toBitVec_or, UInt16.toBitVec_shiftLeft, UInt8.toBitVec_toUInt16,
    UInt16.toBitVec_toUInt8, UInt16.toBitVec_shiftRight]
  simp
  grind

theorem join_bytes32 (v : UInt32) :
    (v >>> 24).toUInt8.toUInt32 <<< 24 ||| (v >>> 16).toUInt8.toUInt32 <<< 16 |||
      (v >>> 8).toUInt8.toUInt32 <<< 8 ||| v.toUInt8.toUInt32 = v := by
  apply UInt32.toBitVec_inj.mp
  apply BitVec.eq_of_getLsbD_eq
  intro i hi
  simp only [UInt32.toBitVec_or, UInt32.toBitVec_shiftLeft, UInt8.toBitVec_toUInt32,
    UInt32.toBitVec_toUInt8, UInt32.toBitVec_shiftRight, UInt32.toBitVec_ofNat,
    BitVec.ofNat_eq_ofNat, BitVec.getLsbD_or, BitVec.shiftLeft_eq', BitVec.ushiftRight_eq',
    BitVec.getLsbD_shiftLeft, BitVec.getLsbD_ushiftRight, BitVec.getLsbD_setWidth]
  -- the byte that holds bit `i` is the only one of the four that has it
  have hbyte : i < 8 ∨ (8 ≤ i ∧ i < 16) ∨ (16 ≤ i ∧ i < 24) ∨ 24 ≤ i := by omega
  rcases hbyte with h | ⟨h, h'⟩ | ⟨h, h'⟩ | h
  · simp [h, hi, show i < 16 by omega, show i < 24 by omega]
  · simp [h', hi, show ¬ i < 8 by omega, show i < 24 by omega, show i - 8 < 8 by omega,
      show i - 8 < 32 by omega, Nat.add_sub_cancel' h]
  · simp [h', hi, show ¬ i < 8 by omega, show ¬ i < 16 by omega, show ¬ i - 8 < 8 by omega,
      show i - 16 < 8 by omega, show i - 16 < 32 by omega, Nat.add_sub_cancel' h]
  · simp [hi, show ¬ i < 8 by omega, show ¬ i < 16 by omega, show ¬ i < 24 by omega,
      show ¬ i - 8 < 8 by omega, show ¬ i - 16 < 8 by omega, show i - 24 < 8 by omega,
      show i - 24 < 32 by omega, Nat.add_sub_cancel' h]

theorem readBE16_of_carries {pos : Nat} {v : UInt16}
    (h : Carries packet pos (writeBE16 v)) : readBE16 packet pos = v := by
  have h0 : byteAt packet pos = (v >>> 8).toUInt8 := byteAt_of_carries h (i := 0) (by simp)
  have h1 : byteAt packet (pos + 1) = v.toUInt8 := byteAt_of_carries h (i := 1) (by simp)
  rw [readBE16, h0, h1, join_bytes16]

theorem readBE32_of_carries {pos : Nat} {v : UInt32}
    (h : Carries packet pos (writeBE32 v)) : readBE32 packet pos = v := by
  have h0 : byteAt packet pos = (v >>> 24).toUInt8 := byteAt_of_carries h (i := 0) (by simp)
  have h1 : byteAt packet (pos + 1) = (v >>> 16).toUInt8 :=
    byteAt_of_carries h (i := 1) (by simp)
  have h2 : byteAt packet (pos + 2) = (v >>> 8).toUInt8 := byteAt_of_carries h (i := 2) (by simp)
  have h3 : byteAt packet (pos + 3) = v.toUInt8 := byteAt_of_carries h (i := 3) (by simp)
  rw [readBE32, h0, h1, h2, h3, join_bytes32]

/-! ## Names -/

def dot : UInt8 := 46

/-- A label as a name can hold it. -/
structure IsLabel (l : Bytes) : Prop where
  pos : 0 < l.length
  short : l.length ≤ 63
  dotless : dot ∉ l

instance (l : Bytes) : Decidable (IsLabel l) :=
  decidable_of_iff (0 < l.length ∧ l.length ≤ 63 ∧ dot ∉ l)
    ⟨fun ⟨h₁, h₂, h₃⟩ => ⟨h₁, h₂, h₃⟩, fun ⟨h₁, h₂, h₃⟩ => ⟨h₁, h₂, h₃⟩⟩

abbrev Label := {l : Bytes // IsLabel l}

/-- The dotted name of some labels, with the trailing dot. -/
def dotted (ls : List Label) : Bytes := ls.flatMap fun l => l.1 ++ [dot]

/-- The labels as they stand in a packet, without the terminator. -/
def prefixed (ls : List Label) : Bytes := ls.flatMap fun l => UInt8.ofNat l.1.length :: l.1

def wireName (ls : List Label) : Bytes := prefixed ls ++ [0]

/-- The loop of `writeDnsName`; every round takes at least one byte of the name, so as many
rounds as the name has bytes are enough. -/
def writeLabels (cap : Nat) : Nat → Buffer UInt8 → Bytes → Option (Buffer UInt8)
  | 0, b, _ => some b
  | rounds + 1, b, name =>
    if name = [] then some b
    else
      let label := name.takeWhile (· != dot)
      if label.length > 63 then none
      -- a trailing or doubled dot ends the name
      else if label.length = 0 then some b
      else (b.emit cap (UInt8.ofNat label.length :: label)).bind fun b =>
        writeLabels cap rounds b (name.drop (label.length + 1))

/-- `writeDnsName` at the buffer's position; `none` is the answer 0. -/
def writeDnsName (cap : Nat) (b : Buffer UInt8) (name : Bytes) : Option (Buffer UInt8) :=
  (writeLabels cap name.length b name).bind fun b => b.emit cap [0]

/-- The loop of `readDnsName`. `jumped` is what had been consumed at the first compression
pointer, once one was followed. -/
def readLabels (packet : Bytes) (offset : Nat) :
    Nat → Nat → Option Nat → Bytes → Option (Bytes × Nat)
  | 0, _, _, _ => none
  | safety + 1, pos, jumped, name =>
    match packet[pos]? with
    | none => none
    | some b =>
      if b = 0 then some (name, jumped.getD (pos - offset + 1))
      else if b &&& 0xC0 = 0xC0 then
        if pos + 1 ≥ packet.length then none
        else
          let target := (b &&& 0x3F).toNat * 256 + (byteAt packet (pos + 1)).toNat
          if target ≥ packet.length ∨ target ≥ pos then none
          else readLabels packet offset safety target
            (some (jumped.getD (pos - offset + 2))) name
      else if b &&& 0xC0 ≠ 0 then none
      else if pos + 1 + b.toNat > packet.length then none
      else readLabels packet offset safety (pos + 1 + b.toNat) jumped
        (name ++ (packet.drop (pos + 1)).take b.toNat ++ [dot])

/-- `readDnsName`: the name and the bytes consumed; `none` is the answer 0. -/
def readDnsName (packet : Bytes) (offset : Nat) : Option (Bytes × Nat) :=
  readLabels packet offset 64 offset none []

theorem dotted_cons (l : Label) (ls : List Label) :
    dotted (l :: ls) = l.1 ++ dot :: dotted ls := by
  simp [dotted]

theorem prefixed_cons (l : Label) (ls : List Label) :
    prefixed (l :: ls) = (UInt8.ofNat l.1.length :: l.1) ++ prefixed ls := by
  simp [prefixed]

theorem takeWhile_label (l : Label) (rest : Bytes) :
    (l.1 ++ dot :: rest).takeWhile (· != dot) = l.1 := by
  have hall : ∀ c ∈ l.1, (c != dot) = true := by
    intro c hc
    have hne : c ≠ dot := fun h => l.2.dotless (h ▸ hc)
    simp [hne]
  rw [takeWhile_append_of_pos hall]
  simp

theorem writeLabels_dotted {cap : Nat} (ls : List Label) :
    ∀ {rounds : Nat} {b : Buffer UInt8}, (dotted ls).length ≤ rounds → b.pos ≤ cap →
      writeLabels cap rounds b (dotted ls) = b.emit cap (prefixed ls) := by
  induction ls with
  | nil =>
    intro rounds b _ hb
    have hempty : writeLabels cap rounds b [] = some b := by cases rounds <;> rfl
    exact hempty.trans (Buffer.emit_nil hb).symm
  | cons l ls ih =>
    intro rounds b hr _
    rw [dotted_cons, length_append, length_cons] at hr
    obtain ⟨n, rfl⟩ : ∃ n, rounds = n + 1 := Nat.exists_eq_succ_of_ne_zero (by omega)
    have hpos := l.2.pos
    have hshort := l.2.short
    have hdrop : (l.1 ++ dot :: dotted ls).drop (l.1.length + 1) = dotted ls := by simp
    rw [dotted_cons, writeLabels, takeWhile_label, if_neg (by simp), if_neg (by omega),
      if_neg (by omega), hdrop, prefixed_cons]
    exact Buffer.emit_bind b _ fun c hc => ih (by omega) hc

/-- A dotted name is written as its labels and a terminator, if there is room. -/
theorem writeDnsName_dotted {cap : Nat} {b : Buffer UInt8} (ls : List Label)
    (hb : b.pos ≤ cap) : writeDnsName cap b (dotted ls) = b.emit cap (wireName ls) := by
  rw [writeDnsName, writeLabels_dotted ls (Nat.le_refl _) hb]
  exact Buffer.emit_bind b _ fun c _ => rfl

theorem length_byte {n : Nat} (h : n ≤ 63) : (UInt8.ofNat n).toNat = n := by
  simp only [UInt8.toNat_ofNat']
  omega

/-- The length byte of a label is neither a terminator nor a pointer. -/
theorem length_byte_bits : ∀ n : Fin 64, 0 < n.val →
    UInt8.ofNat n ≠ 0 ∧ UInt8.ofNat n &&& 0xC0 = 0 := by
  decide

theorem readLabels_step {offset safety pos : Nat} {jumped : Option Nat}
    {name : Bytes} (l : Label) (h : Carries packet pos (UInt8.ofNat l.1.length :: l.1)) :
    readLabels packet offset (safety + 1) pos jumped name =
      readLabels packet offset safety (pos + 1 + l.1.length) jumped (name ++ l.1 ++ [dot]) := by
  have hget : packet[pos]? = some (UInt8.ofNat l.1.length) := h.get (i := 0) (by simp)
  have hbits := length_byte_bits ⟨l.1.length, by have := l.2.short; omega⟩ l.2.pos
  have hle := h.le
  have hbody : Carries packet (pos + 1) l.1 := h.right (v := [_])
  simp only [length_cons] at hle
  rw [readLabels, hget]
  simp only [if_neg hbits.1, hbits.2, length_byte l.2.short, hbody.take_drop (Nat.le_refl _),
    take_length]
  rw [if_neg (by decide), if_neg (by simp), if_neg (by omega)]

theorem readLabels_wireName {offset : Nat} (ls : List Label) :
    ∀ {safety pos : Nat} {name : Bytes}, ls.length < safety → offset ≤ pos →
      Carries packet pos (wireName ls) →
      readLabels packet offset safety pos none name =
        some (name ++ dotted ls, pos - offset + (wireName ls).length) := by
  induction ls with
  | nil =>
    intro safety pos name hs _ h
    obtain ⟨n, rfl⟩ : ∃ n, safety = n + 1 := Nat.exists_eq_succ_of_ne_zero (by omega)
    have hget : packet[pos]? = some 0 := h.get (i := 0) (by simp [wireName])
    rw [readLabels, hget]
    simp [dotted, wireName, prefixed]
  | cons l ls ih =>
    intro safety pos name hs hle h
    obtain ⟨n, rfl⟩ : ∃ n, safety = n + 1 := Nat.exists_eq_succ_of_ne_zero (by omega)
    rw [wireName, prefixed_cons, append_assoc] at h
    have hrest : Carries packet (pos + 1 + l.1.length) (wireName ls) := by
      have := h.right
      rwa [length_cons, Nat.add_comm l.1.length, ← Nat.add_assoc] at this
    rw [readLabels_step l h.left, ih (by simpa using hs) (by omega) hrest, dotted_cons]
    simp only [wireName, prefixed_cons, append_assoc, length_append, length_cons,
      singleton_append, Option.some.injEq, Prod.mk.injEq, true_and]
    omega

/-- Reading back a name: the dotted name and its length on the wire. -/
theorem readDnsName_wireName {pos : Nat} {ls : List Label}
    (hls : ls.length < 64) (h : Carries packet pos (wireName ls)) :
    readDnsName packet pos = some (dotted ls, (wireName ls).length) := by
  rw [readDnsName, readLabels_wireName ls hls (Nat.le_refl _) h]
  simp

end Satellite.Mdns
