import Mathlib.Data.List.Chain
import Mathlib.Data.List.Nodup
import Mathlib.Data.List.Perm.Basic

/-!
# The jitter window

`AudioJitterWindow` of `core/audio/audio_jitter.h`: wrapping sequence numbers in,
packets in order and explicit gaps out. Distances are taken from the number the
window waits for; while a push drains the window they only shrink, and a packet is
never overtaken. The invariant of the loop bounds the gaps that may still come by the
packets still held, so a push never runs into the end of its event array.
-/

namespace Satellite.Audio

open List

/-! ## The window -/

def jitterWindowFrames : Nat := 2
def jitterMaxConcealFrames : Nat := 2
def jitterMaxPacketBytes : Nat := 1500
def jitterMaxEventsPerPush : Nat := jitterWindowFrames * (jitterMaxConcealFrames + 1)

/-- A packet in a used slot. -/
structure Packet where
  seq : UInt16
  bytes : List UInt8
  deriving DecidableEq

/-- One thing the decoder should do. -/
inductive JitterEvent
  | packet (p : Packet)
  | gap (seq : UInt16) (fecCarrier : Option (List UInt8))
  deriving DecidableEq

def JitterEvent.seq : JitterEvent → UInt16
  | .packet p => p.seq
  | .gap seq _ => seq

inductive Accept
  | ok
  | late
  | duplicate
  | rejected
  deriving DecidableEq

structure PushResult where
  accept : Accept := .ok
  events : List JitterEvent := []
  deriving DecidableEq

structure JitterWindow where
  /-- The used slots; there are `jitterWindowFrames` of them in all. -/
  slots : List Packet := []
  primed : Bool := false
  next : UInt16 := 0
  consecutiveGaps : Nat := 0
  deriving DecidableEq

namespace JitterWindow

variable (w : JitterWindow)

def deltaFromNext (seq : UInt16) : Int := (seq - w.next).toInt16.toInt

def find (seq : UInt16) : Option Packet := w.slots.find? fun s => s.seq == seq

def freeSlot : Bool := w.slots.length < jitterWindowFrames

/-- The distance of the packet furthest ahead, or -1. -/
def maxAhead : Int :=
  w.slots.foldl (fun best s => if w.deltaFromNext s.seq > best then w.deltaFromNext s.seq else best)
    (-1)

/-- The nearest held packet. -/
def oldestHeld : Option Packet :=
  w.slots.foldl (fun best s => match best with
    | none => some s
    | some b => if w.deltaFromNext s.seq < w.deltaFromNext b.seq then some s else best) none

/-- One round of the loop in `drain`, with the event it emits; nothing where the loop breaks. -/
def drainRound : Option (Option JitterEvent × JitterWindow) :=
  match w.find w.next with
  | some due =>
    some (some (.packet due),
      { w with slots := w.slots.eraseP fun s => s.seq == w.next
               next := w.next + 1, consecutiveGaps := 0 })
  | none =>
    if w.maxAhead < jitterWindowFrames then none
    else if w.consecutiveGaps ≥ jitterMaxConcealFrames then
      match w.oldestHeld with
      | none => none
      | some resume => some (none, { w with next := resume.seq, consecutiveGaps := 0 })
    else
      some (some (.gap w.next ((w.find (w.next + 1)).map Packet.bytes)),
        { w with next := w.next + 1, consecutiveGaps := w.consecutiveGaps + 1 })

/-- How far a loop over `drainRound` is from its end: resynchronising emits nothing. -/
def drainFuel (events : List JitterEvent) : Nat :=
  2 * (jitterMaxEventsPerPush - events.length) +
    if w.consecutiveGaps ≥ jitterMaxConcealFrames then 1 else 0

variable {e : Option JitterEvent} {w' : JitterWindow} {events : List JitterEvent}

theorem drainRound_fuel
    (h : w.drainRound = some (e, w')) (hlt : events.length < jitterMaxEventsPerPush) :
    w'.drainFuel (events ++ e.toList) < w.drainFuel events := by
  have hbit : ∀ (n : Nat), (if n ≥ jitterMaxConcealFrames then 1 else 0) ≤ 1 := by
    intro n
    split <;> omega
  unfold drainRound at h
  split at h
  · cases h
    have := hbit 0
    simp only [drainFuel, Option.toList_some, length_append, length_singleton]
    omega
  · split at h
    · cases h
    · split at h
      next hgaps =>
        split at h
        · cases h
        · cases h
          simp only [drainFuel, Option.toList_none, append_nil, if_pos hgaps]
          rw [if_neg (by decide)]
          omega
      · cases h
        have := hbit (w.consecutiveGaps + 1)
        simp only [drainFuel, Option.toList_some, length_append, length_singleton]
        omega

def drain (w : JitterWindow) (events : List JitterEvent) : JitterWindow × List JitterEvent :=
  if _hlt : events.length < jitterMaxEventsPerPush then
    match _h : w.drainRound with
    | none => (w, events)
    | some (e, w') => drain w' (events ++ e.toList)
  else (w, events)
  termination_by w.drainFuel events
  decreasing_by exact drainRound_fuel w _h _hlt

/-- `data` is nothing where the caller passes a null pointer. -/
def push (seq : UInt16) (data : Option (List UInt8)) : JitterWindow × PushResult :=
  match data with
  | none => (w, { accept := .rejected })
  | some bytes =>
    if bytes.length = 0 ∨ bytes.length > jitterMaxPacketBytes then (w, { accept := .rejected })
    else
      let w := if w.primed then w else { w with primed := true, next := seq, consecutiveGaps := 0 }
      let delta := w.deltaFromNext seq
      if delta < 0 then (w, { accept := .late })
      else if delta = 0 ∧ w.slots.length = 0 then
        ({ w with next := w.next + 1, consecutiveGaps := 0 }, { events := [.packet ⟨seq, bytes⟩] })
      else if (w.find seq).isSome then (w, { accept := .duplicate })
      else if w.freeSlot then
        let (w, events) := drain { w with slots := w.slots ++ [⟨seq, bytes⟩] } []
        (w, { events := events })
      else (w, { accept := .rejected })

/-- Nothing of the window survives but the allocations of its slots. -/
def reset (_w : JitterWindow) : JitterWindow :=
  { primed := false, next := 0, consecutiveGaps := 0, slots := [] }

/-! ## Distances -/

/-- How far ahead of the expected number a sequence number is. -/
def ahead (seq : UInt16) : Nat := (seq - w.next).toNat

theorem ahead_lt (seq : UInt16) : w.ahead seq < 65536 := (seq - w.next).toNat_lt

theorem deltaFromNext_eq (seq : UInt16) :
    w.deltaFromNext seq = if w.ahead seq < 32768 then (w.ahead seq : Int)
      else (w.ahead seq : Int) - 65536 := by
  have h := w.ahead_lt seq
  show (seq - w.next).toBitVec.toInt = _
  rw [BitVec.toInt_eq_toNat_cond, UInt16.toNat_toBitVec]
  unfold ahead at h ⊢
  split <;> split <;> omega

theorem ahead_eq_zero {seq : UInt16} : w.ahead seq = 0 ↔ seq = w.next := by
  rw [ahead, ← UInt16.toNat_inj, UInt16.toNat_sub]
  have h := seq.toNat_lt
  have h' := w.next.toNat_lt
  omega

/-- Waiting for the next number brings every other one closer. -/
theorem sub_succ_toNat {a n : UInt16} (h : a ≠ n) : (a - (n + 1)).toNat = (a - n).toNat - 1 := by
  have hne : a.toNat ≠ n.toNat := fun he => h (UInt16.toNat_inj.1 he)
  have ha := a.toNat_lt
  have hn := n.toNat_lt
  rw [UInt16.toNat_sub, UInt16.toNat_sub, UInt16.toNat_add, UInt16.toNat_one]
  omega

/-- Distances add up as long as they stay within one turn. -/
theorem sub_toNat_add {a b n : UInt16} (h : (b - n).toNat ≤ (a - n).toNat) :
    (a - b).toNat = (a - n).toNat - (b - n).toNat := by
  have hb := b.toNat_lt
  rw [UInt16.toNat_sub] at h ⊢
  rw [UInt16.toNat_sub] at h ⊢
  rw [UInt16.toNat_sub]
  omega

theorem succ_sub_toNat (n : UInt16) : (n + 1 - n).toNat = 1 := by
  have hn := n.toNat_lt
  rw [UInt16.toNat_sub, UInt16.toNat_add, UInt16.toNat_one]
  omega

/-! ## The scans over the slots -/

variable {p : Packet}

theorem find?_seq {xs : List Packet} (hn : (xs.map Packet.seq).Nodup) {seq : UInt16}
    : (xs.find? fun s => s.seq == seq) = some p ↔ p ∈ xs ∧ p.seq = seq := by
  constructor
  · intro h
    exact ⟨mem_of_find?_eq_some h, by simpa using find?_some h⟩
  · rintro ⟨hp, rfl⟩
    cases h : xs.find? fun s => s.seq == p.seq with
    | none =>
      have := find?_eq_none.1 h p hp
      simp at this
    | some q =>
      have hq := mem_of_find?_eq_some h
      have hseq : q.seq = p.seq := by simpa using find?_some h
      rw [inj_on_of_nodup_map hn hq hp hseq]

theorem find_eq_none {w : JitterWindow} {seq : UInt16} :
    w.find seq = none ↔ ∀ p ∈ w.slots, p.seq ≠ seq := by
  simp [find, find?_eq_none]

private theorem foldl_max_lt (f : Packet → Int) (xs : List Packet) (b k : Int) :
    xs.foldl (fun best s => if f s > best then f s else best) b < k ↔
      b < k ∧ ∀ x ∈ xs, f x < k := by
  induction xs generalizing b with
  | nil => simp
  | cons x xs ih =>
    rw [foldl_cons, ih, forall_mem_cons]
    split <;> constructor <;> rintro ⟨h, h'⟩ <;> refine ⟨by omega, ?_⟩
    · exact ⟨h, h'⟩
    · exact h'.2
    · exact ⟨by omega, h'⟩
    · exact h'.2

theorem maxAhead_lt {k : Int} (hk : -1 < k) :
    w.maxAhead < k ↔ ∀ p ∈ w.slots, w.deltaFromNext p.seq < k := by
  rw [maxAhead, foldl_max_lt]
  exact and_iff_right hk

private theorem foldl_min (f : Packet → Int) (xs : List Packet) (b : Packet) :
    ∃ p, xs.foldl (fun best s => match best with
        | none => some s
        | some b => if f s < f b then some s else best) (some b) = some p ∧
      (p = b ∨ p ∈ xs) ∧ f p ≤ f b ∧ ∀ x ∈ xs, f p ≤ f x := by
  induction xs generalizing b with
  | nil => exact ⟨b, rfl, .inl rfl, Int.le_refl _, nofun⟩
  | cons x xs ih =>
    rw [foldl_cons]
    by_cases hlt : f x < f b
    · obtain ⟨p, hp, hmem, hle, hall⟩ := ih x
      refine ⟨p, by simp only [hlt, if_true]; exact hp, ?_, by omega, ?_⟩
      · rcases hmem with rfl | hmem
        · exact .inr mem_cons_self
        · exact .inr (mem_cons_of_mem _ hmem)
      · exact forall_mem_cons.2 ⟨hle, hall⟩
    · obtain ⟨p, hp, hmem, hle, hall⟩ := ih b
      refine ⟨p, by simp only [hlt, if_false]; exact hp, ?_, hle, ?_⟩
      · exact hmem.imp_right (mem_cons_of_mem _)
      · exact forall_mem_cons.2 ⟨by omega, hall⟩

/-- The window resumes at the nearest held packet. -/
theorem oldestHeld_eq {w : JitterWindow} (h : w.slots ≠ []) :
    ∃ p, w.oldestHeld = some p ∧ p ∈ w.slots ∧
      ∀ q ∈ w.slots, w.deltaFromNext p.seq ≤ w.deltaFromNext q.seq := by
  obtain ⟨x, xs, hxs⟩ := exists_cons_of_ne_nil h
  obtain ⟨p, hp, hmem, hle, hall⟩ := foldl_min (fun s => w.deltaFromNext s.seq) xs x
  refine ⟨p, ?_, ?_, ?_⟩
  · rw [oldestHeld, hxs, foldl_cons]
    exact hp
  · rw [hxs, mem_cons]
    exact hmem
  · rw [hxs]
    exact forall_mem_cons.2 ⟨hle, hall⟩

/-! ## One round -/

/-- What holds between two rounds of the loop. -/
structure Draining : Prop where
  near : ∀ p ∈ w.slots, w.ahead p.seq < 32768
  nodup : (w.slots.map Packet.seq).Nodup
  gaps_le : w.consecutiveGaps ≤ 2
  idle : w.slots = [] → w.consecutiveGaps = 0
  /-- The packet a gap was emitted for is close by as many numbers. -/
  oldest : w.consecutiveGaps ≠ 0 → ∃ p ∈ w.slots, w.ahead p.seq + w.consecutiveGaps < 32768

/-- The packet the window waits for is held. -/
def Due : Prop := ∃ p ∈ w.slots, p.seq = w.next

/-- What a round can do. -/
inductive Round : Option JitterEvent → JitterWindow → Prop
  | due (p : Packet) (xs ys : List Packet) : w.slots = xs ++ p :: ys → p.seq = w.next →
      Round (some (.packet p))
        { w with slots := xs ++ ys, next := w.next + 1, consecutiveGaps := 0 }
  | gap : ¬ w.Due → (∃ p ∈ w.slots, 2 ≤ w.ahead p.seq) → w.consecutiveGaps < 2 →
      Round (some (.gap w.next ((w.find (w.next + 1)).map Packet.bytes)))
        { w with next := w.next + 1, consecutiveGaps := w.consecutiveGaps + 1 }
  | resync (p : Packet) : ¬ w.Due → p ∈ w.slots → (∀ q ∈ w.slots, w.ahead p.seq ≤ w.ahead q.seq) →
      2 ≤ w.consecutiveGaps →
      Round none { w with next := p.seq, consecutiveGaps := 0 }

/-- Nothing is held, or one packet one ahead of the expected number. -/
def Rests : Prop :=
  w.slots = [] ∧ w.consecutiveGaps = 0 ∨
    (∃ p, w.slots = [p] ∧ w.ahead p.seq = 1) ∧ w.consecutiveGaps ≤ 2

variable {w}

/-- Only one packet is due. -/
theorem Draining.ne_next (h : w.Draining) {q : Packet} {xs ys : List Packet}
    (hslots : w.slots = xs ++ p :: ys) (hseq : p.seq = w.next) (hq : q ∈ xs ++ ys) :
    q.seq ≠ w.next := by
  have hnodup := h.nodup
  rw [hslots, map_append, map_cons, nodup_append, nodup_cons] at hnodup
  intro hqn
  rcases mem_append.1 hq with hqx | hqy
  · exact hnodup.2.2 _ (mem_map_of_mem hqx) _ mem_cons_self (hqn.trans hseq.symm)
  · exact hnodup.2.1.1 (hseq.trans hqn.symm ▸ mem_map_of_mem hqy)

theorem Draining.delta (h : w.Draining) (hp : p ∈ w.slots) :
    w.deltaFromNext p.seq = w.ahead p.seq := by
  rw [deltaFromNext_eq, if_pos (h.near p hp)]

theorem Draining.far (h : w.Draining) (hahead : ¬ w.maxAhead < jitterWindowFrames) :
    ∃ p ∈ w.slots, 2 ≤ w.ahead p.seq := by
  by_contra hnone
  apply hahead
  rw [maxAhead_lt _ (by decide)]
  intro p hp
  rw [h.delta hp]
  have hlt : ¬ 2 ≤ w.ahead p.seq := fun hle => hnone ⟨p, hp, hle⟩
  show (w.ahead p.seq : Int) < (2 : Nat)
  omega

theorem Draining.round (h : w.Draining)
    (hr : w.drainRound = some (e, w')) : w.Round e w' := by
  unfold drainRound at hr
  split at hr
  next p hp =>
    cases hr
    obtain ⟨hseq, xs, ys, hslots, hxs⟩ := find?_eq_some_iff_append.1 hp
    have herase : (w.slots.eraseP fun s => s.seq == w.next) = xs ++ ys := by
      rw [hslots, eraseP_append_right _ (fun b hb => by simpa using hxs b hb),
        eraseP_cons_of_pos (by simpa using hseq)]
    rw [herase]
    exact .due p xs ys hslots (by simpa using hseq)
  next hnone =>
    have hdue : ¬ w.Due := fun ⟨p, hp, hseq⟩ => find_eq_none.1 hnone p hp hseq
    split at hr
    · cases hr
    next hahead =>
      have hfar := h.far hahead
      split at hr
      next hgaps =>
        obtain ⟨p, hp, hmem, hall⟩ := oldestHeld_eq (ne_nil_of_mem hfar.choose_spec.1)
        rw [hp] at hr
        cases hr
        refine .resync p hdue hmem (fun q hq => ?_) hgaps
        have := hall q hq
        rw [h.delta hmem, h.delta hq] at this
        omega
      next hgaps =>
        cases hr
        exact .gap hdue hfar (by simpa [jitterMaxConcealFrames] using hgaps)

/-- Where the loop breaks, what is left is one ahead. -/
theorem Draining.rests (h : w.Draining) (hr : w.drainRound = none) : w.Rests := by
  unfold drainRound at hr
  split at hr
  · cases hr
  next hnone =>
    have hne := find_eq_none.1 hnone
    split at hr
    next hahead =>
      rw [maxAhead_lt _ (by decide)] at hahead
      have hone : ∀ p ∈ w.slots, w.ahead p.seq = 1 := by
        intro p hp
        have hlt := hahead p hp
        have hzero : w.ahead p.seq ≠ 0 := fun h0 => hne p hp ((ahead_eq_zero w).1 h0)
        rw [h.delta hp] at hlt
        simp only [jitterWindowFrames] at hlt
        omega
      match hs : w.slots with
      | [] => exact .inl ⟨hs, h.idle hs⟩
      | [p] => exact .inr ⟨⟨p, hs, hone p (by simp [hs])⟩, h.gaps_le⟩
      | p :: q :: _ =>
        -- Two packets one ahead would carry one number.
        have hp := hone p (by simp [hs])
        have hq := hone q (by simp [hs])
        have hsame : p.seq = q.seq := by
          apply UInt16.toNat_inj.1
          rw [ahead, UInt16.toNat_sub] at hp hq
          have := p.seq.toNat_lt
          have := q.seq.toNat_lt
          have := w.next.toNat_lt
          omega
        have hn := h.nodup
        rw [hs] at hn
        simp [hsame] at hn
    next hahead =>
      split at hr
      · have hslots : w.slots ≠ [] := by
          intro hs
          refine hahead ((maxAhead_lt w (by decide)).2 ?_)
          rw [hs]
          exact nofun
        obtain ⟨p, hp, -⟩ := oldestHeld_eq hslots
        rw [hp] at hr
        cases hr
      · cases hr

/-- A round keeps what holds between rounds. -/
theorem Round.draining (hr : w.Round e w')
    (h : w.Draining) : w'.Draining := by
  cases hr with
  | due p xs ys hslots hseq =>
    have hnodup := h.nodup
    rw [hslots, map_append, map_cons] at hnodup
    have hsub : xs ++ ys ⊆ w.slots := by
      rw [hslots]
      exact ((sublist_cons_self p ys).append_left xs).subset
    refine ⟨fun q hq => ?_, ?_, Nat.zero_le _, fun _ => rfl, fun h0 => absurd rfl h0⟩
    · show (q.seq - (w.next + 1)).toNat < 32768
      have hnear := h.near q (hsub hq)
      rw [sub_succ_toNat (h.ne_next hslots hseq hq)]
      unfold ahead at hnear
      omega
    · rw [map_append]
      exact hnodup.sublist ((sublist_cons_self _ _).append_left _)
  | gap hdue hfar hgaps =>
    have hne : ∀ q ∈ w.slots, q.seq ≠ w.next := fun q hq hqn => hdue ⟨q, hq, hqn⟩
    have hahead : ∀ q ∈ w.slots, (q.seq - (w.next + 1)).toNat = w.ahead q.seq - 1 := fun q hq =>
      sub_succ_toNat (hne q hq)
    have hpos : ∀ q ∈ w.slots, 1 ≤ w.ahead q.seq := fun q hq =>
      Nat.one_le_iff_ne_zero.2 fun h0 => hne q hq ((ahead_eq_zero w).1 h0)
    refine ⟨fun q hq => ?_, h.nodup, by simp only; omega, ?_, fun _ => ?_⟩
    · show (q.seq - (w.next + 1)).toNat < 32768
      have hnear := h.near q hq
      rw [hahead q hq]
      omega
    · rintro hnil
      obtain ⟨p, hp, -⟩ := hfar
      exact absurd hnil (ne_nil_of_mem hp)
    · -- The gap takes from the distance what it adds to the count.
      obtain ⟨p, hp, hle⟩ : ∃ p ∈ w.slots, w.ahead p.seq + w.consecutiveGaps < 32768 := by
        by_cases h0 : w.consecutiveGaps = 0
        · obtain ⟨p, hp, -⟩ := hfar
          exact ⟨p, hp, h0 ▸ h.near p hp⟩
        · exact h.oldest h0
      refine ⟨p, hp, ?_⟩
      show (p.seq - (w.next + 1)).toNat + (w.consecutiveGaps + 1) < 32768
      have := hpos p hp
      rw [hahead p hp]
      omega
  | resync p hdue hp hall hgaps =>
    refine ⟨fun q hq => ?_, h.nodup, Nat.zero_le _, fun _ => rfl, fun h0 => absurd rfl h0⟩
    show (q.seq - p.seq).toNat < 32768
    have hnear := h.near q hq
    have hle := hall q hq
    unfold ahead at hnear hle
    rw [sub_toNat_add hle]
    omega

/-! ## The events of a push fit -/

/-- `n` events are out, and what is held can add no more than the array has room for. -/
def Budget (w : JitterWindow) (n : Nat) : Prop :=
  n + 3 * w.slots.length ≤ 6 + w.consecutiveGaps ∨ w.Due ∧ n + 3 * w.slots.length ≤ 8

theorem Round.budget (hr : w.Round e w')
    (h : w.Draining) {n : Nat} (hb : w.Budget n) :
    n < jitterMaxEventsPerPush ∧ w'.Budget (n + e.toList.length) := by
  have hcap : jitterMaxEventsPerPush = 6 := rfl
  have hgaps := h.gaps_le
  have hle : n + 3 * w.slots.length ≤ 8 := by
    rcases hb with hb | ⟨-, hb⟩ <;> omega
  cases hr with
  | due p xs ys hslots hseq =>
    have hlen : w.slots.length = (xs ++ ys).length + 1 := by
      rw [hslots, length_append, length_append, length_cons]
      omega
    refine ⟨by omega, .inl ?_⟩
    simp only [Option.toList_some, length_singleton]
    omega
  | gap hdue hfar hlt =>
    have hpos := length_pos_of_mem hfar.choose_spec.1
    obtain hb | ⟨hd, -⟩ := hb
    · refine ⟨by omega, .inl ?_⟩
      simp only [Option.toList_some, length_singleton]
      omega
    · exact absurd hd hdue
  | resync p hdue hp hall hge =>
    have hpos := length_pos_of_mem hp
    refine ⟨by omega, .inr ⟨⟨p, hp, rfl⟩, ?_⟩⟩
    simp only [Option.toList_none, length_nil]
    omega

/-- The loop runs until nothing is left to do: a predicate that every round keeps holds
where it breaks. -/
theorem drain_rule {P : JitterWindow → List JitterEvent → Prop}
    (hround : ∀ w e w' events, w.Draining → w.Round e w' → P w events → P w' (events ++ e.toList))
    (events : List JitterEvent) (h : w.Draining) (hb : w.Budget events.length)
    (hP : P w events) :
    (w.drain events).1.Draining ∧ (w.drain events).1.Rests ∧
      (w.drain events).2.length ≤ jitterMaxEventsPerPush ∧
      P (w.drain events).1 (w.drain events).2 := by
  fun_induction drain w events with
  | case1 w events hlt hnone => exact ⟨h, h.rests hnone, Nat.le_of_lt hlt, hP⟩
  | case2 w events hlt e w' hsome ih =>
    have hr := h.round hsome
    refine ih (hr.draining h) ?_ (hround w e w' events h hr hP)
    rw [length_append]
    exact (hr.budget h hb).2
  | case3 w events hfull =>
    -- A full array would leave nothing to drain.
    cases hnone : w.drainRound with
    | none =>
      refine ⟨h, h.rests hnone, ?_, hP⟩
      show events.length ≤ jitterMaxEventsPerPush
      have hcap : jitterMaxEventsPerPush = 6 := rfl
      have hgaps := h.gaps_le
      rcases hb with hb | ⟨⟨p, hp, -⟩, hb⟩
      · by_cases hnil : w.slots = []
        · have := h.idle hnil
          omega
        · have := length_pos_iff.2 hnil
          omega
      · have := length_pos_of_mem hp
        omega
    | some x =>
      obtain ⟨e, w'⟩ := x
      exact absurd ((h.round hnone).budget h hb).1 hfull

/-! ## What the events say -/

/-- An event may follow another. -/
def Follows (a b : JitterEvent) : Prop :=
  1 ≤ (b.seq - a.seq).toNat ∧ (b.seq - a.seq).toNat ≤ 32767

/-- The gaps a list of events ends with. -/
def gapRun (events : List JitterEvent) : Nat :=
  (events.reverse.takeWhile fun e => match e with
    | .gap .. => true
    | .packet _ => false).length

theorem gapRun_packet (events : List JitterEvent) (p : Packet) :
    gapRun (events ++ [.packet p]) = 0 := by
  simp [gapRun]

theorem gapRun_gap (events : List JitterEvent) (seq : UInt16) (c : Option (List UInt8)) :
    gapRun (events ++ [.gap seq c]) = gapRun events + 1 := by
  simp [gapRun]

/-- The events of a stretch, in order, up to the number the window waits for. -/
structure Advances (w : JitterWindow) (events : List JitterEvent) : Prop where
  chain : events.IsChain Follows
  link : ∀ e, events.getLast? = some e → (w.next - e.seq).toNat = 1 ∨
    w.consecutiveGaps = 0 ∧ 1 ≤ (w.next - e.seq).toNat ∧ (w.next - e.seq).toNat ≤ 32767

/-- The number the window waits for may always come next. -/
theorem Advances.append (h : w.Advances events) {e : JitterEvent}
    (he : e.seq = w.next) (hw : w'.next = w.next + 1) :
    w'.Advances (events ++ [e]) where
  chain := by
    rw [isChain_append]
    refine ⟨h.chain, isChain_singleton e, fun a ha b hb => ?_⟩
    obtain rfl : e = b := by simpa using hb
    rw [Follows, he]
    rcases h.link a ha with h1 | ⟨-, hlo, hhi⟩
    · omega
    · exact ⟨hlo, hhi⟩
  link a ha := by
    obtain rfl : e = a := by simpa using ha
    rw [hw, he]
    exact .inl (succ_sub_toNat w.next)

theorem Round.advances (hr : w.Round e w')
    (h : w.Draining) (ha : w.Advances events) :
    w'.Advances (events ++ e.toList) := by
  cases hr with
  | due p xs ys hslots hseq => exact ha.append hseq rfl
  | gap hdue hfar hgaps => exact ha.append rfl rfl
  | resync p hdue hp hall hge =>
    rw [Option.toList_none, append_nil]
    refine ⟨ha.chain, fun a hlast => .inr ⟨rfl, ?_⟩⟩
    -- Two gaps came before the jump, so it is at most 32767 from the last of them.
    obtain h1 | ⟨h0, -⟩ := ha.link a hlast
    · obtain ⟨q, hq, hlt⟩ := h.oldest (by omega)
      have hle := hall q hq
      have hgt : w.ahead p.seq ≠ 0 := fun h0 => hdue ⟨p, hp, (ahead_eq_zero w).1 h0⟩
      show 1 ≤ (p.seq - a.seq).toNat ∧ (p.seq - a.seq).toNat ≤ 32767
      unfold ahead at hle hlt hgt
      have hn' := w.next.toNat_lt
      rw [UInt16.toNat_sub] at h1 hle hgt ⊢
      rw [UInt16.toNat_sub] at hle hlt
      omega
    · omega

/-- No more gaps in a row than the window conceals. -/
def Concealed (w : JitterWindow) (events : List JitterEvent) : Prop :=
  (∀ before, before <+: events → gapRun before ≤ 2) ∧
    (gapRun events ≤ w.consecutiveGaps ∨ w.Due)

private theorem prefix_concat {before : List JitterEvent} {e : JitterEvent}
    (h : before <+: events ++ [e]) : before <+: events ∨ before = events ++ [e] := by
  rw [prefix_concat_iff] at h
  exact h.symm

theorem Round.concealed (hr : w.Round e w')
    (h : w.Concealed events) : w'.Concealed (events ++ e.toList) := by
  cases hr with
  | due p xs ys hslots hseq =>
    refine ⟨fun before hb => ?_, .inl ?_⟩
    · rcases prefix_concat hb with hb | rfl
      · exact h.1 before hb
      · rw [gapRun_packet]
        exact Nat.zero_le _
    · rw [Option.toList_some, gapRun_packet]
  | gap hdue hfar hgaps =>
    have hrun : gapRun events ≤ w.consecutiveGaps := h.2.resolve_right hdue
    refine ⟨fun before hb => ?_, .inl ?_⟩
    · rcases prefix_concat hb with hb | rfl
      · exact h.1 before hb
      · rw [gapRun_gap]
        omega
    · rw [Option.toList_some, gapRun_gap]
      show gapRun events + 1 ≤ w.consecutiveGaps + 1
      omega
  | resync p hdue hp hall hge =>
    rw [Option.toList_none, append_nil]
    exact ⟨h.1, .inr ⟨p, hp, rfl⟩⟩

/-- The packets among the events. -/
def packetsOf (events : List JitterEvent) : List Packet :=
  events.filterMap fun e => match e with
    | .packet p => some p
    | .gap .. => none

/-- A round moves packets from the slots to the events and loses none. -/
theorem Round.perm (hr : w.Round e w')
    (events : List JitterEvent) :
    (packetsOf (events ++ e.toList) ++ w'.slots).Perm (packetsOf events ++ w.slots) := by
  cases hr with
  | due p xs ys hslots hseq =>
    rw [packetsOf, filterMap_append, hslots, append_assoc]
    refine (perm_append_left_iff _).2 ?_
    show (p :: (xs ++ ys)).Perm (xs ++ p :: ys)
    exact perm_middle.symm
  | gap hdue hfar hgaps =>
    rw [packetsOf, filterMap_append]
    simp [packetsOf]
  | resync p hdue hp hall hge =>
    rw [Option.toList_none, append_nil]

/-! ## Carriers -/

/-- During one push, from the number `start` on: what left the slots lies behind. -/
structure Behind (start : UInt16) (all : List Packet) (w : JitterWindow) : Prop where
  nodup : (all.map Packet.seq).Nodup
  near : ∀ p ∈ all, (p.seq - start).toNat ≤ 32767
  pos : (w.next - start).toNat ≤ 32768
  sub : ∀ p ∈ w.slots, p ∈ all
  held : ∀ p ∈ all, p ∈ w.slots ∨ (p.seq - start).toNat < (w.next - start).toNat
  ahead : ∀ p ∈ w.slots, (w.next - start).toNat ≤ (p.seq - start).toNat

variable {start : UInt16}

variable {all : List Packet}

theorem Behind.near_next (h : Behind start all w)
    (hp : p ∈ w.slots) :
    (p.seq - start).toNat = (w.next - start).toNat + w.ahead p.seq := by
  have hle := h.ahead p hp
  unfold JitterWindow.ahead
  rw [sub_toNat_add hle]
  omega

theorem succ_sub_start {n : UInt16} (h : (n - start).toNat ≤ 32768) :
    (n + 1 - start).toNat = (n - start).toNat + 1 := by
  rw [UInt16.toNat_sub] at h ⊢
  rw [UInt16.toNat_sub, UInt16.toNat_add, UInt16.toNat_one]
  omega

theorem Round.behind (hr : w.Round e w')
    (hd : w.Draining) (h : Behind start all w) :
    Behind start all w' := by
  cases hr with
  | due p xs ys hslots hseq =>
    have hp : p ∈ w.slots := hslots ▸ by simp
    have hnear := h.near p (h.sub p hp)
    rw [hseq] at hnear
    have hnext := succ_sub_start h.pos
    have hmem : ∀ q, q ∈ w.slots ↔ q = p ∨ q ∈ xs ++ ys := by
      intro q
      rw [hslots]
      simp only [mem_append, mem_cons]
      tauto
    refine ⟨h.nodup, h.near, ?_, fun q hq => h.sub q ((hmem q).2 (.inr hq)), ?_, ?_⟩
    · show (w.next + 1 - start).toNat ≤ 32768
      omega
    · intro q hq
      rw [hnext]
      rcases h.held q hq with hq | hlt
      · rcases (hmem q).1 hq with rfl | hq
        · rw [hseq]
          exact .inr (Nat.lt_succ_self _)
        · exact .inl hq
      · exact .inr (by omega)
    · intro q hq
      show (w.next + 1 - start).toNat ≤ (q.seq - start).toNat
      have hqs := (hmem q).2 (.inr hq)
      have := h.near_next hqs
      have hpos : w.ahead q.seq ≠ 0 := fun h0 =>
        hd.ne_next hslots hseq hq ((ahead_eq_zero w).1 h0)
      omega
  | gap hdue hfar hgaps =>
    obtain ⟨p, hp, hle⟩ := hfar
    have hnear := h.near p (h.sub p hp)
    have hoff := h.near_next hp
    have hnext := succ_sub_start h.pos
    refine ⟨h.nodup, h.near, ?_, h.sub, ?_, ?_⟩
    · show (w.next + 1 - start).toNat ≤ 32768
      omega
    · intro q hq
      show q ∈ w.slots ∨ (q.seq - start).toNat < (w.next + 1 - start).toNat
      exact (h.held q hq).imp_right fun hlt => by omega
    · intro q hq
      show (w.next + 1 - start).toNat ≤ (q.seq - start).toNat
      have := h.near_next hq
      have hpos : w.ahead q.seq ≠ 0 := fun h0 => hdue ⟨q, hq, (ahead_eq_zero w).1 h0⟩
      omega
  | resync p hdue hp hall hge =>
    have hnear := h.near p (h.sub p hp)
    have hoff := h.near_next hp
    refine ⟨h.nodup, h.near, ?_, h.sub, ?_, ?_⟩
    · show (p.seq - start).toNat ≤ 32768
      omega
    · intro q hq
      show q ∈ w.slots ∨ (q.seq - start).toNat < (p.seq - start).toNat
      exact (h.held q hq).imp_right fun hlt => by omega
    · intro q hq
      show (p.seq - start).toNat ≤ (q.seq - start).toNat
      have := h.near_next hq
      have := hall q hq
      omega

/-- Every gap carries the packet after it, if that is among `all`. -/
def Carried (all : List Packet) (events : List JitterEvent) : Prop :=
  ∀ seq c, .gap seq c ∈ events →
    c = (all.find? fun s => s.seq == seq + 1).map Packet.bytes

theorem Behind.find (h : Behind start all w)
    (hd : w.Draining) : w.find (w.next + 1) = all.find? fun s => s.seq == w.next + 1 := by
  ext p
  rw [JitterWindow.find, find?_seq hd.nodup, find?_seq h.nodup]
  constructor
  · exact fun ⟨hp, hseq⟩ => ⟨h.sub p hp, hseq⟩
  · rintro ⟨hp, hseq⟩
    refine ⟨(h.held p hp).resolve_right fun hlt => ?_, hseq⟩
    rw [hseq, succ_sub_start h.pos] at hlt
    omega

theorem Round.carried (hr : w.Round e w')
    (hd : w.Draining) (h : Behind start all w)
    (hc : Carried all events) : Carried all (events ++ e.toList) := by
  intro seq c hmem
  rcases mem_append.1 hmem with hmem | hmem
  · exact hc seq c hmem
  · cases hr with
    | due | resync => simp at hmem
    | gap hdue hfar hgaps =>
      obtain ⟨rfl, rfl⟩ : seq = w.next ∧ c = (w.find (w.next + 1)).map Packet.bytes := by
        simpa using hmem
      rw [h.find hd]

/-! ## Pushes -/

/-- The window takes packets that fit a datagram. -/
def Fits (data : Option (List UInt8)) : Prop :=
  ∃ bytes, data = some bytes ∧ bytes.length ≠ 0 ∧ bytes.length ≤ jitterMaxPacketBytes

/-- At rest, and empty until the first packet came. -/
structure Ready (w : JitterWindow) : Prop where
  rests : w.Rests
  unprimed : w.primed = false → w.slots = []

/-- What a push can do to a window at rest. -/
inductive Pushes (w : JitterWindow) (seq : UInt16) :
    Option (List UInt8) → JitterWindow → PushResult → Prop
  | rejected {data : Option (List UInt8)} : ¬ Fits data →
      Pushes w seq data w { accept := .rejected }
  | late {bytes : List UInt8} : Fits (some bytes) → w.primed = true → 32768 ≤ w.ahead seq →
      Pushes w seq (some bytes) w { accept := .late }
  | direct {bytes : List UInt8} : Fits (some bytes) → w.slots = [] →
      (w.primed = true → seq = w.next) →
      Pushes w seq (some bytes) { w with primed := true, next := seq + 1, consecutiveGaps := 0 }
        { events := [.packet ⟨seq, bytes⟩] }
  | duplicate {bytes : List UInt8} : Fits (some bytes) → w.primed = true →
      (∃ p ∈ w.slots, p.seq = seq) → Pushes w seq (some bytes) w { accept := .duplicate }
  | held {bytes : List UInt8} : Fits (some bytes) → w.primed = true → w.ahead seq < 32768 →
      (∀ p ∈ w.slots, p.seq ≠ seq) →
      Pushes w seq (some bytes) (drain { w with slots := w.slots ++ [⟨seq, bytes⟩] } []).1
        { events := (drain { w with slots := w.slots ++ [⟨seq, bytes⟩] } []).2 }

theorem Rests.length_le (h : w.Rests) : w.slots.length ≤ 1 := by
  rcases h with ⟨hs, -⟩ | ⟨⟨p, hs, -⟩, -⟩ <;> simp [hs]

theorem push_cases (h : w.Ready) (seq : UInt16) (data : Option (List UInt8)) :
    Pushes w seq data (w.push seq data).1 (w.push seq data).2 := by
  cases data with
  | none => exact .rejected fun ⟨_, hd, _⟩ => nomatch hd
  | some bytes =>
    by_cases hfit : bytes.length = 0 ∨ bytes.length > jitterMaxPacketBytes
    · rw [push, if_pos hfit]
      refine .rejected fun ⟨b, hb, h0, hle⟩ => ?_
      cases hb
      omega
    · have hfits : Fits (some bytes) := ⟨bytes, rfl, by omega, by omega⟩
      rw [push, if_neg hfit]
      cases hprimed : w.primed with
      | false =>
        -- The first packet is the one the window waits for.
        have hs := h.unprimed hprimed
        have hdirect : Pushes w seq (some bytes) _ _ :=
          .direct hfits hs (by rw [hprimed]; exact nofun)
        have hdelta : deltaFromNext { slots := [], primed := true, next := seq } seq = 0 := by
          rw [deltaFromNext_eq, (ahead_eq_zero _).2 rfl]
          rfl
        obtain ⟨slots, primed, next, gaps⟩ := w
        obtain rfl : primed = false := hprimed
        obtain rfl : slots = [] := hs
        simpa [hdelta] using hdirect
      | true =>
        simp only [if_true]
        have hdelta := w.deltaFromNext_eq seq
        split
        next hneg =>
          refine .late hfits hprimed ?_
          rw [hdelta] at hneg
          split at hneg <;> omega
        next hneg =>
          have hnear : w.ahead seq < 32768 := by
            by_contra hge
            rw [hdelta, if_neg hge] at hneg
            have := w.ahead_lt seq
            omega
          rw [hdelta, if_pos hnear]
          split
          next hzero =>
            have hseq : seq = w.next := (ahead_eq_zero w).1 (by omega)
            have hs : w.slots = [] := length_eq_zero_iff.1 hzero.2
            have hdirect : Pushes w seq (some bytes) _ _ := .direct hfits hs fun _ => hseq
            simpa [hseq, hprimed] using hdirect
          · split
            next hdup =>
              obtain ⟨p, hp⟩ := Option.isSome_iff_exists.1 hdup
              exact .duplicate hfits hprimed
                ⟨p, mem_of_find?_eq_some hp, by simpa using find?_some hp⟩
            next hdup =>
              have hfree : w.freeSlot = true := by
                have := h.rests.length_le
                exact decide_eq_true (Nat.lt_succ_of_le this)
              rw [if_pos hfree]
              refine .held hfits hprimed hnear (find_eq_none.1 ?_)
              simpa using hdup

/-- A packet that is taken in leaves the loop ready to run. -/
theorem Ready.draining (h : w.Ready) (hnear : w.ahead p.seq < 32768)
    (hne : ∀ q ∈ w.slots, q.seq ≠ p.seq) :
    Draining { w with slots := w.slots ++ [p] } ∧ Budget { w with slots := w.slots ++ [p] } 0 := by
  have hlen := h.rests.length_le
  have hone : ∀ q ∈ w.slots, w.ahead q.seq = 1 := by
    intro q hq
    rcases h.rests with ⟨hs, -⟩ | ⟨⟨q', hs, hq'⟩, -⟩
    · rw [hs] at hq
      cases hq
    · obtain rfl : q = q' := by simpa [hs] using hq
      exact hq'
  have hgaps : w.consecutiveGaps ≤ 2 := by
    rcases h.rests with ⟨-, hg⟩ | ⟨-, hg⟩ <;> omega
  refine ⟨⟨fun q hq => ?_, ?_, hgaps, fun hs => ?_, fun h0 => ?_⟩, .inl ?_⟩
  · show w.ahead q.seq < 32768
    rcases mem_append.1 hq with hq | hq
    · rw [hone q hq]
      decide
    · obtain rfl : q = p := by simpa using hq
      exact hnear
  · rw [map_append, nodup_append]
    refine ⟨?_, nodup_singleton _, fun a ha b hb => ?_⟩
    · match hs : w.slots with
      | [] => exact nodup_nil
      | [q] => exact nodup_singleton _
      | _ :: _ :: _ =>
        rw [hs] at hlen
        exact absurd hlen (by simp)
    · obtain ⟨q, hq, rfl⟩ := mem_map.1 ha
      obtain rfl : b = p.seq := by simpa using hb
      exact hne q hq
  · simp at hs
  · rcases h.rests with ⟨-, hg⟩ | ⟨⟨q, hs, hq⟩, -⟩
    · exact absurd hg h0
    · refine ⟨q, by simp [hs], ?_⟩
      show w.ahead q.seq + w.consecutiveGaps < 32768
      omega
  · rw [length_append, length_singleton]
    omega

theorem Rests.not_due (h : w.Rests) : ¬ w.Due := by
  rintro ⟨p, hp, hseq⟩
  rcases h with ⟨hs, -⟩ | ⟨⟨q, hs, hq⟩, -⟩
  · rw [hs] at hp
    cases hp
  · obtain rfl : p = q := by simpa [hs] using hp
    rw [(ahead_eq_zero w).2 hseq] at hq
    cases hq

end JitterWindow

/-! ## Runs -/

open JitterWindow

inductive JitterCall
  | push (seq : UInt16) (data : Option (List UInt8))
  | reset

/-- A window with what came of the calls so far. -/
structure JitterRun where
  window : JitterWindow := {}
  /-- The events since the last reset. -/
  stretch : List JitterEvent := []
  events : List JitterEvent := []
  /-- The packets answered `Ok`. -/
  taken : List Packet := []
  /-- The packets that a reset found in the slots. -/
  discarded : List Packet := []

namespace JitterRun

def step (r : JitterRun) : JitterCall → JitterRun
  | .push seq data =>
    let (w, result) := r.window.push seq data
    { r with window := w, stretch := r.stretch ++ result.events, events := r.events ++ result.events
             taken := if result.accept = .ok then r.taken ++ [⟨seq, data.getD []⟩] else r.taken }
  | .reset =>
    { r with window := r.window.reset, stretch := []
             discarded := r.discarded ++ r.window.slots }

def run (calls : List JitterCall) : JitterRun := calls.foldl step {}

structure Inv (r : JitterRun) : Prop where
  ready : r.window.Ready
  advances : r.window.Advances r.stretch
  fresh : r.window.primed = false → r.stretch = []
  concealed : ∀ before, before <+: r.events → gapRun before ≤ 2
  gaps : r.window.primed = true → gapRun r.events ≤ r.window.consecutiveGaps
  account : r.taken.Perm (packetsOf r.events ++ r.window.slots ++ r.discarded)

/-- What a push that is taken in adds to a run. -/
structure Adds (r : JitterRun) (p : Packet) (w : JitterWindow) (events : List JitterEvent) :
    Prop where
  primed : w.primed = true
  advances : w.Advances (r.stretch ++ events)
  concealed : w.Concealed (r.events ++ events)
  account : (packetsOf events ++ w.slots).Perm (r.window.slots ++ [p])

variable {r : JitterRun}

theorem Inv.taken (h : r.Inv) {p : Packet} {w : JitterWindow}
    {events : List JitterEvent} (ha : r.Adds p w events) (hw : w.Rests) :
    Inv { r with window := w, stretch := r.stretch ++ events, events := r.events ++ events
                 taken := r.taken ++ [p] } where
  ready := ⟨hw, fun h0 => absurd (ha.primed.symm.trans h0) (by decide)⟩
  advances := ha.advances
  fresh h0 := absurd (ha.primed.symm.trans h0) (by decide)
  concealed := ha.concealed.1
  gaps _ := ha.concealed.2.resolve_right hw.not_due
  account := by
    have hsplit : packetsOf (r.events ++ events) = packetsOf r.events ++ packetsOf events :=
      filterMap_append
    calc List.Perm (r.taken ++ [p]) (packetsOf r.events ++ r.window.slots ++ r.discarded ++ [p]) :=
          h.account.append_right [p]
      List.Perm _ (packetsOf r.events ++ (r.window.slots ++ [p] ++ r.discarded)) := by
          rw [append_assoc, append_assoc, append_assoc]
          exact (List.perm_append_comm.append_left _).append_left _
      List.Perm _ (packetsOf r.events ++ (packetsOf events ++ w.slots ++ r.discarded)) :=
          (ha.account.symm.append_right _).append_left _
      _ = packetsOf (r.events ++ events) ++ w.slots ++ r.discarded := by
          rw [hsplit, append_assoc, append_assoc, append_assoc]

/-- A packet the window waits for goes out at once. -/
theorem Inv.direct (h : r.Inv) {seq : UInt16} {bytes : List UInt8}
    (hseq : r.window.primed = true → seq = r.window.next) :
    r.Adds ⟨seq, bytes⟩ { r.window with primed := true, next := seq + 1, consecutiveGaps := 0 }
      [.packet ⟨seq, bytes⟩] where
  primed := rfl
  advances := by
    cases hp : r.window.primed with
    | true => exact h.advances.append (hseq hp) (by rw [hseq hp])
    | false =>
      rw [h.fresh hp]
      refine ⟨isChain_singleton _, fun e he => .inl ?_⟩
      obtain rfl : JitterEvent.packet ⟨seq, bytes⟩ = e := by simpa using he
      exact succ_sub_toNat seq
  concealed := by
    have hrun := gapRun_packet r.events ⟨seq, bytes⟩
    refine ⟨fun before hb => ?_, .inl (by omega)⟩
    rcases prefix_concat_iff.1 hb with rfl | hb
    · omega
    · exact h.concealed before hb
  account := by
    exact perm_append_comm

/-- A packet that is held is drained as far as the window allows. -/
theorem Inv.held (h : r.Inv) {p : Packet} (hp : r.window.primed = true)
    (hnear : r.window.ahead p.seq < 32768) (hne : ∀ q ∈ r.window.slots, q.seq ≠ p.seq) :
    let d := drain { r.window with slots := r.window.slots ++ [p] } []
    r.Adds p d.1 d.2 ∧ d.1.Rests ∧ d.2.length ≤ jitterMaxEventsPerPush ∧
      Carried (r.window.slots ++ [p]) d.2 := by
  obtain ⟨hdraining, hbudget⟩ := h.ready.draining hnear hne
  have hbehind : Behind r.window.next (r.window.slots ++ [p])
      { r.window with slots := r.window.slots ++ [p] } := by
    refine ⟨hdraining.nodup, fun q hq => Nat.le_of_lt_succ (hdraining.near q hq), ?_, fun _ h => h,
      fun _ h => .inl h, fun q _ => ?_⟩
    · rw [UInt16.sub_self]
      decide
    · rw [UInt16.sub_self]
      exact Nat.zero_le _
  have hstart : r.Adds p { r.window with slots := r.window.slots ++ [p] } [] := by
    refine ⟨hp, ⟨?_, ?_⟩, ⟨?_, ?_⟩, .refl _⟩
    · rw [append_nil]
      exact h.advances.chain
    · rw [append_nil]
      exact h.advances.link
    · rw [append_nil]
      exact h.concealed
    · rw [append_nil]
      exact .inl (h.gaps hp)
  have hround : ∀ w e w' events, w.Draining → w.Round e w' →
      (r.Adds p w events ∧ Behind r.window.next (r.window.slots ++ [p]) w ∧
        Carried (r.window.slots ++ [p]) events) →
      r.Adds p w' (events ++ e.toList) ∧ Behind r.window.next (r.window.slots ++ [p]) w' ∧
        Carried (r.window.slots ++ [p]) (events ++ e.toList) := by
    rintro w e w' events hd hr ⟨ha, hb, hc⟩
    refine ⟨⟨?_, ?_, ?_, ?_⟩, hr.behind hd hb, hr.carried hd hb hc⟩
    · cases hr <;> exact ha.primed
    · rw [← append_assoc]
      exact hr.advances hd ha.advances
    · rw [← append_assoc]
      exact hr.concealed ha.concealed
    · exact (hr.perm events).trans ha.account
  obtain ⟨-, hrests, hlen, hadds, -, hcarried⟩ :=
    drain_rule hround [] hdraining hbudget ⟨hstart, hbehind, nofun⟩
  exact ⟨hadds, hrests, hlen, hcarried⟩

/-- What one push of a reachable window answers. -/
structure Answers (w : JitterWindow) (seq : UInt16) (data : Option (List UInt8))
    (result : PushResult) : Prop where
  /-- A free slot is always found. -/
  rejected : result.accept = .rejected ↔ ¬ Fits data
  count : result.events.length ≤ jitterMaxEventsPerPush
  carried : Carried (w.slots ++ [⟨seq, data.getD []⟩]) result.events

theorem Inv.push (h : r.Inv) (seq : UInt16) (data : Option (List UInt8)) :
    (r.step (.push seq data)).Inv ∧ Answers r.window seq data (r.window.push seq data).2 := by
  have hcases := push_cases h.ready seq data
  rw [step]
  generalize hw : (r.window.push seq data).1 = w at hcases
  generalize hres : (r.window.push seq data).2 = result at hcases
  have hpair : r.window.push seq data = (w, result) := Prod.ext hw hres
  rw [hpair]
  cases hcases with
  | rejected hfit =>
    refine ⟨?_, ⟨⟨fun _ => hfit, fun _ => rfl⟩, Nat.zero_le _, nofun⟩⟩
    simpa using h
  | late hfit | duplicate hfit =>
    refine ⟨?_, ⟨⟨nofun, fun hn => absurd hfit hn⟩, Nat.zero_le _, nofun⟩⟩
    simpa using h
  | direct hfit hs hseq =>
    refine ⟨h.taken (h.direct hseq) (.inl ⟨hs, rfl⟩), ⟨⟨nofun, fun hn => absurd hfit hn⟩, ?_, ?_⟩⟩
    · exact (by decide : 1 ≤ jitterMaxEventsPerPush)
    · exact fun _ _ hmem => by simp at hmem
  | held hfit hp hnear hne =>
    obtain ⟨ha, hrests, hlen, hcarried⟩ := h.held (p := ⟨seq, _⟩) hp hnear hne
    exact ⟨h.taken ha hrests, ⟨nofun, fun hn => absurd hfit hn⟩, hlen, hcarried⟩

theorem Inv.reset (h : r.Inv) : (r.step .reset).Inv where
  ready := ⟨.inl ⟨rfl, rfl⟩, fun _ => rfl⟩
  advances := ⟨isChain_nil, nofun⟩
  fresh _ := rfl
  concealed := h.concealed
  gaps := nofun
  account := by
    show r.taken.Perm (packetsOf r.events ++ [] ++ (r.discarded ++ r.window.slots))
    refine h.account.trans ?_
    rw [append_nil, append_assoc]
    exact List.perm_append_comm.append_left _

theorem run_inv (calls : List JitterCall) : (run calls).Inv := by
  induction calls using List.reverseRecOn with
  | nil =>
    refine ⟨⟨.inl ⟨rfl, rfl⟩, fun _ => rfl⟩, ⟨isChain_nil, nofun⟩, fun _ => rfl, ?_, nofun,
      .refl _⟩
    intro before hb
    rw [prefix_nil.1 hb]
    exact Nat.zero_le _
  | append_singleton calls c ih =>
    rw [run, foldl_append]
    cases c with
    | push seq data => exact (ih.push seq data).1
    | reset => exact ih.reset

end JitterRun

/-- The window over every sequence of calls: the numbers of the events advance between two
resets; each packet answered `Ok` comes out once with its bytes, is held, or was held when
the window was reset, and no other packet comes out; never three gaps in a row; at rest at
most one packet is held, one ahead; every packet that fits finds a slot; and a push yields
at most six events, whose gaps carry the packet after them when the window has it. -/
theorem jitter_window_correct (calls : List JitterCall) :
    let r := JitterRun.run calls
    r.stretch.IsChain Follows ∧
      r.taken.Perm (packetsOf r.events ++ r.window.slots ++ r.discarded) ∧
      (∀ before, before <+: r.events → gapRun before ≤ 2) ∧
      (r.window.slots = [] ∨ ∃ p, r.window.slots = [p] ∧ p.seq = r.window.next + 1) ∧
      ∀ seq data, JitterRun.Answers r.window seq data (r.window.push seq data).2 := by
  intro r
  have h : r.Inv := JitterRun.run_inv calls
  refine ⟨h.advances.chain, h.account, h.concealed, ?_, fun seq data => (h.push seq data).2⟩
  rcases h.ready.rests with ⟨hs, -⟩ | ⟨⟨p, hs, hone⟩, -⟩
  · exact .inl hs
  · refine .inr ⟨p, hs, UInt16.toNat_inj.1 ?_⟩
    have := p.seq.toNat_lt
    have := r.window.next.toNat_lt
    rw [ahead, UInt16.toNat_sub] at hone
    rw [UInt16.toNat_add, UInt16.toNat_one]
    omega

/-- A packet answered `Ok` and still held is lost to a reset. -/
theorem held_packet_lost_to_reset :
    let r := JitterRun.run [.push 10 (some [1]), .push 12 (some [2]), .reset]
    ⟨12, [2]⟩ ∈ r.taken ∧ ⟨12, [2]⟩ ∉ packetsOf r.events ∧ ⟨12, [2]⟩ ∉ r.window.slots := by
  decide +kernel

end Satellite.Audio
