import Mathlib.Data.List.Nodup

/-!
# The operator PIN

The rotation state machine of `net/pin_rotation.cpp`. Nothing happens between two
calls: a call first rotates the PINs if that is due and then reads or compares
them. The clock is read once per call, and every PIN a call may draw is one of its
arguments. Histories list their calls with the latest one first.
-/

namespace Satellite.Pairing

open Option

/-- Four decimal digits, as `randomDigits(4)` draws them. -/
abbrev Pin := { digits : String // digits.length = 4 ∧ digits.toList.all Char.isDigit = true }

def pinMaxFails : Nat := 5

/-- `PIN_ROTATE_PERIOD` in nanoseconds. -/
def pinRotatePeriod : Nat := 5 * 60 * 1000000000

/-- `PIN_PAIRED_HOLD_SEC` in nanoseconds. -/
def pinPairedHold : Nat := 5 * 1000000000

/-- The state behind `g_pinMtx`; an empty PIN is `none`. -/
structure Pins where
  currentPin : Option Pin := none
  previousPin : Option Pin := none
  rotateAt : Nat := 0
  pairedAt : Nat := 0
  pairedValid : Bool := false
  failCount : Nat := 0
  deriving DecidableEq

namespace Pins

def resetPinsLocked (s : Pins) (now : Nat) (drawn : Pin) : Pins :=
  { s with currentPin := some drawn, previousPin := none
           rotateAt := now + pinRotatePeriod, failCount := 0 }

/-- The outgoing PIN stays as the previous one unless the rotation is a whole period late. -/
def rotatePinsIfDueLocked (s : Pins) (now : Nat) (drawn : Pin) : Pins :=
  if s.currentPin = none then s.resetPinsLocked now drawn
  else if now < s.rotateAt then s
  else
    { s with previousPin := if now - s.rotateAt < pinRotatePeriod then s.currentPin else none
             currentPin := some drawn, rotateAt := now + pinRotatePeriod, failCount := 0 }

/-- The guess is the current or the previous PIN. -/
def accepts (s : Pins) (guess : String) : Bool :=
  s.currentPin.any (fun p => guess == p.val) || s.previousPin.any (fun p => guess == p.val)

def verifyPin (s : Pins) (now : Nat) (rotated burnt : Pin) (guess : String) : Bool × Pins :=
  let s := s.rotatePinsIfDueLocked now rotated
  if s.accepts guess then
    (true, { s.resetPinsLocked now burnt with pairedAt := now, pairedValid := true })
  else
    let s := { s with failCount := s.failCount + 1 }
    (false, if s.failCount ≥ pinMaxFails then s.resetPinsLocked now burnt else s)

inductive PinState
  | pinActive
  | pinPaired
  deriving DecidableEq

structure PinSnapshot where
  state : PinState
  currentPin : Option Pin
  previousPin : Option Pin
  secondsRemaining : Nat

def pinSnapshot (s : Pins) (now : Nat) (rotated : Pin) : PinSnapshot × Pins :=
  let s := s.rotatePinsIfDueLocked now rotated
  ({ state := if s.pairedValid ∧ now - s.pairedAt ≤ pinPairedHold then .pinPaired else .pinActive
     currentPin := s.currentPin, previousPin := s.previousPin
     secondsRemaining := (s.rotateAt - now) / 1000000000 }, s)

end Pins

/-! ## Calls and histories -/

/-- One call, its time, and the PINs it draws if it rotates or burns the old ones. -/
structure PinCall where
  /-- The guess of a `verifyPin`; nothing for a `pinSnapshot`. -/
  guess : Option String
  now : Nat
  rotated : Pin
  burnt : Pin

namespace Pins

/-- The PINs as a call compares or reads them. -/
def due (s : Pins) (c : PinCall) : Pins := s.rotatePinsIfDueLocked c.now c.rotated

def call (s : Pins) (c : PinCall) : Pins :=
  match c.guess with
  | some guess => (s.verifyPin c.now c.rotated c.burnt guess).2
  | none => (s.pinSnapshot c.now c.rotated).2

/-- The call is a `verifyPin` that returns true. -/
def Accepted (s : Pins) (c : PinCall) : Prop := c.guess.any (s.due c).accepts = true

/-- The call is a `verifyPin` that returns false. -/
def Refused (s : Pins) (c : PinCall) : Prop := c.guess.any (fun g => !(s.due c).accepts g) = true

/-- The call draws a PIN in rotating. -/
def Rotates (s : Pins) (c : PinCall) : Prop := s.currentPin = none ∨ s.rotateAt ≤ c.now

/-- The call rotates and keeps the outgoing PIN as the previous one. -/
def Keeps (s : Pins) (c : PinCall) : Prop :=
  s.currentPin ≠ none ∧ s.rotateAt ≤ c.now ∧ c.now - s.rotateAt < pinRotatePeriod

/-- The call draws a PIN in burning the old ones: on success or on one wrong guess too many. -/
def Burns (s : Pins) (c : PinCall) : Prop :=
  s.Accepted c ∨ s.Refused c ∧ pinMaxFails ≤ (s.due c).failCount + 1

instance (s : Pins) (c : PinCall) : Decidable (s.Accepted c) :=
  inferInstanceAs (Decidable (_ = _))

instance (s : Pins) (c : PinCall) : Decidable (s.Refused c) :=
  inferInstanceAs (Decidable (_ = _))

instance (s : Pins) (c : PinCall) : Decidable (s.Rotates c) :=
  inferInstanceAs (Decidable (_ ∨ _))

instance (s : Pins) (c : PinCall) : Decidable (s.Keeps c) := inferInstanceAs (Decidable (_ ∧ _))

instance (s : Pins) (c : PinCall) : Decidable (s.Burns c) := inferInstanceAs (Decidable (_ ∨ _))

/-- The PIN is acceptable: it is the current or the previous one. -/
def Acceptable (s : Pins) (p : Pin) : Prop := s.currentPin = some p ∨ s.previousPin = some p

instance (s : Pins) (p : Pin) : Decidable (s.Acceptable p) := inferInstanceAs (Decidable (_ ∨ _))

end Pins

open Pins

/-- The state after a history. -/
def pinsAfter : List PinCall → Pins
  | [] => {}
  | c :: h => (pinsAfter h).call c

/-- The PINs a call draws, the latest first. -/
def drawn (s : Pins) (c : PinCall) : List Pin :=
  (if s.Burns c then [c.burnt] else []) ++ if s.Rotates c then [c.rotated] else []

/-- Every PIN drawn in a history with the time of its call, the latest first. -/
def births : List PinCall → List (Pin × Nat)
  | [] => []
  | c :: h => (drawn (pinsAfter h) c).map (·, c.now) ++ births h

/-- No PIN is drawn twice. -/
def NeverRepeats (h : List PinCall) : Prop := ((births h).map Prod.fst).Nodup

/-- The wrong guesses made while the PIN was acceptable. -/
def wrongGuesses (p : Pin) : List PinCall → Nat
  | [] => 0
  | c :: h => wrongGuesses p h +
      if (pinsAfter h).Refused c ∧ ((pinsAfter h).due c).Acceptable p then 1 else 0

/-- The calls of a history come at non-decreasing times. -/
def Timed (h : List PinCall) : Prop := h.Pairwise fun later earlier => earlier.now ≤ later.now

/-- Every call of a history satisfies `P` in the state it finds. -/
def EachCall (P : Pins → PinCall → Prop) : List PinCall → Prop
  | [] => True
  | c :: h => P (pinsAfter h) c ∧ EachCall P h

instance (h : List PinCall) : Decidable (NeverRepeats h) := inferInstanceAs (Decidable (List.Nodup _))

instance (h : List PinCall) : Decidable (Timed h) := inferInstanceAs (Decidable (List.Pairwise _ _))

instance instDecidableEachCall (P : Pins → PinCall → Prop) [∀ s c, Decidable (P s c)] :
    (h : List PinCall) → Decidable (EachCall P h)
  | [] => .isTrue trivial
  | _ :: h =>
    have := instDecidableEachCall P h
    inferInstanceAs (Decidable (_ ∧ _))

/-! ## What a call does -/

namespace Pins

variable {s : Pins} {c : PinCall} {p : Pin}

theorem due_of_not_rotates (h : ¬ s.Rotates c) : s.due c = s := by
  rw [Rotates, not_or, Nat.not_le] at h
  rw [due, rotatePinsIfDueLocked, if_neg h.1, if_pos h.2]

theorem due_of_rotates (h : s.Rotates c) :
    (s.due c).currentPin = some c.rotated ∧ (s.due c).failCount = 0 ∧
      (s.due c).rotateAt = c.now + pinRotatePeriod := by
  rw [due, rotatePinsIfDueLocked]
  by_cases hnone : s.currentPin = none
  · simp [hnone, resetPinsLocked]
  · have hdue : ¬ c.now < s.rotateAt := Nat.not_lt.2 (h.resolve_left hnone)
    simp [hnone, hdue]

/-- The previous PIN after a rotation is the one that was current when it was kept. -/
theorem previousPin_due (h : s.Rotates c) (hp : (s.due c).previousPin = some p) :
    s.Keeps c ∧ s.currentPin = some p := by
  rw [due, rotatePinsIfDueLocked] at hp
  by_cases hnone : s.currentPin = none
  · simp [hnone, resetPinsLocked] at hp
  · have hdue := h.resolve_left hnone
    rw [if_neg hnone, if_neg (Nat.not_lt.2 hdue)] at hp
    by_cases hkept : c.now - s.rotateAt < pinRotatePeriod
    · rw [if_pos hkept] at hp
      exact ⟨⟨hnone, hdue, hkept⟩, hp⟩
    · simp [hkept] at hp

theorem now_lt_rotateAt_due : c.now < (s.due c).rotateAt := by
  by_cases h : s.Rotates c
  · rw [(due_of_rotates h).2.2, pinRotatePeriod]
    omega
  · rw [due_of_not_rotates h]
    rw [Rotates, not_or, Nat.not_le] at h
    exact h.2

theorem accepts_iff {guess : String} :
    s.accepts guess = true ↔ ∃ p, s.Acceptable p ∧ guess = p.val := by
  rw [accepts, Bool.or_eq_true, any_eq_true, any_eq_true]
  constructor
  · rintro (⟨p, hp, hg⟩ | ⟨p, hp, hg⟩)
    · exact ⟨p, .inl hp, by simpa using hg⟩
    · exact ⟨p, .inr hp, by simpa using hg⟩
  · rintro ⟨p, hp | hp, hg⟩
    · exact .inl ⟨p, hp, by simpa using hg⟩
    · exact .inr ⟨p, hp, by simpa using hg⟩

/-- A guess is accepted exactly when it is one of the PINs acceptable after the rotation. -/
theorem accepted_iff (hg : c.guess = some p.val) : s.Accepted c ↔ (s.due c).Acceptable p := by
  rw [Accepted, hg, any_some, accepts_iff]
  constructor
  · rintro ⟨q, hq, hval⟩
    rwa [Subtype.ext hval]
  · intro hp
    exact ⟨p, hp, rfl⟩

/-- The three ways a call ends: both PINs burnt, one more wrong guess, or nothing more. -/
theorem call_cases (s : Pins) (c : PinCall) :
    (s.Burns c ∧ (s.call c).currentPin = some c.burnt ∧ (s.call c).previousPin = none ∧
      (s.call c).failCount = 0 ∧ (s.call c).rotateAt = c.now + pinRotatePeriod) ∨
    (¬ s.Burns c ∧ s.Refused c ∧ (s.due c).failCount + 1 < pinMaxFails ∧
      s.call c = { s.due c with failCount := (s.due c).failCount + 1 }) ∨
    (¬ s.Burns c ∧ ¬ s.Refused c ∧ s.call c = s.due c) := by
  cases hg : c.guess with
  | none =>
    refine .inr (.inr ⟨?_, ?_, ?_⟩)
    · simp [Burns, Accepted, Refused, hg]
    · simp [Refused, hg]
    · simp [call, hg, pinSnapshot, due]
  | some g =>
    cases hok : (s.due c).accepts g with
    | true =>
      have hacc : s.Accepted c := by simp [Accepted, hg, hok]
      have hcall : s.call c =
          { (s.due c).resetPinsLocked c.now c.burnt with pairedAt := c.now, pairedValid := true } := by
        simp only [call, hg, verifyPin]
        rw [if_pos (by exact hok)]
        rfl
      rw [hcall]
      exact .inl ⟨.inl hacc, rfl, rfl, rfl, rfl⟩
    | false =>
      have hnot : ¬ s.Accepted c := by simp [Accepted, hg, hok]
      have href : s.Refused c := by simp [Refused, hg, hok]
      have hcall : s.call c =
          if pinMaxFails ≤ (s.due c).failCount + 1 then
            ({ s.due c with failCount := (s.due c).failCount + 1 } : Pins).resetPinsLocked c.now c.burnt
          else { s.due c with failCount := (s.due c).failCount + 1 } := by
        simp only [call, hg, verifyPin]
        rw [if_neg (by exact Bool.eq_false_iff.1 hok)]
        rfl
      by_cases hmax : pinMaxFails ≤ (s.due c).failCount + 1
      · rw [hcall, if_pos hmax]
        exact .inl ⟨.inr ⟨href, hmax⟩, rfl, rfl, rfl, rfl⟩
      · have hburn : ¬ s.Burns c := by
          rintro (h | h)
          · exact hnot h
          · exact hmax h.2
        rw [hcall, if_neg hmax]
        exact .inr (.inl ⟨hburn, href, Nat.not_le.1 hmax, rfl⟩)

end Pins

/-! ## Draws -/

variable {c : PinCall} {h : List PinCall}

theorem mem_drawn {s : Pins} {p : Pin} :
    p ∈ drawn s c ↔ s.Burns c ∧ p = c.burnt ∨ s.Rotates c ∧ p = c.rotated := by
  rw [drawn, List.mem_append]
  by_cases hb : s.Burns c <;> by_cases hr : s.Rotates c <;> simp [hb, hr]

theorem mem_births_cons {p : Pin} {t : Nat} :
    (p, t) ∈ births (c :: h) ↔
      ((p, t) ∈ births h ∨ (pinsAfter h).Rotates c ∧ p = c.rotated ∧ t = c.now) ∨
        (pinsAfter h).Burns c ∧ p = c.burnt ∧ t = c.now := by
  have hnow : (p, t) ∈ (drawn (pinsAfter h) c).map (·, c.now) ↔
      p ∈ drawn (pinsAfter h) c ∧ t = c.now := by
    rw [List.mem_map]
    constructor
    · rintro ⟨q, hq, heq⟩
      cases heq
      exact ⟨hq, rfl⟩
    · rintro ⟨hp, rfl⟩
      exact ⟨p, hp, rfl⟩
  rw [births, List.mem_append, hnow, mem_drawn]
  tauto

/-- The PIN has been drawn. -/
def Known (h : List PinCall) (p : Pin) : Prop := ∃ t, (p, t) ∈ births h

theorem known_iff {p : Pin} : Known h p ↔ p ∈ (births h).map Prod.fst := by
  simp [Known]

theorem known_cons {p : Pin} :
    Known (c :: h) p ↔ (Known h p ∨ (pinsAfter h).Rotates c ∧ p = c.rotated) ∨
      (pinsAfter h).Burns c ∧ p = c.burnt := by
  simp only [Known, mem_births_cons, exists_or]
  simp

namespace NeverRepeats

/-- The latest call's draws are new: neither an earlier draw nor each other. -/
theorem cons (hn : NeverRepeats (c :: h)) :
    (drawn (pinsAfter h) c).Nodup ∧ (∀ p ∈ drawn (pinsAfter h) c, ¬ Known h p) ∧
      NeverRepeats h := by
  rw [NeverRepeats, births, List.map_append, List.map_map] at hn
  have hfst : List.map (Prod.fst ∘ fun p : Pin => (p, c.now)) (drawn (pinsAfter h) c) =
      drawn (pinsAfter h) c := List.map_id' _
  rw [hfst, List.nodup_append] at hn
  exact ⟨hn.1, fun p hp hold => hn.2.2 p hp p (known_iff.1 hold) rfl, hn.2.1⟩

theorem earlier (hn : NeverRepeats (c :: h)) : NeverRepeats h := hn.cons.2.2

theorem rotated (hn : NeverRepeats (c :: h)) (hr : (pinsAfter h).Rotates c) :
    ¬ Known h c.rotated :=
  hn.cons.2.1 _ (mem_drawn.2 (.inr ⟨hr, rfl⟩))

theorem burnt (hn : NeverRepeats (c :: h)) (hb : (pinsAfter h).Burns c) :
    ¬ (Known h c.burnt ∨ (pinsAfter h).Rotates c ∧ c.burnt = c.rotated) := by
  obtain ⟨hnodup, hnew, -⟩ := hn.cons
  rintro (hold | ⟨hr, heq⟩)
  · exact hnew _ (mem_drawn.2 (.inl ⟨hb, rfl⟩)) hold
  · rw [drawn, if_pos hb, if_pos hr, heq] at hnodup
    simp at hnodup

end NeverRepeats

/-! ## Wrong guesses

`w` counts the wrong guesses a PIN has outlived and `known` says which PINs have
been drawn. A kept PIN carries at most `k` of them over a rotation, where the
counter starts again at zero. -/

structure Guarded (k : Nat) (s : Pins) (known : Pin → Prop) (w : Pin → Nat) : Prop where
  drawn : ∀ p, s.Acceptable p → known p
  current : ∀ p, s.currentPin = some p → w p ≤ s.failCount
  previous : ∀ p, s.previousPin = some p → w p ≤ k + s.failCount
  few : s.failCount < pinMaxFails
  total : ∀ p, w p ≤ pinMaxFails + k
  unknown : ∀ p, ¬ known p → w p = 0

namespace Guarded

variable {k : Nat} {s : Pins} {c : PinCall} {known : Pin → Prop} {w : Pin → Nat}

theorem acceptable (h : Guarded k s known w) {p : Pin} (hp : s.Acceptable p) :
    w p ≤ k + s.failCount := by
  rcases hp with hp | hp
  · have hcur := h.current p hp
    omega
  · exact h.previous p hp

/-- A rotation starts the counter again; the PIN it keeps has outlived at most `k` guesses. -/
theorem due (h : Guarded k s known w) (hnew : s.Rotates c → ¬ known c.rotated)
    (hkeep : s.Keeps c → s.failCount ≤ k) :
    Guarded k (s.due c) (fun p => known p ∨ s.Rotates c ∧ p = c.rotated) w := by
  by_cases hr : s.Rotates c
  · obtain ⟨hcur, hfail, -⟩ := due_of_rotates hr
    have hfresh : w c.rotated = 0 := h.unknown _ (hnew hr)
    constructor
    · rintro p (hp | hp)
      · rw [hcur, some_inj] at hp
        exact .inr ⟨hr, hp.symm⟩
      · exact .inl (h.drawn p (.inl (previousPin_due hr hp).2))
    · intro p hp
      rw [hcur, some_inj] at hp
      rw [← hp, hfresh]
      exact Nat.zero_le _
    · intro p hp
      obtain ⟨hk, hp⟩ := previousPin_due hr hp
      have hcurrent := h.current p hp
      have hk := hkeep hk
      omega
    · rw [hfail, pinMaxFails]
      omega
    · exact h.total
    · intro p hp
      exact h.unknown p fun hold => hp (.inl hold)
  · rw [due_of_not_rotates hr]
    exact ⟨fun p hp => .inl (h.drawn p hp), h.current, h.previous, h.few, h.total,
      fun p hp => h.unknown p fun hold => hp (.inl hold)⟩

/-- The comparison: a wrong guess counts against both PINs, and the fifth one burns them. -/
theorem call (h : Guarded k (s.due c) known w) (hnew : s.Burns c → ¬ known c.burnt) :
    Guarded k (s.call c) (fun p => known p ∨ s.Burns c ∧ p = c.burnt) fun p =>
      w p + if s.Refused c ∧ (s.due c).Acceptable p then 1 else 0 := by
  have hcount : ∀ p, (w p + if s.Refused c ∧ (s.due c).Acceptable p then 1 else 0) ≤
      pinMaxFails + k := by
    intro p
    split
    case isTrue hp =>
      have hw := h.acceptable hp.2
      have hfew := h.few
      omega
    case isFalse => exact h.total p
  have hunknown : ∀ p, ¬ known p →
      (w p + if s.Refused c ∧ (s.due c).Acceptable p then 1 else 0) = 0 := by
    intro p hp
    have hnot : ¬ (s.Refused c ∧ (s.due c).Acceptable p) := fun hacc => hp (h.drawn p hacc.2)
    rw [if_neg hnot, h.unknown p hp]
  obtain ⟨hburn, hcur, hprev, hfail, -⟩ | ⟨-, href, hfew, hcall⟩ | ⟨-, href, hcall⟩ := call_cases s c
  · constructor
    · rintro p (hp | hp)
      · rw [hcur, some_inj] at hp
        exact .inr ⟨hburn, hp.symm⟩
      · simp [hprev] at hp
    · intro p hp
      rw [hcur, some_inj] at hp
      rw [← hp, hunknown _ (hnew hburn)]
      exact Nat.zero_le _
    · intro p hp
      simp [hprev] at hp
    · rw [hfail, pinMaxFails]
      omega
    · exact hcount
    · exact fun p hp => hunknown p fun hold => hp (.inl hold)
  · rw [hcall]
    constructor
    · exact fun p hp => .inl (h.drawn p hp)
    · intro p hp
      have hw := h.current p hp
      rw [if_pos ⟨href, .inl hp⟩]
      exact Nat.succ_le_succ hw
    · intro p hp
      have hw := h.previous p hp
      rw [if_pos ⟨href, .inr hp⟩]
      exact Nat.succ_le_succ hw
    · exact hfew
    · exact hcount
    · exact fun p hp => hunknown p fun hold => hp (.inl hold)
  · have hsame : ∀ p, (w p + if s.Refused c ∧ (s.due c).Acceptable p then 1 else 0) = w p := by
      intro p
      rw [if_neg fun hp => href hp.1, Nat.add_zero]
    simp only [hsame]
    rw [hcall]
    exact ⟨fun p hp => .inl (h.drawn p hp), h.current, h.previous, h.few, h.total,
      fun p hp => h.unknown p fun hold => hp (.inl hold)⟩

end Guarded

theorem guarded_after {k : Nat} (hn : NeverRepeats h)
    (hkeep : EachCall (fun s c => s.Keeps c → s.failCount ≤ k) h) :
    Guarded k (pinsAfter h) (Known h) (wrongGuesses · h) := by
  -- One call at a time: the rotation first, then the comparison.
  induction h with
  | nil =>
    constructor
    · rintro p (hp | hp) <;> cases hp
    · intro p hp
      cases hp
    · intro p hp
      cases hp
    · exact Nat.zero_lt_succ 4
    · exact fun p => Nat.zero_le _
    · exact fun p _ => rfl
  | cons c h ih =>
    have hrot := (ih hn.earlier hkeep.2).due hn.rotated hkeep.1
    have hknown : Known (c :: h) = fun p => (Known h p ∨ (pinsAfter h).Rotates c ∧ p = c.rotated) ∨
        (pinsAfter h).Burns c ∧ p = c.burnt := by
      funext p
      exact propext known_cons
    rw [hknown]
    exact hrot.call hn.burnt

/-- No call leaves the counter at its limit. -/
theorem failCount_lt (h : List PinCall) : (pinsAfter h).failCount < pinMaxFails := by
  induction h with
  | nil => exact Nat.zero_lt_succ 4
  | cons c h ih =>
    have hdue : ((pinsAfter h).due c).failCount < pinMaxFails := by
      by_cases hr : (pinsAfter h).Rotates c
      · rw [(due_of_rotates hr).2.1, pinMaxFails]
        omega
      · rwa [due_of_not_rotates hr]
    change ((pinsAfter h).call c).failCount < pinMaxFails
    obtain ⟨-, -, -, hfail, -⟩ | ⟨-, -, hfew, hcall⟩ | ⟨-, -, hcall⟩ := call_cases (pinsAfter h) c
    · rw [hfail, pinMaxFails]
      omega
    · rw [hcall]
      exact hfew
    · rw [hcall]
      exact hdue

theorem EachCall.mono {P Q : Pins → PinCall → Prop} (himp : ∀ s c, P s c → Q s c)
    (hP : EachCall P h) : EachCall Q h := by
  induction h with
  | nil => trivial
  | cons c h ih => exact ⟨himp _ c hP.1, ih hP.2⟩

theorem eachCall_of_forall {P : Pins → PinCall → Prop} (hP : ∀ h c, P (pinsAfter h) c)
    (h : List PinCall) : EachCall P h := by
  induction h with
  | nil => trivial
  | cons c h ih => exact ⟨hP h c, ih⟩

/-- Whatever the rotations do, a PIN outlives at most nine wrong guesses. -/
theorem wrongGuesses_le_nine (hn : NeverRepeats h) (p : Pin) : wrongGuesses p h ≤ 9 := by
  have hkeep : EachCall (fun s c => s.Keeps c → s.failCount ≤ 4) h := by
    apply eachCall_of_forall
    intro h c _
    exact Nat.le_of_lt_succ (failCount_lt h)
  exact (guarded_after hn hkeep).total p

/-- Where a rotation that keeps the outgoing PIN finds no wrong guess counted, five wrong
guesses are the end of every PIN. -/
theorem five_wrong_guesses_end_a_pin (hn : NeverRepeats (c :: h))
    (hkeep : EachCall (fun s c => s.Keeps c → s.failCount = 0) (c :: h)) (p : Pin) :
    wrongGuesses p (c :: h) ≤ pinMaxFails ∧
      (pinMaxFails ≤ wrongGuesses p h → c.guess = some p.val → ¬ (pinsAfter h).Accepted c) := by
  have hnone : EachCall (fun s c => s.Keeps c → s.failCount ≤ 0) (c :: h) :=
    hkeep.mono fun _ _ hzero hk => Nat.le_of_eq (hzero hk)
  constructor
  · exact (guarded_after hn hnone).total p
  · intro hmany hg hacc
    rw [accepted_iff hg] at hacc
    have hrot := (guarded_after hn.earlier hnone.2).due hn.rotated hnone.1
    have hw := hrot.acceptable hacc
    have hfew := hrot.few
    omega

/-- Four equal digits. -/
def samePin (d : Fin 10) : Pin :=
  ⟨String.ofList (List.replicate 4 (Nat.digitChar d)), by decide +revert⟩

/-- A wrong guess, with the PINs it may draw. -/
def wrongGuess (now : Nat) : PinCall := ⟨some "9999", now, samePin 1, samePin 2⟩

/-- The first snapshot draws 0000. -/
def firstSnapshot : PinCall := ⟨none, 0, samePin 0, samePin 2⟩

/-- Five wrong guesses right after the first snapshot. -/
def fiveWrongGuesses : List PinCall := List.replicate 5 (wrongGuess 0) ++ [firstSnapshot]

theorem five_wrong_guesses_end_a_pin_run :
    pinMaxFails ≤ wrongGuesses (samePin 0) fiveWrongGuesses ∧
      ¬ (pinsAfter fiveWrongGuesses).Accepted ⟨some "0000", 0, samePin 1, samePin 3⟩ := by
  have hmany : pinMaxFails ≤ wrongGuesses (samePin 0) fiveWrongGuesses := by decide +kernel
  exact ⟨hmany, (five_wrong_guesses_end_a_pin (by decide +kernel) (by decide +kernel) (samePin 0)).2
    hmany (by decide +kernel)⟩

/-- Four guesses are wrong, a rotation that is exactly due keeps the PIN and forgets them, and
a fifth guess is wrong. -/
def guessesAcrossRotation : List PinCall :=
  [wrongGuess pinRotatePeriod, ⟨none, pinRotatePeriod, samePin 1, samePin 2⟩,
    wrongGuess 0, wrongGuess 0, wrongGuess 0, wrongGuess 0, firstSnapshot]

theorem wrongGuesses_across_rotation : wrongGuesses (samePin 0) guessesAcrossRotation ≤ 9 :=
  wrongGuesses_le_nine (by decide +kernel) _

/-- The fifth wrong guess does not end the PIN, and four more can follow it. -/
theorem pin_accepted_after_five_wrong_guesses :
    (∃ c h p, Timed (c :: h) ∧ NeverRepeats (c :: h) ∧ wrongGuesses p h = pinMaxFails ∧
      c.guess = some p.val ∧ (pinsAfter h).Accepted c) ∧
    ∃ h p, Timed h ∧ NeverRepeats h ∧ wrongGuesses p h = 9 := by
  constructor
  · refine ⟨⟨some "0000", pinRotatePeriod, samePin 1, samePin 2⟩, guessesAcrossRotation,
      samePin 0, ?_⟩
    decide +kernel
  · refine ⟨List.replicate 4 (wrongGuess pinRotatePeriod) ++ guessesAcrossRotation, samePin 0, ?_⟩
    decide +kernel

/-! ## Age

A kept PIN is acceptable until the end of the period that its rotation begins, and a
rotation happens only when somebody calls. -/

/-- When the acceptable PINs were drawn, if none was kept more than `late` after its rotation
was due. -/
structure Aged (late : Nat) (s : Pins) (born : Pin → Nat → Prop) : Prop where
  current : ∀ p t, s.currentPin = some p → born p t → s.rotateAt = t + pinRotatePeriod
  previous : ∀ p t, s.previousPin = some p → born p t →
    s.rotateAt ≤ t + 2 * pinRotatePeriod + late

namespace Aged

variable {late : Nat} {s : Pins} {born : Pin → Nat → Prop}

theorem due (h : Aged late s born) (hnew : s.Rotates c → ¬ ∃ t, born c.rotated t)
    (hkeep : s.Keeps c → c.now ≤ s.rotateAt + late) :
    Aged late (s.due c) fun p t => born p t ∨ s.Rotates c ∧ p = c.rotated ∧ t = c.now := by
  by_cases hr : s.Rotates c
  · obtain ⟨hcur, -, hat⟩ := due_of_rotates hr
    constructor
    · rintro p t hp (hborn | ⟨-, -, rfl⟩)
      · rw [hcur, some_inj] at hp
        exact absurd ⟨t, hp ▸ hborn⟩ (hnew hr)
      · exact hat
    · rintro p t hp (hborn | ⟨-, -, rfl⟩)
      · obtain ⟨hk, hp⟩ := previousPin_due hr hp
        have hdue := h.current p t hp hborn
        have hlate := hkeep hk
        omega
      · omega
  · rw [due_of_not_rotates hr]
    constructor
    · rintro p t hp (hborn | hborn)
      · exact h.current p t hp hborn
      · exact absurd hborn.1 hr
    · rintro p t hp (hborn | hborn)
      · exact h.previous p t hp hborn
      · exact absurd hborn.1 hr

theorem call (h : Aged late (s.due c) born) (hnew : s.Burns c → ¬ ∃ t, born c.burnt t) :
    Aged late (s.call c) fun p t => born p t ∨ s.Burns c ∧ p = c.burnt ∧ t = c.now := by
  have hsame : ∀ {u : Pins}, ¬ s.Burns c → u.currentPin = (s.due c).currentPin →
      u.previousPin = (s.due c).previousPin → u.rotateAt = (s.due c).rotateAt →
      Aged late u fun p t => born p t ∨ s.Burns c ∧ p = c.burnt ∧ t = c.now := by
    intro u hburn hcur hprev hat
    constructor
    · rintro p t hp (hborn | hborn)
      · exact hat.trans (h.current p t (hcur ▸ hp) hborn)
      · exact absurd hborn.1 hburn
    · rintro p t hp (hborn | hborn)
      · exact hat ▸ h.previous p t (hprev ▸ hp) hborn
      · exact absurd hborn.1 hburn
  obtain ⟨hburn, hcur, hprev, -, hat⟩ | ⟨hburn, -, -, hcall⟩ | ⟨hburn, -, hcall⟩ := call_cases s c
  · constructor
    · rintro p t hp (hborn | ⟨-, -, rfl⟩)
      · rw [hcur, some_inj] at hp
        exact absurd ⟨t, hp ▸ hborn⟩ (hnew hburn)
      · exact hat
    · intro p t hp
      simp [hprev] at hp
  · rw [hcall]
    exact hsame hburn rfl rfl rfl
  · rw [hcall]
    exact hsame hburn rfl rfl rfl

end Aged

theorem aged_after {late : Nat} (hn : NeverRepeats h)
    (hkeep : EachCall (fun s c => s.Keeps c → c.now ≤ s.rotateAt + late) h) :
    Aged late (pinsAfter h) fun p t => (p, t) ∈ births h := by
  induction h with
  | nil =>
    constructor
    · intro p t hp
      cases hp
    · intro p t hp
      cases hp
  | cons c h ih =>
    have hrot := (ih hn.earlier hkeep.2).due hn.rotated hkeep.1
    have hcall := hrot.call fun hb => by
      rintro ⟨t, hold | ⟨hr, heq, -⟩⟩
      · exact hn.burnt hb (.inl ⟨t, hold⟩)
      · exact hn.burnt hb (.inr ⟨hr, heq⟩)
    have hborn : (fun p t => (p, t) ∈ births (c :: h)) = fun p t =>
        ((p, t) ∈ births h ∨ (pinsAfter h).Rotates c ∧ p = c.rotated ∧ t = c.now) ∨
          (pinsAfter h).Burns c ∧ p = c.burnt ∧ t = c.now := by
      funext p t
      exact propext mem_births_cons
    rw [hborn]
    exact hcall

/-- An accepted PIN is younger than two periods and the delay of the rotation that kept it. -/
theorem accepted_age_lt {late : Nat} (hn : NeverRepeats (c :: h))
    (hkeep : EachCall (fun s c => s.Keeps c → c.now ≤ s.rotateAt + late) (c :: h))
    {p : Pin} {t : Nat} (hg : c.guess = some p.val) (hacc : (pinsAfter h).Accepted c)
    (hborn : (p, t) ∈ births (c :: h)) : c.now < t + 2 * pinRotatePeriod + late := by
  have hrot := (aged_after hn.earlier hkeep.2).due hn.rotated hkeep.1
  have hnow : c.now < ((pinsAfter h).due c).rotateAt := now_lt_rotateAt_due
  rw [accepted_iff hg] at hacc
  rcases mem_births_cons.1 hborn with hborn | ⟨-, -, rfl⟩
  · rcases hacc with hp | hp
    · have hat := hrot.current p t hp hborn
      omega
    · have hat := hrot.previous p t hp hborn
      omega
  · rw [pinRotatePeriod]
    omega

/-- Where every rotation that keeps the outgoing PIN happens at the moment it is due, no PIN is
accepted more than two periods after it was drawn. -/
theorem accepted_within_two_periods (hn : NeverRepeats (c :: h))
    (hkeep : EachCall (fun s c => s.Keeps c → c.now = s.rotateAt) (c :: h))
    {p : Pin} {t : Nat} (hg : c.guess = some p.val) (hacc : (pinsAfter h).Accepted c)
    (hborn : (p, t) ∈ births (c :: h)) : c.now ≤ t + 2 * pinRotatePeriod := by
  have hlate : EachCall (fun s c => s.Keeps c → c.now ≤ s.rotateAt + 0) (c :: h) :=
    hkeep.mono fun _ _ heq hk => Nat.le_of_eq (heq hk)
  exact Nat.le_of_lt (accepted_age_lt hn hlate hg hacc hborn)

/-- The first snapshot, then one at the moment the rotation is due. -/
def rotatedOnTime : List PinCall :=
  [⟨none, pinRotatePeriod, samePin 1, samePin 2⟩, firstSnapshot]

/-- The kept PIN, in the last nanosecond of its second period. -/
def lastMoment : PinCall := ⟨some "0000", 2 * pinRotatePeriod - 1, samePin 3, samePin 2⟩

theorem accepted_within_two_periods_run :
    (pinsAfter rotatedOnTime).Accepted lastMoment ∧ lastMoment.now ≤ 0 + 2 * pinRotatePeriod := by
  have hrun : NeverRepeats (lastMoment :: rotatedOnTime) := by decide +kernel
  have hkeep : EachCall (fun s c => s.Keeps c → c.now = s.rotateAt) (lastMoment :: rotatedOnTime) := by
    decide +kernel
  have hborn : (samePin 0, 0) ∈ births (lastMoment :: rotatedOnTime) := by decide +kernel
  have hacc : (pinsAfter rotatedOnTime).Accepted lastMoment := by decide +kernel
  exact ⟨hacc, accepted_within_two_periods hrun hkeep (by decide +kernel) hacc hborn⟩

/-- A PIN drawn at 0 s is still accepted at 898 s, because the rotation due at 300 s came with
the snapshot at 599 s. -/
theorem pin_accepted_after_fifteen_minutes :
    ∃ c h p t, Timed (c :: h) ∧ NeverRepeats (c :: h) ∧ c.guess = some p.val ∧
      (pinsAfter h).Accepted c ∧ (p, t) ∈ births h ∧ t + 2 * pinRotatePeriod < c.now := by
  refine ⟨⟨some "0000", 898 * 1000000000, samePin 3, samePin 2⟩,
    [⟨none, 599 * 1000000000, samePin 1, samePin 2⟩, firstSnapshot], samePin 0, 0, ?_⟩
  decide +kernel

end Satellite.Pairing
