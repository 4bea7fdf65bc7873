import Mathlib

/-!
# Sequence locks

Words written under a counter that is odd while a write is open. A reader notes an even
counter, loads the words one at a time and compares the counter at the end. The counter has
32 bits; the number of its increments, kept beside it, does not wrap.
-/

/-- Words of types `V`, with the number of increments of their counter. -/
structure Seqlock {W : Type} (V : W → Type) where
  bumps : Nat := 0
  mem : (w : W) → V w

namespace Seqlock

variable {W : Type} [DecidableEq W] {V : W → Type}

/-- The counter after a number of increments. -/
def counter (bumps : Nat) : UInt32 := UInt32.ofNat bumps

def writing (s : Seqlock V) : Bool := (counter s.bumps).toNat % 2 == 1

def bump (s : Seqlock V) : Seqlock V := { s with bumps := s.bumps + 1 }

def store (s : Seqlock V) (w : W) (v : V w) : Seqlock V :=
  { s with mem := Function.update s.mem w v }

omit [DecidableEq W] in
theorem writing_iff {s : Seqlock V} : s.writing = true ↔ s.bumps % 2 = 1 := by
  simp only [writing, counter, UInt32.toNat_ofNat', beq_iff_eq]
  omega

omit [DecidableEq W] in
theorem writing_bump {s : Seqlock V} : s.bump.writing = true ↔ s.writing = false := by
  have hb : s.bump.bumps = s.bumps + 1 := rfl
  rw [← Bool.not_eq_true, writing_iff, writing_iff, hb]
  omega

omit [DecidableEq W] in
theorem quiet_bump {s : Seqlock V} (h : s.writing = true) : s.bump.writing = false := by
  rw [← Bool.not_eq_true, writing_bump, h]
  exact nofun

/-- Equal counters fewer than `2 ^ 32` increments apart are one moment of the counter. -/
theorem eq_of_counter_eq {a b : Nat} (hle : a ≤ b) (hlt : b - a < 2 ^ 32)
    (h : counter a = counter b) : a = b := by
  have hnat := congrArg UInt32.toNat h
  simp only [counter, UInt32.toNat_ofNat'] at hnat
  omega

/-- A read in progress: the counter it started from and the words loaded so far. -/
structure Reading {W : Type} (V : W → Type) where
  before : Nat
  got : (w : W) → Option (V w) := fun _ => none

def beginRead (s : Seqlock V) : Option (Reading V) :=
  if s.writing then none else some { before := s.bumps }

def Reading.load (r : Reading V) (s : Seqlock V) (w : W) : Reading V :=
  { r with got := Function.update r.got w (some (s.mem w)) }

/-- The counter is what it was at the start. -/
def Reading.stable (r : Reading V) (s : Seqlock V) : Bool := counter r.before == counter s.bumps

/-- Fewer than `2 ^ 31` writes have begun since the start. -/
def Reading.recent (r : Reading V) (s : Seqlock V) : Bool := decide (s.bumps - r.before < 2 ^ 32)

/-- What was loaded is in the words, unless a write has begun. -/
structure Reading.Valid (r : Reading V) (s : Seqlock V) : Prop where
  even : r.before % 2 = 0
  le : r.before ≤ s.bumps
  loaded : r.before = s.bumps → ∀ w v, r.got w = some v → v = s.mem w

variable {s : Seqlock V} {r : Reading V}

omit [DecidableEq W] in
theorem beginRead_valid (h : s.beginRead = some r) : r.Valid s := by
  unfold beginRead at h
  split at h
  · cases h
  next hw =>
    cases h
    refine ⟨?_, Nat.le_refl _, nofun⟩
    rw [writing_iff] at hw
    show s.bumps % 2 = 0
    omega

theorem Reading.got_load (r : Reading V) (s : Seqlock V) (w : W) :
    (r.load s w).got w = some (s.mem w) := Function.update_self ..

theorem Reading.got_load_of_ne {w w' : W} (h : w' ≠ w) (r : Reading V) (s : Seqlock V) :
    (r.load s w).got w' = r.got w' := Function.update_of_ne h ..

theorem Reading.Valid.load (h : r.Valid s) (w : W) : (r.load s w).Valid s where
  even := h.even
  le := h.le
  loaded heq w' v hv := by
    by_cases hw : w' = w
    · subst hw
      rw [Reading.got_load, Option.some.injEq] at hv
      exact hv.symm
    · rw [Reading.got_load_of_ne hw] at hv
      exact h.loaded heq w' v hv

omit [DecidableEq W] in
theorem Reading.Valid.bump (h : r.Valid s) : r.Valid s.bump where
  even := h.even
  le := Nat.le_succ_of_le h.le
  loaded heq := by
    have hle := h.le
    have hb : s.bump.bumps = s.bumps + 1 := rfl
    omega

theorem Reading.Valid.store (h : r.Valid s) (hw : s.writing = true) (w : W) (v : V w) :
    r.Valid (s.store w v) where
  even := h.even
  le := h.le
  loaded heq := by
    -- a store needs an open write, which began after the read
    have heven := h.even
    rw [writing_iff] at hw
    have hb : (s.store w v).bumps = s.bumps := rfl
    omega

omit [DecidableEq W] in
/-- A stable read that not too many writes have passed holds the words of this very moment, at
which no write is open. -/
theorem Reading.Valid.stable (h : r.Valid s) (hrecent : r.recent s = true)
    (hstable : r.stable s = true) :
    s.writing = false ∧ ∀ w v, r.got w = some v → v = s.mem w := by
  simp only [Reading.recent, decide_eq_true_eq] at hrecent
  simp only [Reading.stable, beq_iff_eq] at hstable
  have heq := eq_of_counter_eq h.le hrecent hstable
  refine ⟨Bool.eq_false_iff.mpr fun hw => ?_, h.loaded heq⟩
  have heven := h.even
  rw [writing_iff] at hw
  omega

end Seqlock
