import Mathlib.Data.List.Basic

/-!
# A queue by positions

`MpscQueue` of `core/mpsc_queue.h`: a producer claims a position and publishes its item in
two steps, and the one consumer stops at the first position that is not published.
-/

namespace Satellite.Pointer

open List

/-- The queue by positions: `none` is a position claimed whose item is not published.
The cell of a position is free for the next lap once the position has been consumed. -/
structure MpscQueue (α : Type) where
  cells : List (Option α) := []
  dequeuePos : Nat := 0

namespace MpscQueue

variable {α : Type}

/-- The first half of `push`: the position taken, unless the queue is full. -/
def claim (q : MpscQueue α) (capacity : Nat) : Option (Nat × MpscQueue α) :=
  if q.cells.length - q.dequeuePos < capacity then
    some (q.cells.length, { q with cells := q.cells ++ [none] })
  else none

/-- The second half of `push`. -/
def publish (q : MpscQueue α) (pos : Nat) (item : α) : MpscQueue α :=
  { q with cells := q.cells.set pos (some item) }

def pop (q : MpscQueue α) : Option (α × MpscQueue α) :=
  match q.cells[q.dequeuePos]? with
  | some (some item) => some (item, { q with dequeuePos := q.dequeuePos + 1 })
  | _ => none

/-- A published item that has not been popped. -/
def Waits (q : MpscQueue α) (pos : Nat) (item : α) : Prop :=
  q.dequeuePos ≤ pos ∧ q.cells[pos]? = some (some item)

/-- A claimed position whose item is not published. -/
def Hole (q : MpscQueue α) (pos : Nat) : Prop :=
  q.dequeuePos ≤ pos ∧ q.cells[pos]? = some none

variable {q q' : MpscQueue α} {pos p : Nat} {item x : α}

theorem claim_eq {capacity : Nat} (h : q.claim capacity = some (pos, q')) :
    pos = q.cells.length ∧ q' = { q with cells := q.cells ++ [none] } := by
  unfold claim at h
  split at h
  · cases h
    exact ⟨rfl, rfl⟩
  · cases h

theorem pop_eq (h : q.pop = some (item, q')) :
    q.Waits q.dequeuePos item ∧ q' = { q with dequeuePos := q.dequeuePos + 1 } := by
  unfold pop at h
  split at h
  next x hx =>
    cases h
    exact ⟨⟨Nat.le_refl _, hx⟩, rfl⟩
  · cases h

theorem waits_of_claim (h : Waits { q with cells := q.cells ++ [none] } p x) : q.Waits p x := by
  refine ⟨h.1, ?_⟩
  have hx : (q.cells ++ [none])[p]? = some (some x) := h.2
  rw [getElem?_append] at hx
  split at hx
  · exact hx
  · simp [getElem?_singleton] at hx

theorem hole_of_claim (h : Hole { q with cells := q.cells ++ [none] } p) :
    q.Hole p ∨ p = q.cells.length := by
  have hx : (q.cells ++ [none])[p]? = some none := h.2
  rw [getElem?_append] at hx
  split at hx
  · exact .inl ⟨h.1, hx⟩
  next hp =>
    rw [getElem?_singleton] at hx
    split at hx
    · right
      omega
    · cases hx

theorem waits_of_publish (h : (q.publish pos item).Waits p x) : q.Waits p x ∨ p = pos ∧ x = item := by
  have hx : (q.cells.set pos (some item))[p]? = some (some x) := h.2
  rw [getElem?_set] at hx
  split at hx
  next hp =>
    split at hx
    · right
      exact ⟨hp.symm, by simpa using hx.symm⟩
    · cases hx
  · exact .inl ⟨h.1, hx⟩

theorem hole_of_publish (h : (q.publish pos item).Hole p) : q.Hole p ∧ p ≠ pos := by
  have hx : (q.cells.set pos (some item))[p]? = some none := h.2
  rw [getElem?_set] at hx
  split at hx
  · split at hx <;> cases hx
  next hp => exact ⟨⟨h.1, hx⟩, fun e => hp e.symm⟩

theorem waits_of_pop (h : Waits { q with dequeuePos := q.dequeuePos + 1 } p x) : q.Waits p x :=
  ⟨Nat.le_of_succ_le h.1, h.2⟩

theorem hole_of_pop (h : Hole { q with dequeuePos := q.dequeuePos + 1 } p) : q.Hole p :=
  ⟨Nat.le_of_succ_le h.1, h.2⟩

/-- A drain that stops has reached the end of the claimed positions, or a hole. -/
theorem pop_none (h : q.pop = none) : q.cells.length ≤ q.dequeuePos ∨ q.Hole q.dequeuePos := by
  unfold pop at h
  split at h
  · cases h
  next hx =>
    cases hc : q.cells[q.dequeuePos]? with
    | none => exact .inl (List.getElem?_eq_none_iff.1 hc)
    | some c =>
      cases c with
      | none => exact .inr ⟨Nat.le_refl _, hc⟩
      | some item => exact absurd hc (hx item)

end MpscQueue

end Satellite.Pointer
