import Mathlib.Data.List.Sort

/-!
# Three-way comparisons

Comparisons that answer with the sign of an integer: of numbers, of pairs by the first
component that differs, and of lists element by element, the shorter one first. Each of them
orders what it compares if its parts do, and a list of keys that no draw confuses has one
sorted arrangement.
-/

namespace Comparison

variable {α β : Type}

def number (a b : Nat) : Int := if a = b then 0 else if a < b then -1 else 1

/-- The first verdict that is not a draw. -/
def first (c d : Int) : Int := if c = 0 then d else c

def lex (cmp : α → α → Int) : List α → List α → Int
  | [], [] => 0
  | [], _ :: _ => -1
  | _ :: _, [] => 1
  | a :: as, b :: bs => first (cmp a b) (lex cmp as bs)

theorem number_swap (a b : Nat) : number a b = -number b a := by
  unfold number
  grind

theorem number_eq_zero {a b : Nat} : number a b = 0 ↔ a = b := by
  unfold number
  grind

theorem first_swap {c d c' d' : Int} (hc : c = -c') (hd : d = -d') :
    first c d = -first c' d' := by
  unfold first
  grind

theorem first_eq_zero {c d : Int} : first c d = 0 ↔ c = 0 ∧ d = 0 := by
  unfold first
  grind

variable {cmp : α → α → Int}

theorem lex_swap (h : ∀ a b, cmp a b = -cmp b a) :
    ∀ as bs : List α, lex cmp as bs = -lex cmp bs as
  | [], [] => rfl
  | [], _ :: _ => rfl
  | _ :: _, [] => rfl
  | a :: as, b :: bs => first_swap (h a b) (lex_swap h as bs)

theorem lex_eq_zero : ∀ {as bs : List α}, lex cmp as bs = 0 ↔
    List.Forall₂ (fun a b => cmp a b = 0) as bs
  | [], [] => by simp [lex]
  | [], _ :: _ => ⟨fun h => absurd h (by simp [lex]), nofun⟩
  | _ :: _, [] => ⟨fun h => absurd h (by simp [lex]), nofun⟩
  | a :: as, b :: bs => by rw [lex, first_eq_zero, lex_eq_zero, List.forall₂_cons]

/-- Nothing comes before the empty list. -/
theorem lex_nil_right (as : List α) : 0 ≤ lex cmp as [] := by
  cases as with
  | nil => exact Int.le_refl 0
  | cons => exact Int.one_nonneg

theorem lex_map (f : β → α) (as bs : List β) :
    lex (fun a b => cmp (f a) (f b)) as bs = lex cmp (as.map f) (bs.map f) := by
  induction as generalizing bs with
  | nil => cases bs <;> rfl
  | cons a as ih =>
    cases bs with
    | nil => rfl
    | cons b bs => rw [lex, ih, List.map_cons, List.map_cons, lex]

/-! ## Orders -/

/-- A comparison that is a total preorder: swapping the arguments negates the verdict, and
not being ahead is transitive. -/
structure Orders (cmp : α → α → Int) : Prop where
  swap : ∀ a b, cmp a b = -cmp b a
  trans : ∀ a b c, cmp a b ≤ 0 → cmp b c ≤ 0 → cmp a c ≤ 0

namespace Orders

theorem total (h : Orders cmp) (a b : α) : cmp a b ≤ 0 ∨ cmp b a ≤ 0 := by
  have := h.swap a b
  omega

theorem lt_of_lt_of_le (h : Orders cmp) {a b c : α} (hab : cmp a b < 0) (hbc : cmp b c ≤ 0) :
    cmp a c < 0 := by
  by_contra hac
  have hca : cmp c a ≤ 0 := by
    have := h.swap c a
    omega
  have hba := h.trans b c a hbc hca
  have := h.swap a b
  omega

theorem lt_of_le_of_lt (h : Orders cmp) {a b c : α} (hab : cmp a b ≤ 0) (hbc : cmp b c < 0) :
    cmp a c < 0 := by
  by_contra hac
  have hca : cmp c a ≤ 0 := by
    have := h.swap c a
    omega
  have hcb := h.trans c a b hca hab
  have := h.swap b c
  omega

theorem number : Orders number where
  swap := number_swap
  trans a b c hab hbc := by
    unfold Comparison.number at *
    grind

theorem comap (h : Orders cmp) (f : β → α) : Orders fun a b => cmp (f a) (f b) where
  swap a b := h.swap (f a) (f b)
  trans a b c := h.trans (f a) (f b) (f c)

theorem first_trans (h : Orders cmp) {a b c : α} {d e f : Int} (hab : first (cmp a b) d ≤ 0)
    (hbc : first (cmp b c) e ≤ 0) (hf : d ≤ 0 → e ≤ 0 → f ≤ 0) : first (cmp a c) f ≤ 0 := by
  have hlt := @lt_of_lt_of_le _ _ h a b c
  have hle := @lt_of_le_of_lt _ _ h a b c
  have htrans := h.trans a b c
  unfold first at *
  grind

theorem first {cmp' : α → α → Int} (h : Orders cmp) (h' : Orders cmp') :
    Orders fun a b => first (cmp a b) (cmp' a b) where
  swap a b := first_swap (h.swap a b) (h'.swap a b)
  trans a b c hab hbc := h.first_trans hab hbc (h'.trans a b c)

theorem lex_trans (h : Orders cmp) : ∀ as bs cs : List α, lex cmp as bs ≤ 0 →
    lex cmp bs cs ≤ 0 → lex cmp as cs ≤ 0
  | [], _, [], _, _ => Int.le_refl 0
  | [], _, _ :: _, _, _ => (by decide : (-1 : Int) ≤ 0)
  | _ :: _, [], _, hab, _ => absurd hab (by simp [lex])
  | _ :: _, _ :: _, [], _, hbc => absurd hbc (by simp [lex])
  | _ :: as, _ :: bs, _ :: cs, hab, hbc => h.first_trans hab hbc (h.lex_trans as bs cs)

theorem lex (h : Orders cmp) : Orders (lex cmp) where
  swap := lex_swap h.swap
  trans := h.lex_trans

/-- Two sorted arrangements of the same keys are one, if only equal keys draw. -/
theorem eq_of_perm (h : Orders cmp) (heq : ∀ a b, cmp a b = 0 → a = b) {xs ys : List α}
    (hxs : xs.Pairwise fun a b => cmp a b ≤ 0) (hys : ys.Pairwise fun a b => cmp a b ≤ 0)
    (hp : xs.Perm ys) : xs = ys := by
  apply hp.eq_of_pairwise _ hxs hys
  intro a b _ _ hab hba
  apply heq
  have := h.swap a b
  omega

end Orders

end Comparison
