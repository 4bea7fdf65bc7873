import Satellite.Lib.Buffers

/-!
# Partial readers of a buffer

A reader answers `none` when it would read past the end of its buffer. `Reads n f` says that the
first `n` elements are enough for `f` and are all it depends on; the rules below compose it, so
that a decoder's bound and its independence of what follows come from the same derivation.

A reader that may also refuse what it has read answers in two layers: `none` is a read past the
end, `some none` a refusal. Where no layer faults it is a plain partial function.
-/

namespace Satellite.Reading

open List

variable {α β γ : Type} {n : Nat}

structure Reads (n : Nat) (f : List α → Option β) : Prop where
  defined : ∀ xs, n ≤ xs.length → ∃ b, f xs = some b
  only : ∀ xs ys, n ≤ xs.length → n ≤ ys.length → xs.take n = ys.take n → f xs = f ys

theorem Reads.pure (b : β) : Reads n fun _ : List α => some b :=
  ⟨fun _ _ => ⟨b, rfl⟩, fun _ _ _ _ _ => rfl⟩

theorem Reads.bind {f : List α → Option β} {g : β → List α → Option γ} (hf : Reads n f)
    (hg : ∀ b, Reads n (g b)) : Reads n fun xs => (f xs).bind fun b => g b xs := by
  constructor
  · intro xs hxs
    obtain ⟨b, hb⟩ := hf.defined xs hxs
    obtain ⟨c, hc⟩ := (hg b).defined xs hxs
    exact ⟨c, by rw [hb, Option.bind_some, hc]⟩
  · intro xs ys hxs hys htake
    obtain ⟨b, hb⟩ := hf.defined xs hxs
    have hb' : f ys = some b := by rw [← hf.only xs ys hxs hys htake, hb]
    rw [hb, hb', Option.bind_some, Option.bind_some]
    exact (hg b).only xs ys hxs hys htake

theorem Reads.get {i : Nat} (hi : i < n := by decide) : Reads n fun xs : List α => xs[i]? := by
  constructor
  · intro xs hxs
    have hlt : i < xs.length := Nat.lt_of_lt_of_le hi hxs
    exact ⟨xs[i], getElem?_eq_getElem hlt⟩
  · intro xs ys _ _ htake
    rw [← getElem?_take_of_lt hi, htake, getElem?_take_of_lt hi]

/-- A reader of what follows the first `k` elements. -/
theorem Reads.drop {f : List α → Option β} (k : Nat) (hf : Reads n f) :
    Reads (k + n) fun xs => f (xs.drop k) := by
  have hlen : ∀ xs : List α, k + n ≤ xs.length → n ≤ (xs.drop k).length := by
    intro xs hxs
    rw [length_drop]
    omega
  constructor
  · exact fun xs hxs => hf.defined _ (hlen xs hxs)
  · intro xs ys hxs hys htake
    apply hf.only _ _ (hlen xs hxs) (hlen ys hys)
    rw [take_drop, take_drop, htake]

/-! ## Readers that may refuse -/

/-- Go on with what was read, unless the reader faulted or refused. -/
def andThen (x : Option (Option β)) (f : β → Option (Option γ)) : Option (Option γ) :=
  x.bind fun y => y.elim (some none) f

theorem andThen_eq {x : Option (Option β)} {y : Option β} {f : β → Option (Option γ)}
    {g : β → Option γ} (hx : x = some y) (hf : ∀ b, y = some b → f b = some (g b)) :
    andThen x f = some (y.bind g) := by
  subst hx
  cases y with
  | none => rfl
  | some b => exact hf b rfl

theorem andThen_map {x : Option (Option β)} {y : Option β} {f : β → Option (Option γ)}
    {g : β → γ} (hx : x = some y) (hf : ∀ b, y = some b → f b = some (some (g b))) :
    andThen x f = some (y.map g) := by
  rw [Option.map_eq_bind]
  exact andThen_eq hx hf

/-- The `n` elements from position `k` on. -/
def slice (xs : List α) (k n : Nat) : Option (List α) :=
  if k + n ≤ xs.length then some ((xs.drop k).take n) else none

theorem slice_eq {xs : List α} {k n : Nat} (h : k + n ≤ xs.length) :
    slice xs k n = some ((xs.drop k).take n) := if_pos h

/-- `readMany` of a reader that may fault. -/
def checkMany (item : Nat → Option (Option (β × Nat))) :
    Nat → Nat → Option (Option (List β × Nat))
  | 0, pos => some (some ([], pos))
  | n + 1, pos => andThen (item pos) fun (x, pos) =>
    andThen (checkMany item n pos) fun (xs, pos) => some (some (x :: xs, pos))

theorem checkMany_eq {item : Nat → Option (Option (β × Nat))} {item' : Nat → Option (β × Nat)}
    (h : ∀ pos, item pos = some (item' pos)) (n pos : Nat) :
    checkMany item n pos = some (readMany item' n pos) := by
  induction n generalizing pos with
  | zero => rfl
  | succ n ih =>
    rw [checkMany, readMany]
    apply andThen_eq (h pos)
    rintro ⟨x, pos⟩ -
    exact andThen_map (ih pos) fun _ _ => rfl

/-! ## Where a counted section goes -/

/-- Every item moves forward and stays in a buffer of the given length. -/
def Advances (len : Nat) (item : Nat → Option (β × Nat)) : Prop :=
  ∀ pos x pos', item pos = some (x, pos') → pos < pos' ∧ pos' ≤ len

/-- A section that was read has as many items as were asked for, and each of its beginnings
was read as well, up to a position inside. -/
theorem Advances.section_inside {len : Nat} {item : Nat → Option (β × Nat)} (h : Advances len item)
    {n pos stop : Nat} {xs : List β} (hpos : pos ≤ len)
    (hread : readMany item n pos = some (xs, stop)) :
    xs.length = n ∧ stop ≤ len ∧
      ∀ k ≤ n, ∃ ys mid, readMany item k pos = some (ys, mid) ∧ mid ≤ len := by
  induction n generalizing pos xs with
  | zero =>
    obtain ⟨rfl, rfl⟩ := Prod.mk.inj (Option.some.inj hread)
    refine ⟨rfl, hpos, fun k hk => ?_⟩
    obtain rfl : k = 0 := Nat.le_zero.mp hk
    exact ⟨[], pos, rfl, hpos⟩
  | succ n ih =>
    obtain ⟨⟨x, next⟩, hitem, hrest⟩ := Option.bind_eq_some_iff.mp hread
    obtain ⟨⟨ys, last⟩, hmany, heq⟩ := Option.map_eq_some_iff.mp hrest
    obtain ⟨rfl, rfl⟩ := Prod.mk.inj heq
    obtain ⟨hlen, hstop, hmid⟩ := ih (h pos x next hitem).2 hmany
    refine ⟨by rw [length_cons, hlen], hstop, fun k hk => ?_⟩
    cases k with
    | zero => exact ⟨[], pos, rfl, hpos⟩
    | succ k =>
      obtain ⟨zs, mid, hz, hin⟩ := hmid k (Nat.le_of_succ_le_succ hk)
      refine ⟨x :: zs, mid, ?_, hin⟩
      rw [readMany, hitem]
      simp only [Option.bind_some, hz, Option.map_some]

end Satellite.Reading
