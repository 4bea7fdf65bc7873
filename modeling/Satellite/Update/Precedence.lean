import Satellite.Update.Service

/-!
# The order of versions

`compareSemver` reads any string as a version: three numbers, of which a missing or malformed
one is 0, and the identifiers of a pre-release. Its answer is the precedence of Semantic
Versioning 2.0 between the versions read. Precedence is a linear order, so the comparison is a
total preorder on strings of every shape; and a well-formed version is read as itself.
-/

namespace Satellite.Update

open Std (TransCmp OrientedCmp LawfulEqCmp)
open List

/-! ## Precedence -/

inductive Identifier
  | number (n : Nat)
  | text (s : Text)
  deriving DecidableEq

/-- Numbers by value and before all others, the others character by character. -/
def Identifier.precedence : Identifier → Identifier → Ordering
  | .number m, .number n => compare m n
  | .number _, .text _ => .lt
  | .text _, .number _ => .gt
  | .text s, .text t => List.compareLex (compareOn Char.toNat) s t

structure Version where
  major : Nat
  minor : Nat
  patch : Nat
  /-- A release has no identifiers. -/
  prerelease : List Identifier
  deriving DecidableEq

/-- A pre-release comes before its release, and of two of them the one that runs out first
while they agree. -/
def Version.precedence : Version → Version → Ordering :=
  compareLex (compareOn major) <| compareLex (compareOn minor) <| compareLex (compareOn patch) <|
    compareLex (compareOn fun v => v.prerelease.isEmpty) fun v w =>
      List.compareLex Identifier.precedence v.prerelease w.prerelease

instance : TransCmp Identifier.precedence where
  eq_swap {a b} := by
    cases a with
    | number m =>
      cases b with
      | number n => exact @OrientedCmp.eq_swap _ compare _ m n
      | text t => rfl
    | text s =>
      cases b with
      | number n => rfl
      | text t => exact @OrientedCmp.eq_swap _ (List.compareLex (compareOn Char.toNat)) _ s t
  isLE_trans {a b c} hab hbc := by
    cases a with
    | number m =>
      cases c with
      | number l =>
        cases b with
        | number n => exact @TransCmp.isLE_trans _ compare _ m n l hab hbc
        | text t => cases hbc
      | text u => rfl
    | text s =>
      cases b with
      | number n => cases hab
      | text t =>
        cases c with
        | number l => cases hbc
        | text u =>
          exact @TransCmp.isLE_trans _ (List.compareLex (compareOn Char.toNat)) _ s t u hab hbc

instance compareOn_toNat_lawful : LawfulEqCmp (compareOn Char.toNat) where
  compare_self := Nat.compare_eq_eq.mpr rfl
  eq_of_compare h := Char.toNat_inj.mp (Nat.compare_eq_eq.mp h)

instance : LawfulEqCmp Identifier.precedence where
  compare_self {a} := by
    cases a with
    | number m => exact @Std.ReflCmp.compare_self _ compare _ m
    | text s => exact @Std.ReflCmp.compare_self _ (List.compareLex (compareOn Char.toNat)) _ s
  eq_of_compare {a b} h := by
    cases a with
    | number m =>
      cases b with
      | number n => exact congrArg _ (Nat.compare_eq_eq.mp h)
      | text t => cases h
    | text s =>
      cases b with
      | number n => cases h
      | text t =>
        have heq : s = t :=
          @LawfulEqCmp.eq_of_compare _ (List.compareLex (compareOn Char.toNat)) _ s t h
        rw [heq]

instance : TransCmp fun v w : Version =>
    List.compareLex Identifier.precedence v.prerelease w.prerelease where
  eq_swap := OrientedCmp.eq_swap
  isLE_trans := TransCmp.isLE_trans

instance : TransCmp Version.precedence :=
  inferInstanceAs (TransCmp (compareLex _ _))

theorem Version.eq_of_precedence {v w : Version} (h : v.precedence w = .eq) : v = w := by
  simp only [precedence, compareLex_eq_eq, compareOn, Nat.compare_eq_eq] at h
  obtain ⟨hmajor, hminor, hpatch, -, hpre⟩ := h
  have hpre : v.prerelease = w.prerelease := LawfulEqCmp.eq_of_compare hpre
  cases v
  cases w
  simp_all only

/-! ## Numerals -/

/-- The value of a string of digits. -/
def numeral (s : Text) : Nat := Nat.ofDigitChars 10 s 0

theorem numeral_cons (c : Char) (s : Text) :
    numeral (c :: s) = (c.toNat - 48) * 10 ^ s.length + numeral s := by
  rw [numeral, Nat.ofDigitChars_cons, Nat.ofDigitChars_eq_ofDigitChars_zero, Nat.mul_zero,
    Nat.zero_add, Nat.mul_comm]
  rfl

def Digits (s : Text) : Prop := ∀ c ∈ s, c.isDigit = true

variable {s : Text}

theorem Digits.head {c : Char} (h : Digits (c :: s)) :
    48 ≤ c.toNat ∧ c.toNat ≤ 57 :=
  Char.isDigit_iff_toNat.mp (h c mem_cons_self)

theorem Digits.tail {c : Char} (h : Digits (c :: s)) : Digits s :=
  fun d hd => h d (mem_cons_of_mem c hd)

theorem numeral_lt (h : Digits s) : numeral s < 10 ^ s.length := by
  induction s with
  | nil => exact Nat.one_pos
  | cons c s ih =>
    have hc := h.head
    have hs := ih h.tail
    rw [numeral_cons, length_cons, Nat.pow_succ]
    calc (c.toNat - 48) * 10 ^ s.length + numeral s
        < (c.toNat - 48) * 10 ^ s.length + 10 ^ s.length := Nat.add_lt_add_left hs _
      _ = (c.toNat - 48 + 1) * 10 ^ s.length := by rw [Nat.succ_mul]
      _ ≤ 10 * 10 ^ s.length := Nat.mul_le_mul_right _ (by omega)
      _ = 10 ^ s.length * 10 := Nat.mul_comm _ _

theorem semverIdentIsNumeric_iff :
    semverIdentIsNumeric s = true ↔ s ≠ [] ∧ Digits s := by
  simp only [semverIdentIsNumeric, Bool.and_eq_true, Bool.not_eq_true', isEmpty_eq_false_iff,
    all_eq_true, decide_eq_true_eq, Digits, Char.isDigit_iff_toNat]
  rfl

theorem compare_add_left (k m n : Nat) : compare (k + m) (k + n) = compare m n := by
  rcases Nat.lt_trichotomy m n with h | h | h
  · rw [Nat.compare_eq_lt.mpr h, Nat.compare_eq_lt.mpr (Nat.add_lt_add_left h k)]
  · rw [h, Nat.compare_eq_eq.mpr rfl, Nat.compare_eq_eq.mpr rfl]
  · rw [Nat.compare_eq_gt.mpr h, Nat.compare_eq_gt.mpr (Nat.add_lt_add_left h k)]

theorem compareText_cons (a b : Char) (x y : Text) :
    compareText (a :: x) (b :: y) = (compare a.toNat b.toNat).then (compareText x y) := by
  rw [compareText]
  rcases Nat.lt_trichotomy a.toNat b.toNat with hlt | heq | hgt
  · rw [if_pos (show a < b from hlt), Nat.compare_eq_lt.mpr hlt]
    rfl
  · obtain rfl := Char.toNat_inj.mp heq
    rw [if_neg (Char.lt_irrefl a), if_neg (Char.lt_irrefl a), Nat.compare_eq_eq.mpr rfl]
    rfl
  · rw [if_neg (show ¬ a < b from Nat.lt_asymm hgt), if_pos (show b < a from hgt),
      Nat.compare_eq_gt.mpr hgt]
    rfl

theorem compareText_eq (x y : Text) :
    compareText x y = List.compareLex (compareOn Char.toNat) x y := by
  induction x generalizing y with
  | nil => cases y <;> rfl
  | cons a x ih =>
    cases y with
    | nil => rfl
    | cons b y => rw [compareText_cons, List.compareLex_cons_cons, ih, compareOn]

/-- Numerals of one length compare as their values do. -/
theorem compareText_digits {a b : Text} (ha : Digits a) (hb : Digits b)
    (hlen : a.length = b.length) : compareText a b = compare (numeral a) (numeral b) := by
  induction a generalizing b with
  | nil =>
    obtain rfl := length_eq_zero_iff.mp hlen.symm
    rfl
  | cons c a ih =>
    cases b with
    | nil => cases hlen
    | cons d b =>
      have hlen : a.length = b.length := Nat.succ.inj hlen
      have hav := hlen ▸ numeral_lt ha.tail
      have hbv := numeral_lt hb.tail
      have hc := ha.head
      have hd := hb.head
      rw [compareText_cons, numeral_cons, numeral_cons, hlen, ih ha.tail hb.tail hlen]
      generalize 10 ^ b.length = p at *
      rcases Nat.lt_trichotomy c.toNat d.toNat with hlt | heq | hgt
      · have hle := Nat.mul_le_mul_right p (show c.toNat - 48 + 1 ≤ d.toNat - 48 by omega)
        rw [Nat.succ_mul] at hle
        rw [Nat.compare_eq_lt.mpr hlt, eq_comm]
        exact Nat.compare_eq_lt.mpr (by omega)
      · rw [heq, Nat.compare_eq_eq.mpr rfl]
        exact (compare_add_left _ _ _).symm
      · have hle := Nat.mul_le_mul_right p (show d.toNat - 48 + 1 ≤ c.toNat - 48 by omega)
        rw [Nat.succ_mul] at hle
        rw [Nat.compare_eq_gt.mpr hgt, eq_comm]
        exact Nat.compare_eq_gt.mpr (by omega)

/-- A numeral without a leading zero, unless that is all of it. -/
structure Canonical (s : Text) : Prop where
  digits : Digits s
  leading : ∀ c d t, s = c :: d :: t → c ≠ '0'

theorem canonical_stripZeros (h : Digits s) : Canonical (stripZeros s) := by
  fun_induction stripZeros s with
  | case1 d s ih => exact ih h.tail
  | case2 c d s hc =>
    refine ⟨h, fun c' d' t heq => ?_⟩
    cases heq
    exact hc
  | case3 s hs => exact ⟨h, fun c d t heq => absurd heq (hs c d t)⟩

theorem numeral_stripZeros (s : Text) : numeral (stripZeros s) = numeral s := by
  fun_induction stripZeros s with
  | case1 d s ih =>
    rw [ih, numeral_cons '0']
    exact (Nat.zero_add _).symm.trans (by rw [show '0'.toNat - 48 = 0 from rfl, Nat.zero_mul])
  | case2 c d s hc => rfl
  | case3 s hs => rfl

theorem stripZeros_ne_nil (h : s ≠ []) : stripZeros s ≠ [] := by
  fun_induction stripZeros s with
  | case1 d s ih => exact ih (cons_ne_nil _ _)
  | case2 c d s hc => exact cons_ne_nil _ _
  | case3 s hs => exact h

/-- The shorter of two canonical numerals is the smaller number. -/
theorem Canonical.numeral_lt_of_length {a b : Text} (ha : Canonical a) (hb : Canonical b)
    (hne : a ≠ []) (hlen : a.length < b.length) : numeral a < numeral b := by
  obtain ⟨c, d, t, rfl⟩ : ∃ c d t, b = c :: d :: t := by
    match b, hlen with
    | [], hlen => simp at hlen
    | [_], hlen => simp at hlen; exact absurd hlen hne
    | c :: d :: t, _ => exact ⟨c, d, t, rfl⟩
  have hc := hb.digits.head
  have hzero : c.toNat ≠ 48 := fun h => hb.leading c d t rfl (Char.toNat_inj.mp h)
  simp only [length_cons] at hlen
  calc numeral a < 10 ^ a.length := numeral_lt ha.digits
    _ ≤ 10 ^ (d :: t).length := Nat.pow_le_pow_right (by decide) (by simp only [length_cons]; omega)
    _ ≤ (c.toNat - 48) * 10 ^ (d :: t).length := Nat.le_mul_of_pos_left _ (by omega)
    _ ≤ numeral (c :: d :: t) := by
      rw [numeral_cons]
      exact Nat.le_add_right _ _

/-- Numeric identifiers of any length compare as numbers. -/
theorem semverCompareNumericIdent_eq {a b : Text} (ha : semverIdentIsNumeric a = true)
    (hb : semverIdentIsNumeric b = true) :
    semverCompareNumericIdent a b = compare (numeral a) (numeral b) := by
  obtain ⟨hane, ha⟩ := semverIdentIsNumeric_iff.mp ha
  obtain ⟨hbne, hb⟩ := semverIdentIsNumeric_iff.mp hb
  have hca := canonical_stripZeros ha
  have hcb := canonical_stripZeros hb
  rw [semverCompareNumericIdent, ← numeral_stripZeros a, ← numeral_stripZeros b]
  rcases Nat.lt_trichotomy (stripZeros a).length (stripZeros b).length with hlt | heq | hgt
  · rw [if_pos (Nat.ne_of_lt hlt), if_pos hlt, eq_comm, Nat.compare_eq_lt]
    exact hca.numeral_lt_of_length hcb (stripZeros_ne_nil hane) hlt
  · rw [if_neg (not_not.mpr heq)]
    exact compareText_digits hca.digits hcb.digits heq
  · rw [if_pos (Nat.ne_of_gt hgt), if_neg (Nat.lt_asymm hgt), eq_comm, Nat.compare_eq_gt]
    exact hcb.numeral_lt_of_length hca (stripZeros_ne_nil hbne) hgt

/-! ## The version a string is read as -/

def identifierOf (s : Text) : Identifier :=
  if semverIdentIsNumeric s then .number (numeral s) else .text s

def prereleaseOf (s : Text) : List Identifier :=
  if s.isEmpty then [] else (semverSplitDots s).map identifierOf

def versionOf (s : Text) : Version :=
  let core := semverSplitDots (s.takeWhile fun c => c ≠ '-')
  { major := numeral (coreIdent core 0)
    minor := numeral (coreIdent core 1)
    patch := numeral (coreIdent core 2)
    prerelease := prereleaseOf ((s.dropWhile fun c => c ≠ '-').drop 1) }

theorem isNumeric_coreIdent (core : List Text) (i : Nat) :
    semverIdentIsNumeric (coreIdent core i) = true := by
  unfold coreIdent
  split
  · split
    · assumption
    · rfl
  · rfl

theorem semverCompareIdents_eq (xs ys : List Text) :
    semverCompareIdents xs ys =
      List.compareLex Identifier.precedence (xs.map identifierOf) (ys.map identifierOf) := by
  induction xs generalizing ys with
  | nil => cases ys <;> rfl
  | cons x xs ih =>
    cases ys with
    | nil => rfl
    | cons y ys =>
      rw [semverCompareIdents, map_cons, map_cons, List.compareLex_cons_cons, ← ih]
      cases hx : semverIdentIsNumeric x <;> cases hy : semverIdentIsNumeric y <;>
        simp only [identifierOf, hx, hy, if_true, Bool.false_eq_true, if_false,
          Identifier.precedence, compareText_eq]
      · rfl
      · rfl
      · rw [semverCompareNumericIdent_eq hx hy]

theorem isEmpty_prereleaseOf (s : Text) : (prereleaseOf s).isEmpty = s.isEmpty := by
  unfold prereleaseOf
  cases s with
  | nil => rfl
  | cons c s =>
    simp only [isEmpty_cons, Bool.false_eq_true, if_false, isEmpty_map,
      isEmpty_eq_false_iff]
    unfold semverSplitDots
    split
    · exact cons_ne_nil _ _
    · split
      · exact cons_ne_nil _ _
      · exact cons_ne_nil _ _

theorem semverComparePrerelease_eq (a b : Text) :
    semverComparePrerelease a b =
      (compare (prereleaseOf a).isEmpty (prereleaseOf b).isEmpty).then
        (List.compareLex Identifier.precedence (prereleaseOf a) (prereleaseOf b)) := by
  rw [isEmpty_prereleaseOf, isEmpty_prereleaseOf]
  cases ha : a.isEmpty <;> cases hb : b.isEmpty <;>
    simp only [semverComparePrerelease, ha, hb, prereleaseOf, Bool.false_eq_true, if_false, if_true]
  · exact semverCompareIdents_eq _ _
  · rfl
  · rfl
  · rfl

/-- The comparison of any two strings is the precedence of the versions they are read as. -/
theorem compareSemver_eq (a b : Text) :
    compareSemver a b = (versionOf a).precedence (versionOf b) := by
  simp only [compareSemver, semverComparePrerelease_eq,
    semverCompareNumericIdent_eq (isNumeric_coreIdent _ _) (isNumeric_coreIdent _ _)]
  rfl

/-! ## Well-formed versions -/

def joinDots : List Text → Text
  | [] => []
  | [x] => x
  | x :: xs => x ++ '.' :: joinDots xs

def Identifier.toText : Identifier → Text
  | .number n => Nat.toDigits 10 n
  | .text s => s

def Version.toText (v : Version) : Text :=
  joinDots [Nat.toDigits 10 v.major, Nat.toDigits 10 v.minor, Nat.toDigits 10 v.patch] ++
    if v.prerelease = [] then [] else '-' :: joinDots (v.prerelease.map Identifier.toText)

/-- Letters, digits and hyphens, and not digits alone. -/
structure Identifier.IsText (s : Text) : Prop where
  alphabet : ∀ c ∈ s, c.isAlphanum = true ∨ c = '-'
  mixed : ∃ c ∈ s, c.isDigit = false

def Version.WellFormed (v : Version) : Prop := ∀ s, .text s ∈ v.prerelease → Identifier.IsText s

theorem semverSplitDots_dotless {x : Text} (h : '.' ∉ x) : semverSplitDots x = [x] := by
  induction x with
  | nil => rfl
  | cons c x ih =>
    rw [mem_cons, not_or] at h
    rw [semverSplitDots, if_neg (Ne.symm h.1), ih h.2]

theorem semverSplitDots_append {x : Text} (h : '.' ∉ x) (s : Text) :
    semverSplitDots (x ++ '.' :: s) = x :: semverSplitDots s := by
  induction x with
  | nil => rfl
  | cons c x ih =>
    rw [mem_cons, not_or] at h
    rw [cons_append, semverSplitDots, if_neg (Ne.symm h.1), ih h.2]

theorem semverSplitDots_joinDots {xs : List Text} (hne : xs ≠ []) (h : ∀ x ∈ xs, '.' ∉ x) :
    semverSplitDots (joinDots xs) = xs := by
  fun_induction joinDots xs with
  | case1 => exact absurd rfl hne
  | case2 x => exact semverSplitDots_dotless (h x mem_cons_self)
  | case3 x xs hxs ih =>
    have htail : xs ≠ [] := fun heq => hxs (heq ▸ rfl)
    rw [semverSplitDots_append (h x mem_cons_self),
      ih htail fun y hy => h y (mem_cons_of_mem x hy)]

theorem digits_toDigits (n : Nat) : Digits (Nat.toDigits 10 n) :=
  fun _ hc => Nat.isDigit_of_mem_toDigits (by decide) (by decide) hc

theorem not_mem_toDigits {c : Char} (hc : c.isDigit = false) (n : Nat) :
    c ∉ Nat.toDigits 10 n :=
  fun hmem => absurd (digits_toDigits n c hmem) (by simp [hc])

theorem isNumeric_toDigits (n : Nat) : semverIdentIsNumeric (Nat.toDigits 10 n) = true :=
  semverIdentIsNumeric_iff.mpr ⟨length_pos_iff.mp Nat.length_toDigits_pos, digits_toDigits n⟩

theorem numeral_toDigits (n : Nat) : numeral (Nat.toDigits 10 n) = n :=
  Nat.ofDigitChars_toDigits (by decide) (by decide)

variable {x : Identifier}

theorem identifierOf_toText (h : ∀ s, x = .text s → Identifier.IsText s) :
    identifierOf x.toText = x := by
  cases x with
  | number n =>
    rw [Identifier.toText, identifierOf, if_pos (isNumeric_toDigits n), numeral_toDigits]
  | text s =>
    obtain ⟨c, hc, hdigit⟩ := (h s rfl).mixed
    have hnot : ¬ semverIdentIsNumeric s = true := by
      intro hs
      have := (semverIdentIsNumeric_iff.mp hs).2 c hc
      rw [hdigit] at this
      cases this
    rw [Identifier.toText, identifierOf, if_neg hnot]

theorem dotless_toText (h : ∀ s, x = .text s → Identifier.IsText s) :
    '.' ∉ x.toText := by
  cases x with
  | number n => exact not_mem_toDigits rfl n
  | text s =>
    intro hmem
    rcases (h s rfl).alphabet '.' hmem with hc | hc <;> revert hc <;> decide

theorem toText_ne_nil (h : ∀ s, x = .text s → Identifier.IsText s) :
    x.toText ≠ [] := by
  cases x with
  | number n => exact length_pos_iff.mp Nat.length_toDigits_pos
  | text s =>
    obtain ⟨c, hc, -⟩ := (h s rfl).mixed
    exact ne_nil_of_mem hc

theorem prereleaseOf_joinDots {xs : List Identifier} (hne : xs ≠ [])
    (h : ∀ s, .text s ∈ xs → Identifier.IsText s) :
    prereleaseOf (joinDots (xs.map Identifier.toText)) = xs := by
  have htext : ∀ x ∈ xs, ∀ s, x = .text s → Identifier.IsText s :=
    fun x hx s heq => h s (heq ▸ hx)
  have hempty : (joinDots (xs.map Identifier.toText)).isEmpty = false := by
    match xs, hne with
    | [x], _ => exact isEmpty_eq_false_iff.mpr (toText_ne_nil (htext x mem_cons_self))
    | x :: y :: xs, _ => simp [joinDots]
  have hdots : ∀ x ∈ xs.map Identifier.toText, '.' ∉ x := by
    intro s hs
    obtain ⟨x, hx, rfl⟩ := mem_map.mp hs
    exact dotless_toText (htext x hx)
  have hread : ∀ x ∈ xs, (identifierOf ∘ Identifier.toText) x = x :=
    fun x hx => identifierOf_toText (htext x hx)
  rw [prereleaseOf, hempty, if_neg Bool.false_ne_true,
    semverSplitDots_joinDots (by simpa using hne) hdots, map_map, map_congr_left hread,
    map_id']

/-- A well-formed version is read as itself. -/
theorem versionOf_toText {v : Version} (h : v.WellFormed) : versionOf v.toText = v := by
  have hcore : ∀ c ∈ joinDots [Nat.toDigits 10 v.major, Nat.toDigits 10 v.minor,
      Nat.toDigits 10 v.patch], (decide (c ≠ '-')) = true := by
    intro c hc
    simp only [joinDots, mem_append, mem_cons] at hc
    rw [decide_eq_true_eq]
    rintro rfl
    have hnot := fun n => @not_mem_toDigits '-' rfl n
    simp [hnot] at hc
  have hsplit : semverSplitDots (joinDots [Nat.toDigits 10 v.major, Nat.toDigits 10 v.minor,
      Nat.toDigits 10 v.patch]) = [Nat.toDigits 10 v.major, Nat.toDigits 10 v.minor,
      Nat.toDigits 10 v.patch] := by
    apply semverSplitDots_joinDots (cons_ne_nil _ _)
    intro x hx
    simp only [mem_cons, not_mem_nil, or_false] at hx
    rcases hx with rfl | rfl | rfl <;> exact not_mem_toDigits rfl _
  have hrest : ∀ rest : Text, rest.head?.all (· = '-') →
      versionOf (joinDots [Nat.toDigits 10 v.major, Nat.toDigits 10 v.minor,
        Nat.toDigits 10 v.patch] ++ rest) =
        ⟨v.major, v.minor, v.patch, prereleaseOf (rest.drop 1)⟩ := by
    intro rest hrest
    have htake : rest.takeWhile (fun c => decide (c ≠ '-')) = [] ∧
        rest.dropWhile (fun c => decide (c ≠ '-')) = rest := by
      cases rest with
      | nil => exact ⟨rfl, rfl⟩
      | cons c rest =>
        obtain rfl : c = '-' := by simpa using hrest
        exact ⟨rfl, rfl⟩
    simp only [versionOf, takeWhile_append_of_pos hcore, dropWhile_append_of_pos hcore,
      htake, append_nil, hsplit]
    simp [coreIdent, isNumeric_toDigits, numeral_toDigits]
  unfold Version.toText
  split
  next hpre =>
    rw [hrest [] rfl]
    cases v
    simp_all [prereleaseOf]
  next hpre => rw [hrest _ rfl, drop_one, tail_cons, prereleaseOf_joinDots hpre h]

/-- The comparison is antisymmetric, transitive and total on all strings, and on well-formed
versions it is precedence and draws only between equal ones. -/
theorem compareSemver_precedence :
    (∀ a b, compareSemver a b = (compareSemver b a).swap) ∧
    (∀ a b c, (compareSemver a b).isLE → (compareSemver b c).isLE → (compareSemver a c).isLE) ∧
    (∀ a b, (compareSemver a b).isLE ∨ (compareSemver b a).isLE) ∧
    ∀ v w : Version, v.WellFormed → w.WellFormed →
      compareSemver v.toText w.toText = v.precedence w ∧
      (compareSemver v.toText w.toText = .eq → v.toText = w.toText) := by
  refine ⟨?_, ?_, ?_, ?_⟩
  · intro a b
    rw [compareSemver_eq, compareSemver_eq]
    exact OrientedCmp.eq_swap
  · intro a b c
    rw [compareSemver_eq, compareSemver_eq, compareSemver_eq]
    exact TransCmp.isLE_trans
  · intro a b
    rw [compareSemver_eq, compareSemver_eq, @OrientedCmp.eq_swap _ Version.precedence]
    cases (versionOf b).precedence (versionOf a) <;> simp
  · intro v w hv hw
    rw [compareSemver_eq, versionOf_toText hv, versionOf_toText hw]
    exact ⟨rfl, fun h => congrArg Version.toText (Version.eq_of_precedence h)⟩

end Satellite.Update
