import Mathlib.Data.List.Basic

/-!
# The loopback guard of the admin routes

`isLoopbackLiteral`, `isLoopbackHost` and `isLoopbackOrigin` of `net/origin_guard.h`, which
`guardOrigin` runs on the Host and the Origin of every admin request. What the guard is for is
stated on its own, after RFC 3986, and compared with the parser on every value: the two disagree
on four shapes of a host and on origins without a scheme.
-/

namespace Satellite.Origin

open List

/-! ## The parser -/

/-- `find`, with what stands before and after the character. -/
def findChar (d : Char) : List Char → Option (List Char × List Char)
  | [] => none
  | c :: v => if c = d then some ([], v) else (findChar d v).map fun p => (c :: p.1, p.2)

/-- The three names of this machine. -/
def isLoopbackLiteral (h : List Char) : Bool :=
  h == "127.0.0.1".toList || h == "localhost".toList || h == "::1".toList

/-- The check of a Host header; the text after the closing bracket or the colon is not read. -/
def isLoopbackHost : List Char → Bool
  | '[' :: v => (findChar ']' v).any fun (h, rest) =>
      rest.head?.all (· == ':') && isLoopbackLiteral h
  | v => isLoopbackLiteral v || (findChar ':' v).any fun (h, rest) =>
      !rest.contains ':' && isLoopbackLiteral h

/-- `find("//")`, with what stands before and after it. -/
def findSlashes : List Char → Option (List Char × List Char)
  | '/' :: '/' :: v => some ([], v)
  | c :: v => (findSlashes v).map fun p => (c :: p.1, p.2)
  | [] => none

/-- The check of an Origin header, on what follows the first two slashes. -/
def isLoopbackOrigin (origin : List Char) : Bool :=
  (findSlashes origin).any fun (_, authority) => isLoopbackHost authority

/-! ## What it is for -/

/-- A loopback literal with an optional decimal port. -/
def namesLoopback (v : List Char) : Bool :=
  ["127.0.0.1", "localhost", "::1", "[::1]"].any fun h => v == h.toList ||
    (h.toList ++ [':']).isPrefixOf v && (v.drop (h.toList.length + 1)).all Char.isDigit

/-- A scheme of RFC 3986: a letter, then letters, digits and the characters plus, minus and dot. -/
def isScheme : List Char → Bool
  | [] => false
  | c :: s => c.isAlpha && s.all fun c => c.isAlphanum || c == '+' || c == '-' || c == '.'

/-- `scheme://authority`, the authority a loopback literal with an optional decimal port. -/
def namesLoopbackOrigin (o : List Char) : Bool :=
  (findChar ':' o).any fun (scheme, rest) =>
    isScheme scheme && "//".toList.isPrefixOf rest && namesLoopback (rest.drop 2)

/-- What follows the user info of an authority. -/
def afterUserInfo : List Char → List Char
  | [] => []
  | c :: v => if '@' ∈ v then afterUserInfo v else if c = '@' then v else c :: v

/-- The host of an authority: what stands in the brackets, or before a single colon. -/
def rfcHost (v : List Char) : List Char :=
  match afterUserInfo v with
  | '[' :: a => ((findChar ']' a).map Prod.fst).getD a
  | a => ((findChar ':' a).filter fun p => !p.2.contains ':').elim a Prod.fst

/-! ## The values that are judged wrongly -/

/-- The host values on which the guard departs from its purpose. -/
inductive Misjudged : List Char → Prop
  /-- Any text passes for the port of a literal without colons. -/
  | port {h p : List Char} : h = "127.0.0.1".toList ∨ h = "localhost".toList → ':' ∉ p →
      p.all Char.isDigit = false → Misjudged (h ++ ':' :: p)
  /-- Any text passes for the port of a literal in brackets. -/
  | bracketPort {p : List Char} : p.all Char.isDigit = false →
      Misjudged ("[::1]:".toList ++ p)
  /-- Brackets around a literal that is no IPv6 address pass. -/
  | bracket {h rest : List Char} : h = "127.0.0.1".toList ∨ h = "localhost".toList →
      rest.head?.all (· == ':') = true → Misjudged ('[' :: h ++ ']' :: rest)
  /-- A bare IPv6 literal is refused once it has a port. -/
  | barePort {p : List Char} : p.all Char.isDigit = true → Misjudged ("::1:".toList ++ p)

/-- What stands before the slashes of `scheme://authority`. -/
def BeforeSlashes (s : List Char) : Prop := ∃ scheme, s = scheme ++ [':'] ∧ isScheme scheme = true

/-- The origins on which it does: what follows the first two slashes is judged wrongly, or it is
let pass although no scheme stands before them. -/
def MisjudgedOrigin (o : List Char) : Prop :=
  ∃ s a, findSlashes o = some (s, a) ∧
    (BeforeSlashes s ∧ Misjudged a ∨ ¬ BeforeSlashes s ∧ isLoopbackHost a = true)

/-! ## Hosts -/

theorem findChar_eq_some {d : Char} {v h rest : List Char} :
    findChar d v = some (h, rest) ↔ d ∉ h ∧ v = h ++ d :: rest := by
  induction v generalizing h with
  | nil => simp [findChar]
  | cons c v ih =>
    cases h <;> by_cases hc : c = d <;> grind [findChar, Option.map_eq_some_iff]

theorem isLoopbackLiteral_iff {h : List Char} : isLoopbackLiteral h = true ↔
    (h = "127.0.0.1".toList ∨ h = "localhost".toList) ∨ h = "::1".toList := by
  simp only [isLoopbackLiteral, Bool.or_eq_true, beq_iff_eq]

/-- The accepted values: a literal, one in brackets with nothing or a colon after them, or one
without colons before the only colon. -/
theorem isLoopbackHost_iff {v : List Char} :
    isLoopbackHost v = true ↔ ∃ h, isLoopbackLiteral h = true ∧ (v = h ∨ ∃ rest,
      v = '[' :: h ++ ']' :: rest ∧ rest.head?.all (· == ':') = true ∨
        v = h ++ ':' :: rest ∧ ':' ∉ h ++ rest) := by
  have hlit : ∀ h, isLoopbackLiteral h = true → ']' ∉ h ∧ ∃ c t, h = c :: t ∧ c ≠ '[' := by
    simp only [isLoopbackLiteral_iff]
    rintro h ((rfl | rfl) | rfl) <;> simp
  fun_cases isLoopbackHost v
  all_goals
    simp only [Bool.or_eq_true, Option.any_eq_true, Prod.exists, findChar_eq_some]
    grind

theorem colon_notMem {p : List Char} (h : p.all Char.isDigit = true) : ':' ∉ p := by
  intro hmem
  exact absurd (all_eq_true.1 h _ hmem) (by decide)

variable {v p rest : List Char}

/-- With a port: what counts is whether the text after the colon is one. -/
theorem namesLoopback_port {h : List Char} (hh : isLoopbackLiteral h = true ∨ h = "[::1]".toList) :
    namesLoopback (h ++ ':' :: p) = p.all Char.isDigit := by
  rw [isLoopbackLiteral_iff] at hh
  rcases hh with ((rfl | rfl) | rfl) | rfl <;> simp [namesLoopback, isPrefixOf]

theorem namesLoopback_literal {h : List Char} (hh : isLoopbackLiteral h = true) :
    namesLoopback h = true := by
  rw [isLoopbackLiteral_iff] at hh
  rcases hh with (rfl | rfl) | rfl <;> simp [namesLoopback, isPrefixOf]

theorem namesLoopback_bracket {h : List Char}
    (hh : h = "127.0.0.1".toList ∨ h = "localhost".toList) :
    namesLoopback ('[' :: h ++ ']' :: rest) = false := by
  rcases hh with rfl | rfl <;> simp [namesLoopback, isPrefixOf]

/-- `h` with a port. -/
theorem isPrefixOf_colon_iff {h : List Char} :
    (h ++ [':']).isPrefixOf v = true ∧ (v.drop (h.length + 1)).all Char.isDigit = true ↔
      ∃ p, v = h ++ ':' :: p ∧ p.all Char.isDigit = true := by
  rw [ isPrefixOf_iff_prefix]
  constructor
  · rintro ⟨⟨p, rfl⟩, hp⟩
    exact ⟨p, by simp, by simpa using hp⟩
  · rintro ⟨p, rfl, hp⟩
    exact ⟨⟨p, by simp⟩, by simpa using hp⟩

theorem namesLoopback_iff : namesLoopback v = true ↔
    ∃ h, (isLoopbackLiteral h = true ∨ h = "[::1]".toList) ∧
      (v = h ∨ ∃ p, v = h ++ ':' :: p ∧ p.all Char.isDigit = true) := by
  simp only [namesLoopback, any_eq_true, Bool.or_eq_true, Bool.and_eq_true, beq_iff_eq,
    isPrefixOf_colon_iff, isLoopbackLiteral_iff]
  constructor
  · rintro ⟨h, hh, hv⟩
    refine ⟨h.toList, ?_, hv⟩
    simp only [mem_cons, not_mem_nil, or_false] at hh
    rcases hh with rfl | rfl | rfl | rfl <;> simp
  · rintro ⟨h, ((rfl | rfl) | rfl) | rfl, hv⟩
    · exact ⟨"127.0.0.1", by simp, hv⟩
    · exact ⟨"localhost", by simp, hv⟩
    · exact ⟨"::1", by simp, hv⟩
    · exact ⟨"[::1]", by simp, hv⟩

/-- A value judged wrongly is accepted without being a loopback name, or the other way round. -/
theorem Misjudged.differs (h : Misjudged v) : isLoopbackHost v ≠ namesLoopback v := by
  cases h with
  | @port h p hh hp hdigits =>
    have hlit : isLoopbackLiteral h = true := isLoopbackLiteral_iff.2 (.inl hh)
    have hcolon : ':' ∉ h ++ p := by
      rcases hh with rfl | rfl <;> simp [hp]
    rw [namesLoopback_port (.inl hlit), hdigits,
      isLoopbackHost_iff.2 ⟨h, hlit, .inr ⟨p, .inr ⟨rfl, hcolon⟩⟩⟩]
    decide
  | @bracketPort p hdigits =>
    have hnames : namesLoopback ("[::1]".toList ++ ':' :: p) = false := by
      rw [namesLoopback_port (.inr rfl), hdigits]
    have hhost : isLoopbackHost ("[::1]".toList ++ ':' :: p) = true :=
      isLoopbackHost_iff.2 ⟨"::1".toList, by decide, .inr ⟨':' :: p, .inl ⟨by simp, by simp⟩⟩⟩
    rw [show "[::1]:".toList ++ p = "[::1]".toList ++ ':' :: p by simp, hnames, hhost]
    decide
  | @bracket h rest hh hrest =>
    have hlit : isLoopbackLiteral h = true := isLoopbackLiteral_iff.2 (.inl hh)
    rw [namesLoopback_bracket hh, isLoopbackHost_iff.2 ⟨h, hlit, .inr ⟨rest, .inl ⟨rfl, hrest⟩⟩⟩]
    decide
  | @barePort p hdigits =>
    have hnames : namesLoopback ("::1".toList ++ ':' :: p) = true := by
      rw [namesLoopback_port (.inl (by decide)), hdigits]
    rw [show "::1:".toList ++ p = "::1".toList ++ ':' :: p by simp, hnames]
    simp [isLoopbackHost, isLoopbackLiteral, findChar]

/-- An accepted value that is no loopback name is one of the first three shapes. -/
theorem misjudged_of_accepted (h : isLoopbackHost v = true) (hnames : namesLoopback v = false) :
    Misjudged v := by
  obtain ⟨h, hlit, rfl | ⟨rest, ⟨rfl, hrest⟩ | ⟨rfl, hcolon⟩⟩⟩ := isLoopbackHost_iff.1 h
  · rw [namesLoopback_literal hlit] at hnames
    cases hnames
  · rcases isLoopbackLiteral_iff.1 hlit with hh | rfl
    · exact .bracket hh hrest
    · cases rest with
      | nil => exact absurd hnames (by decide)
      | cons c p =>
        obtain rfl : c = ':' := by simpa using hrest
        have hdigits : p.all Char.isDigit = false := by
          rw [← hnames, ← namesLoopback_port (p := p) (.inr rfl)]
          simp
        have hshape := Misjudged.bracketPort hdigits
        simpa using hshape
  · rw [namesLoopback_port (.inl hlit)] at hnames
    rw [mem_append, not_or] at hcolon
    rcases isLoopbackLiteral_iff.1 hlit with hh | rfl
    · exact .port hh hcolon.2 hnames
    · exact absurd hcolon.1 (by decide)

/-- A loopback name that is refused is a bare IPv6 literal with a port. -/
theorem misjudged_of_refused (h : isLoopbackHost v = false) (hnames : namesLoopback v = true) :
    Misjudged v := by
  obtain ⟨h', hh, hv⟩ := namesLoopback_iff.1 hnames
  have haccepts : ¬ isLoopbackHost v = true := by simp [h]
  rw [isLoopbackHost_iff] at haccepts
  rcases hh with hlit | rfl
  · rcases hv with rfl | ⟨p, rfl, hdigits⟩
    · exact absurd ⟨v, hlit, .inl rfl⟩ haccepts
    · rcases isLoopbackLiteral_iff.1 hlit with hh | rfl
      · have hcolon : ':' ∉ h' ++ p := by
          rw [mem_append, not_or]
          refine ⟨?_, colon_notMem hdigits⟩
          rcases hh with rfl | rfl <;> decide
        exact absurd ⟨h', hlit, .inr ⟨p, .inr ⟨rfl, hcolon⟩⟩⟩ haccepts
      · have hshape := Misjudged.barePort hdigits
        simpa using hshape
  · rcases hv with rfl | ⟨p, rfl, hdigits⟩
    · exact absurd h (by decide)
    · exact absurd ⟨"::1".toList, by decide, .inr ⟨':' :: p, .inl ⟨by simp, by simp⟩⟩⟩ haccepts

theorem host_exact_iff : isLoopbackHost v = namesLoopback v ↔ ¬ Misjudged v := by
  constructor
  · intro heq h
    exact h.differs heq
  · intro h
    cases hhost : isLoopbackHost v <;> cases hnames : namesLoopback v
    · rfl
    · exact absurd (misjudged_of_refused hhost hnames) h
    · exact absurd (misjudged_of_accepted hhost hnames) h
    · rfl

/-! ## Origins -/

variable {o s a : List Char}

theorem findSlashes_append (hs : '/' ∉ s) : findSlashes (s ++ '/' :: '/' :: a) = some (s, a) := by
  induction s with
  | nil => rfl
  | cons c s ih =>
    rw [mem_cons, not_or] at hs
    have hstep : findSlashes (c :: (s ++ '/' :: '/' :: a)) =
        (findSlashes (s ++ '/' :: '/' :: a)).map fun p => (c :: p.1, p.2) := by
      rw [findSlashes]
      rintro v rfl
      exact absurd rfl hs.1
    rw [cons_append, hstep, ih hs.2]
    rfl

theorem eq_of_findSlashes (h : findSlashes o = some (s, a)) : o = s ++ '/' :: '/' :: a := by
  fun_induction findSlashes o generalizing s with
  | case1 v =>
    cases h
    rfl
  | case2 c v _ ih =>
    obtain ⟨⟨s, a⟩, hfound, heq⟩ := Option.map_eq_some_iff.1 h
    cases heq
    rw [ih hfound, cons_append]
  | case3 => cases h

theorem notMem_scheme (h : isScheme s = true) : ':' ∉ s ∧ '/' ∉ s := by
  cases s with
  | nil => cases h
  | cons c s =>
    rw [isScheme, Bool.and_eq_true, all_eq_true] at h
    have hno : ∀ d, d.isAlpha = false → (d.isAlphanum || d == '+' || d == '-' || d == '.') = false →
        d ∉ c :: s := by
      intro d halpha hrest hmem
      rcases mem_cons.1 hmem with rfl | hmem
      · rw [h.1] at halpha
        cases halpha
      · rw [h.2 d hmem] at hrest
        cases hrest
    exact ⟨hno ':' (by decide) (by decide), hno '/' (by decide) (by decide)⟩

theorem namesLoopbackOrigin_iff : namesLoopbackOrigin o = true ↔
    ∃ s a, findSlashes o = some (s, a) ∧ BeforeSlashes s ∧ namesLoopback a = true := by
  simp only [namesLoopbackOrigin, Option.any_eq_true, Prod.exists, findChar_eq_some,
    Bool.and_eq_true, isPrefixOf_iff_prefix]
  constructor
  · rintro ⟨scheme, rest, ⟨hcolon, rfl⟩, ⟨hscheme, a, rfl⟩, hnames⟩
    have hslash : '/' ∉ scheme ++ [':'] := by
      simp [(notMem_scheme hscheme).2]
    refine ⟨scheme ++ [':'], a, ?_, ⟨scheme, rfl, hscheme⟩, hnames⟩
    rw [← findSlashes_append hslash]
    simp
  · rintro ⟨-, a, hfound, ⟨scheme, rfl, hscheme⟩, hnames⟩
    refine ⟨scheme, '/' :: '/' :: a, ⟨(notMem_scheme hscheme).1, ?_⟩, ⟨hscheme, a, rfl⟩, hnames⟩
    rw [eq_of_findSlashes hfound]
    simp

theorem origin_exact_iff : isLoopbackOrigin o = namesLoopbackOrigin o ↔ ¬ MisjudgedOrigin o := by
  cases hfound : findSlashes o with
  | none =>
    have hnames : namesLoopbackOrigin o = false := by
      rw [← Bool.not_eq_true, namesLoopbackOrigin_iff, hfound]
      simp
    simp [isLoopbackOrigin, MisjudgedOrigin, hfound, hnames]
  | some p =>
    obtain ⟨s, a⟩ := p
    have hhost : isLoopbackOrigin o = isLoopbackHost a := by
      rw [isLoopbackOrigin, hfound]
      rfl
    have hmis : MisjudgedOrigin o ↔
        BeforeSlashes s ∧ Misjudged a ∨ ¬ BeforeSlashes s ∧ isLoopbackHost a = true := by
      simp [MisjudgedOrigin, hfound]
    have hnames : namesLoopbackOrigin o = true ↔ BeforeSlashes s ∧ namesLoopback a = true := by
      simp [namesLoopbackOrigin_iff, hfound]
    rw [Bool.eq_iff_iff, hhost, hnames, hmis]
    by_cases hs : BeforeSlashes s
    · simp only [hs, true_and, not_true_eq_false, false_and, or_false]
      rw [← Bool.eq_iff_iff]
      exact host_exact_iff
    · simp [hs]

/-! ## The host a value names -/

theorem afterUserInfo_self (h : '@' ∉ v) : afterUserInfo v = v := by
  cases v with
  | nil => rfl
  | cons c v =>
    rw [mem_cons, not_or] at h
    rw [afterUserInfo, if_neg h.2, if_neg (Ne.symm h.1)]

/-- Without user info, an accepted value names no other host. -/
theorem rfcHost_of_accepted (hv : isLoopbackHost v = true) (hat : '@' ∉ v) :
    isLoopbackLiteral (rfcHost v) = true := by
  obtain ⟨h, hlit, rfl | ⟨rest, ⟨rfl, hrest⟩ | ⟨rfl, hcolon⟩⟩⟩ := isLoopbackHost_iff.1 hv
  · rcases isLoopbackLiteral_iff.1 hlit with (rfl | rfl) | rfl <;> decide
  · have hclose : findChar ']' (h ++ ']' :: rest) = some (h, rest) := by
      rw [findChar_eq_some]
      refine ⟨?_, rfl⟩
      rcases isLoopbackLiteral_iff.1 hlit with (rfl | rfl) | rfl <;> decide
    rw [rfcHost, afterUserInfo_self hat, cons_append]
    simpa [hclose] using hlit
  · rw [mem_append, not_or] at hcolon
    have hfirst : findChar ':' (h ++ ':' :: rest) = some (h, rest) :=
      findChar_eq_some.2 ⟨hcolon.1, rfl⟩
    have hopen : ∀ u, h ++ ':' :: rest ≠ '[' :: u := by
      rcases isLoopbackLiteral_iff.1 hlit with (rfl | rfl) | rfl <;> simp
    rw [rfcHost, afterUserInfo_self hat]
    split
    next heq => exact absurd heq (hopen _)
    · simpa [hfirst, hcolon.2, Option.filter_some] using hlit

/-- The guard judges a Host value as it should unless the value has one of the four shapes, and an
Origin unless what follows the first two slashes has one or passes with no scheme before them. An
accepted value without user info names a loopback host. -/
theorem loopback_guard_exact_iff (v : List Char) :
    (isLoopbackHost v = namesLoopback v ↔ ¬ Misjudged v) ∧
    (isLoopbackOrigin v = namesLoopbackOrigin v ↔ ¬ MisjudgedOrigin v) ∧
    (isLoopbackHost v = true → '@' ∉ v → isLoopbackLiteral (rfcHost v) = true) :=
  ⟨host_exact_iff, origin_exact_iff, rfcHost_of_accepted⟩

/-- A value with another host passes, as a Host and in an Origin. -/
theorem loopback_guard_passes_user_info : ∃ v : List Char,
    isLoopbackHost v = true ∧ namesLoopback v = false ∧ rfcHost v = "evil.com".toList ∧
    isLoopbackOrigin ("http://".toList ++ v) = true ∧
    namesLoopbackOrigin ("http://".toList ++ v) = false :=
  ⟨"localhost:x@evil.com".toList, by decide +kernel⟩

end Satellite.Origin
