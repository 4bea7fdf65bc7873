import Satellite.Lib.Interleaving

/-!
# Positions in a program and records beside the state

A chart names the positions of a thread in the programs it runs and gives each the program
that is left from it. An outline is an invariant over the position of one thread and the
shared state that the other threads keep, whatever they issue. A record is history kept
beside the state: it sees every instruction with its answer and restricts none.
-/

namespace Prog

variable {ι : Type} {ρ : ι → Type} {α β : Type}

/-- Every instruction the program may issue satisfies `P`. -/
def Only (P : ι → Prop) : {α : Type} → Prog ι ρ α → Prop
  | _, ret _ => True
  | _, op i k => P i ∧ ∀ r, (k r).Only P
  | _, iter body k => body.Only P ∧ ∀ b, (k b).Only P

variable {P : ι → Prop}

theorem Only.bind {p : Prog ι ρ α} {f : α → Prog ι ρ β} (hp : p.Only P)
    (hf : ∀ a, (f a).Only P) : (p.bind f).Only P := by
  induction p with
  | ret a => exact hf a
  | op i k ih => exact ⟨hp.1, fun r => ih r (hp.2 r) hf⟩
  | iter body k _ ih => exact ⟨hp.1, fun b => ih b (hp.2 b) hf⟩

/-- The next instruction of such a program, and what is left after it. -/
theorem Only.view {p : Prog ι ρ α} (hp : p.Only P) :
    match p.view with
    | .ask i k => P i ∧ ∀ r, (k r).Only P
    | .done _ | .stuck => True := by
  induction p with
  | ret a => trivial
  | op i k _ => exact hp
  | iter body k ihb ihk =>
    have hb := ihb hp.1
    simp only [Prog.view]
    cases hv : body.view with
    | stuck => trivial
    | done o =>
      cases o with
      | none => trivial
      | some b => exact ihk b (hp.2 b)
    | ask i k' =>
      rw [hv] at hb
      refine ⟨hb.1, fun r => (hb.2 r).bind fun o => ?_⟩
      cases o with
      | none => exact hp
      | some b => exact hp.2 b

/-- `q` is what is left of `p` once it has been given some answers. -/
inductive Rest (p : Prog ι ρ α) : Prog ι ρ α → Prop
  | refl : Rest p p
  | step {q : Prog ι ρ α} {i : ι} {k : ρ i → Prog ι ρ α} (r : ρ i) :
      Rest p q → q.view = .ask i k → Rest p (k r)

theorem op_congr {i : ι} {k k' : ρ i → Prog ι ρ α} (h : ∀ r, k r = k' r) : op i k = op i k' := by
  rw [funext h]

theorem bind_congr_right {p : Prog ι ρ α} {f g : α → Prog ι ρ β} (h : ∀ a, f a = g a) :
    p.bind f = p.bind g := by
  rw [funext h]

theorem View.ask_congr {i : ι} {k k' : ρ i → Prog ι ρ α} (h : ∀ r, k r = k' r) :
    View.ask i k = View.ask i k' := by
  rw [funext h]

/-- What a program does next at a position with the given move. -/
def View.ofMove {Φ : Type} (prog : Φ → Prog ι ρ Unit) :
    Option ((i : ι) × (ρ i → Φ)) → View ι ρ Unit
  | none => .done ()
  | some ⟨i, next⟩ => .ask i fun r => prog (next r)

/-- The positions of a thread, each with the program that is left from it. -/
structure Chart (ι : Type) (ρ : ι → Type) where
  Pos : Type
  prog : Pos → Prog ι ρ Unit
  move : Pos → Option ((i : ι) × (ρ i → Pos))
  view_prog : ∀ φ, (prog φ).view = .ofMove prog (move φ)

namespace Chart

variable {C : Chart ι ρ} {φ : C.Pos}

theorem view_of_none (h : C.move φ = none) : (C.prog φ).view = .done () := by
  rw [C.view_prog, h]
  rfl

theorem view_of_some {i : ι} {next : ρ i → C.Pos} (h : C.move φ = some ⟨i, next⟩) :
    (C.prog φ).view = .ask i fun r => C.prog (next r) := by
  rw [C.view_prog, h]
  rfl

/-- The next instruction at a position is the one its program issues. -/
theorem move_of_ask {i : ι} {k : ρ i → Prog ι ρ Unit} (h : (C.prog φ).view = .ask i k) :
    ∃ next, C.move φ = some ⟨i, next⟩ ∧ k = fun r => C.prog (next r) := by
  rw [C.view_prog] at h
  match hmove : C.move φ with
  | none =>
    rw [hmove] at h
    cases h
  | some ⟨j, next⟩ =>
    rw [hmove] at h
    cases h
    exact ⟨next, rfl, rfl⟩

theorem move_of_done (h : (C.prog φ).view = .done ()) : C.move φ = none := by
  rw [C.view_prog] at h
  match hmove : C.move φ with
  | none => rfl
  | some ⟨i, next⟩ =>
    rw [hmove] at h
    cases h

end Chart

end Prog

/-- A program that issues only what may be issued anywhere, for a result that always holds. -/
theorem Machine.wp_of_only {ι : Type} {ρ : ι → Type} {S α : Type} {M : Machine ι ρ S}
    {P : ι → Prop} (hends : ¬ M.ends) (hpre : ∀ i s, P i → M.pre i s) {Q : α → S → Prop}
    (hQ : ∀ a s, Q a s) {p : Prog ι ρ α} (hp : p.Only P) (s : S) : M.wp p Q s := by
  induction p generalizing s with
  | ret a => exact hQ a s
  | op i k ih => exact ⟨hpre i s hp.1, fun r t _ => ih r hQ (hp.2 r) t⟩
  | iter body k ihb ihk =>
    refine ⟨fun _ => True, trivial, fun t _ => ⟨fun he => absurd he hends, ?_⟩⟩
    refine ihb (fun o u => ?_) hp.1 t
    cases o with
    | none => trivial
    | some b => exact ihk b hQ (hp.2 b) u

namespace System

open Prog (Chart)

variable {T ι : Type} {ρ : ι → Type} {S H : Type}

/-- An invariant over the position of thread `w` and the state; the other threads issue only
instructions that satisfy `P`. -/
structure Outline (Y : System T ι ρ S) (w : T) (C : Chart ι ρ) (P : ι → Prop)
    (I : C.Pos → S → Prop) : Prop where
  init : ∀ s, Y.init s → ∃ φ, C.prog φ = .ret () ∧ I φ s
  start : ∀ φ s p, C.move φ = none → I φ s → Y.menu w p → ∃ ψ, C.prog ψ = p ∧ I ψ s
  move : ∀ φ i next s r u, C.move φ = some ⟨i, next⟩ → I φ s → Y.step w i s r u → I (next r) u
  others : ∀ t p, t ≠ w → Y.menu t p → p.Only P
  keep : ∀ φ t i s r u, t ≠ w → P i → I φ s → Y.step t i s r u → I φ u

/-- In every reachable configuration the thread is at a position where the invariant holds. -/
theorem Outline.reach [DecidableEq T] {Y : System T ι ρ S} {w : T} {C : Chart ι ρ} {P : ι → Prop}
    {I : C.Pos → S → Prop} (h : Outline Y w C P I) {c : Config T ι ρ S} (hc : Y.Reach c) :
    (∃ φ, c.prog w = C.prog φ ∧ I φ c.shared) ∧ ∀ t, t ≠ w → (c.prog t).Only P := by
  induction hc with
  | init hs =>
    obtain ⟨φ, hφ, hI⟩ := h.init _ hs
    exact ⟨⟨φ, hφ.symm, hI⟩, fun _ _ => trivial⟩
  | @step c d _ hstep ih =>
    obtain ⟨⟨φ, hφ, hI⟩, hothers⟩ := ih
    cases hstep with
    | start t p hdone hp =>
      by_cases ht : t = w
      · subst ht
        rw [hφ] at hdone
        obtain ⟨ψ, hψ, hI'⟩ := h.start φ _ p (Chart.move_of_done hdone) hI hp
        refine ⟨⟨ψ, by simpa using hψ.symm, hI'⟩, fun o ho => ?_⟩
        simpa [ho] using hothers o ho
      · refine ⟨⟨φ, by simpa [Ne.symm ht] using hφ, hI⟩, fun o ho => ?_⟩
        by_cases hot : o = t
        · subst hot
          simpa using h.others o p ht hp
        · simpa [hot] using hothers o ho
    | act t i k r s hask hact =>
      by_cases ht : t = w
      · subst ht
        rw [hφ] at hask
        obtain ⟨next, hmove, rfl⟩ := Chart.move_of_ask hask
        refine ⟨⟨next r, by simp, h.move φ i next _ r s hmove hI hact⟩, fun o ho => ?_⟩
        simpa [ho] using hothers o ho
      · have hview := (hothers t ht).view
        rw [hask] at hview
        refine ⟨⟨φ, by simpa [Ne.symm ht] using hφ, h.keep φ t i _ r s ht hview.1 hI hact⟩,
          fun o ho => ?_⟩
        by_cases hot : o = t
        · subst hot
          simpa using hview.2 r
        · simpa [hot] using hothers o ho

/-- What the others never issue is issued by the thread, at a position with that move. -/
theorem Outline.ask [DecidableEq T] {Y : System T ι ρ S} {w : T} {C : Chart ι ρ} {P : ι → Prop}
    {I : C.Pos → S → Prop} (h : Outline Y w C P I) {c : Config T ι ρ S} (hc : Y.Reach c) {t : T}
    {i : ι} {k : ρ i → Prog ι ρ Unit} (hask : (c.prog t).view = .ask i k) (hi : ¬ P i) :
    ∃ φ next, C.move φ = some ⟨i, next⟩ ∧ I φ c.shared := by
  obtain ⟨⟨φ, hφ, hI⟩, hothers⟩ := h.reach hc
  by_cases ht : t = w
  · rw [ht, hφ] at hask
    obtain ⟨next, hmove, -⟩ := Chart.move_of_ask hask
    exact ⟨φ, next, hmove, hI⟩
  · have hview := (hothers t ht).view
    rw [hask] at hview
    exact absurd hview.1 hi

/-! ## Runs of one thread -/

section Alone

variable [DecidableEq T]

/-- `d` is reached from `c` by steps of the thread `w` alone. -/
inductive Alone (Y : System T ι ρ S) (w : T) : Config T ι ρ S → Config T ι ρ S → Prop
  | refl (c : Config T ι ρ S) : Alone Y w c c
  | start {c d : Config T ι ρ S} (p : Prog ι ρ Unit) : (c.prog w).view = .done () → Y.menu w p →
      Alone Y w { c with prog := Function.update c.prog w p } d → Alone Y w c d
  | act {c d : Config T ι ρ S} {i : ι} {k : ρ i → Prog ι ρ Unit} (r : ρ i) (s : S) :
      (c.prog w).view = .ask i k → Y.step w i c.shared r s →
      Alone Y w ⟨s, Function.update c.prog w (k r)⟩ d → Alone Y w c d

/-- From a position the thread can come, by steps of its own, to a state with `Q`. -/
inductive Comes (Y : System T ι ρ S) (w : T) (C : Chart ι ρ) (Q : S → Prop) : C.Pos → S → Prop
  | here {φ : C.Pos} {s : S} : Q s → Comes Y w C Q φ s
  | start {φ : C.Pos} {s : S} (ψ : C.Pos) : C.move φ = none → Y.menu w (C.prog ψ) →
      Comes Y w C Q ψ s → Comes Y w C Q φ s
  | move {φ : C.Pos} {s : S} {i : ι} {next : ρ i → C.Pos} (r : ρ i) (u : S) :
      C.move φ = some ⟨i, next⟩ → Y.step w i s r u → Comes Y w C Q (next r) u → Comes Y w C Q φ s

theorem Comes.alone {Y : System T ι ρ S} {w : T} {C : Chart ι ρ} {Q : S → Prop} {φ : C.Pos} {s : S}
    (h : Comes Y w C Q φ s) {c : Config T ι ρ S} (hprog : c.prog w = C.prog φ)
    (hshared : c.shared = s) : ∃ d, Y.Alone w c d ∧ Q d.shared := by
  induction h generalizing c with
  | here hQ => exact ⟨c, .refl c, hshared ▸ hQ⟩
  | start ψ hmove hmenu _ ih =>
    obtain ⟨d, hd, hQ⟩ := @ih { c with prog := Function.update c.prog w (C.prog ψ) } (by simp) hshared
    exact ⟨d, .start _ (by rw [hprog, Chart.view_of_none hmove]) hmenu hd, hQ⟩
  | @move φ s i next r u hmove hstep _ ih =>
    obtain ⟨d, hd, hQ⟩ := @ih ⟨u, Function.update c.prog w (C.prog (next r))⟩ (by simp) rfl
    refine ⟨d, .act r u (k := fun r => C.prog (next r)) ?_ (hshared ▸ hstep) hd, hQ⟩
    rw [hprog, Chart.view_of_some hmove]

end Alone

/-! ## Records -/

/-- The system with a record of what was issued and answered. -/
def record (Y : System T ι ρ S) (note : (i : ι) → ρ i → H → H) (blank : H) :
    System T ι ρ (S × H) where
  init s := Y.init s.1 ∧ s.2 = blank
  step t i s r u := Y.step t i s.1 r u.1 ∧ u.2 = note i r s.2
  menu := Y.menu

end System
