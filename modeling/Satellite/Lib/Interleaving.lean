import Satellite.Lib.Program

/-!
# Interleaved programs, rely and guarantee

Threads run programs one instruction at a time over a shared state and pick a
new program when they are done. A protocol gives the shared state an invariant,
every thread what it may rely on and every instruction what its issuer has to
establish; if every program a thread can pick is safe over the machine that lets
the others move after each instruction, every reachable configuration is safe. An
executor carries out a schedule, which then leads to a reachable configuration.
-/

namespace Prog

variable {ι : Type} {ρ : ι → Type} {α β : Type}

/-- What a program does next. -/
inductive View (ι : Type) (ρ : ι → Type) (α : Type) : Type 1
  | done (a : α)
  | ask (i : ι) (k : ρ i → Prog ι ρ α)
  /-- A loop whose body issues nothing and never answers. -/
  | stuck

/-- The next instruction of a program; a loop is unfolded once. -/
def view : {α : Type} → Prog ι ρ α → View ι ρ α
  | _, ret a => .done a
  | _, op i k => .ask i k
  | _, iter body k =>
    match body.view with
    | .done (some b) => (k b).view
    | .done none => .stuck
    | .ask i k' => .ask i fun r => (k' r).bind fun o => o.elim (iter body k) k
    | .stuck => .stuck

end Prog

namespace Machine

variable {ι : Type} {ρ : ι → Type} {S A : Type} {α : Type}

/-- The weakest precondition seen from the next instruction. -/
theorem wp_view {M : Machine ι ρ S} {p : Prog ι ρ α} {Q : α → S → Prop} {s : S}
    (h : M.wp p Q s) :
    match p.view with
    | .done a => Q a s
    | .ask i k => M.pre i s ∧ ∀ r t, M.step i s r t → M.wp (k r) Q t
    | .stuck => True := by
  induction p generalizing s with
  | ret a => exact h
  | op i k _ => exact h
  | iter body k ihb ihk =>
    obtain ⟨I, hI, hbody⟩ := h
    have hb := ihb (hbody s hI).2
    simp only [Prog.view]
    cases hv : body.view with
    | stuck => trivial
    | done o =>
      cases o with
      | none => trivial
      | some b =>
        rw [hv] at hb
        exact ihk b hb
    | ask i k' =>
      rw [hv] at hb
      refine ⟨hb.1, fun r t ht => ?_⟩
      rw [wp_bind]
      refine wp_mono (hb.2 r t ht) fun o t' ho => ?_
      cases o with
      | none => exact ⟨I, ho, hbody⟩
      | some b => exact ho

end Machine

/-- Threads `T` over a shared state: how each executes an instruction and what it may run. -/
structure System (T ι : Type) (ρ : ι → Type) (S : Type) where
  init : S → Prop
  step : T → (i : ι) → S → ρ i → S → Prop
  menu : T → Prog ι ρ Unit → Prop

namespace System

variable {T ι : Type} {ρ : ι → Type} {S : Type}

/-- The shared state and what is left of every thread's program. -/
structure Config (T ι : Type) (ρ : ι → Type) (S : Type) : Type 1 where
  shared : S
  prog : T → Prog ι ρ Unit

/-- One step of the interleaving: a thread starts a program, or issues its next instruction. -/
inductive Step [DecidableEq T] (Y : System T ι ρ S) : Config T ι ρ S → Config T ι ρ S → Prop
  | start {c : Config T ι ρ S} (t : T) (p : Prog ι ρ Unit) :
      (c.prog t).view = .done () → Y.menu t p →
      Step Y c { c with prog := Function.update c.prog t p }
  | act {c : Config T ι ρ S} (t : T) (i : ι) (k : ρ i → Prog ι ρ Unit) (r : ρ i) (s : S) :
      (c.prog t).view = .ask i k → Y.step t i c.shared r s →
      Step Y c ⟨s, Function.update c.prog t (k r)⟩

/-- Reachable configurations: every thread starts out with nothing to run. -/
inductive Reach [DecidableEq T] (Y : System T ι ρ S) : Config T ι ρ S → Prop
  | init {s : S} : Y.init s → Reach Y ⟨s, fun _ => .ret ()⟩
  | step {c d : Config T ι ρ S} : Reach Y c → Step Y c d → Reach Y d

/-- A system that may start, pick and step as `Y` does reaches what `Y` reaches. -/
theorem Reach.mono [DecidableEq T] {Y Z : System T ι ρ S} {c : Config T ι ρ S} (hc : Y.Reach c)
    (init : ∀ s, Y.init s → Z.init s) (step : ∀ t i s r u, Y.step t i s r u → Z.step t i s r u)
    (menu : ∀ t p, Y.menu t p → Z.menu t p) : Z.Reach c := by
  induction hc with
  | init hs => exact .init (init _ hs)
  | step _ hstep ih =>
    cases hstep with
    | start t p hdone hp => exact .step ih (.start t p hdone (menu t p hp))
    | act t i k r s hask hact => exact .step ih (.act t i k r s hask (step t i _ r s hact))

/-- The runs all of whose steps satisfy `G`. -/
def restrict (Y : System T ι ρ S) (G : S → S → Prop) : System T ι ρ S where
  init := Y.init
  step t i s r u := Y.step t i s r u ∧ G s u
  menu := Y.menu

theorem Reach.of_restrict [DecidableEq T] {Y : System T ι ρ S} {G : S → S → Prop}
    {c : Config T ι ρ S} (hc : (Y.restrict G).Reach c) : Y.Reach c :=
  hc.mono (fun _ => id) (fun _ _ _ _ _ hstep => hstep.1) fun _ _ => id

theorem Reach.restrict [DecidableEq T] {Y : System T ι ρ S} {G : S → S → Prop}
    (hG : ∀ s u, G s u) {c : Config T ι ρ S} (hc : Y.Reach c) : (Y.restrict G).Reach c :=
  hc.mono (fun _ => id) (fun _ _ _ _ _ hstep => ⟨hstep, hG _ _⟩) fun _ _ => id

/-- The runs in which every instruction is issued in a state where `G` allows it. -/
def allow (Y : System T ι ρ S) (G : ι → S → Prop) : System T ι ρ S where
  init := Y.init
  step t i s r u := Y.step t i s r u ∧ G i s
  menu := Y.menu

theorem Reach.of_allow [DecidableEq T] {Y : System T ι ρ S} {G : ι → S → Prop}
    {c : Config T ι ρ S} (hc : (Y.allow G).Reach c) : Y.Reach c :=
  hc.mono (fun _ => id) (fun _ _ _ _ _ hstep => hstep.1) fun _ _ => id

/-- An invariant of the shared state with what each thread relies on and has to establish. -/
structure Protocol (Y : System T ι ρ S) where
  inv : S → Prop
  rely : T → S → S → Prop
  pre : T → ι → S → Prop
  idle : T → S → Prop
  rely_refl : ∀ t s, rely t s s
  rely_trans : ∀ t s u v, rely t s u → rely t u v → rely t s v
  init : ∀ s, Y.init s → inv s ∧ ∀ t u, rely t s u → idle t u
  guarantee : ∀ t i s r u, inv s → pre t i s → Y.step t i s r u →
    inv u ∧ ∀ o, o ≠ t → rely o s u

namespace Protocol

variable {Y : System T ι ρ S} (P : Protocol Y)

/-- Thread `t` issuing one instruction, after which the others move as `t` relies on. -/
def machine (t : T) : Machine ι ρ S where
  pre i s := P.pre t i s
  step i s r u := P.inv s ∧ P.inv u ∧ ∃ m, Y.step t i s r m ∧ P.inv m ∧ P.rely t m u

/-- A program of thread `t` is safe wherever the others may have taken the state. -/
def Safe (t : T) (p : Prog ι ρ Unit) (s : S) : Prop :=
  ∀ u, P.rely t s u → P.inv u → (P.machine t).wp p (fun _ v => P.idle t v) u

variable {P}

theorem Safe.mono {t : T} {p : Prog ι ρ Unit} {s u : S} (h : P.Safe t p s)
    (hsu : P.rely t s u) : P.Safe t p u :=
  fun v huv hv => h v (P.rely_trans t s u v hsu huv) hv

/-- One instruction of a program: others may have moved before the rest of it runs. -/
theorem wp_call {t : T} {α : Type} (i : ι) {k : ρ i → Prog ι ρ α} {Q : α → S → Prop} {s : S}
    (hpre : P.pre t i s)
    (h : ∀ r m u, Y.step t i s r m → P.inv m → P.rely t m u → P.inv u →
      (P.machine t).wp (k r) Q u) :
    (P.machine t).wp ((Prog.call i).bind k) Q s :=
  ⟨hpre, fun r u ⟨_, hu, m, hm, hinv, hrely⟩ => h r m u hm hinv hrely hu⟩

/-- If what every thread can pick is safe, so is every reachable configuration. -/
theorem reach_safe [DecidableEq T]
    (hmenu : ∀ t p s, Y.menu t p → P.inv s → P.idle t s →
      (P.machine t).wp p (fun _ v => P.idle t v) s)
    {c : Config T ι ρ S} (hc : Y.Reach c) :
    P.inv c.shared ∧ ∀ t, P.Safe t (c.prog t) c.shared := by
  induction hc with
  | init hs =>
    obtain ⟨hinv, hidle⟩ := P.init _ hs
    exact ⟨hinv, fun t u hu _ => hidle t u hu⟩
  | @step c d _ hstep ih =>
    obtain ⟨hinv, hsafe⟩ := ih
    cases hstep with
    | start t p hdone hp =>
      refine ⟨hinv, fun o => ?_⟩
      by_cases ho : o = t
      · subst ho
        intro u hu hui
        have hidle := Machine.wp_view (hsafe o u hu hui)
        rw [hdone] at hidle
        simpa using hmenu o p u hp hui hidle
      · simpa [ho] using hsafe o
    | act t i k r s hask hact =>
      have hview := Machine.wp_view (hsafe t c.shared (P.rely_refl t _) hinv)
      rw [hask] at hview
      obtain ⟨hinv', hrely⟩ := P.guarantee t i _ r s hinv hview.1 hact
      refine ⟨hinv', fun o => ?_⟩
      by_cases ho : o = t
      · subst ho
        intro u hu hui
        simpa using hview.2 r u ⟨hinv, hui, s, hact, hinv', hu⟩
      · simpa [ho] using (hsafe o).mono (hrely o ho)

/-- In a safe configuration every instruction is issued where it may be. -/
theorem pre_of_ask {c : Config T ι ρ S} (hinv : P.inv c.shared)
    (hsafe : ∀ t, P.Safe t (c.prog t) c.shared) {t : T} {i : ι} {k : ρ i → Prog ι ρ Unit}
    (hask : (c.prog t).view = .ask i k) : P.pre t i c.shared := by
  have hview := Machine.wp_view (hsafe t c.shared (P.rely_refl t _) hinv)
  rw [hask] at hview
  exact hview.1

end Protocol

/-! ## Runs that are carried out -/

/-- Carries out the instructions of a system, given a choice for what each leaves open. -/
structure Executor (Y : System T ι ρ S) (C : Type) where
  exec : S → C → (i : ι) → Option (ρ i × S)
  sound : ∀ t s x i r u, exec s x i = some (r, u) → Y.step t i s r u

/-- A thread picks a program, or takes its next step with a choice. -/
inductive Move (Y : System T ι ρ S) (C : Type) : Type 1
  | start (t : T) (p : Prog ι ρ Unit) (hp : Y.menu t p)
  | act (t : T) (x : C)

namespace Executor

variable [DecidableEq T] {C : Type} {Y : System T ι ρ S} (E : Y.Executor C)

def move (c : Config T ι ρ S) : Y.Move C → Option (Config T ι ρ S)
  | .start t p _ =>
    match (c.prog t).view with
    | .done _ => some { c with prog := Function.update c.prog t p }
    | _ => none
  | .act t x =>
    match (c.prog t).view with
    | .ask i k => (E.exec c.shared x i).map fun a => ⟨a.2, Function.update c.prog t (k a.1)⟩
    | _ => none

/-- A schedule names the threads in the order in which they move. -/
def perform (c : Config T ι ρ S) : List (Y.Move C) → Option (Config T ι ρ S)
  | [] => some c
  | m :: ms => (E.move c m).bind fun d => perform d ms

variable {E}

theorem step_of_move {c d : Config T ι ρ S} {m : Y.Move C} (h : E.move c m = some d) :
    Y.Step c d := by
  cases m with
  | start t p hp =>
    simp only [move] at h
    split at h
    next hview =>
      cases h
      exact .start t p hview hp
    · cases h
  | act t x =>
    simp only [move] at h
    split at h
    next i k hview =>
      obtain ⟨⟨r, u⟩, hexec, rfl⟩ := Option.map_eq_some_iff.1 h
      exact .act t i k r u hview (E.sound t _ x i r u hexec)
    · cases h

/-- A schedule that can be carried out leads to a reachable configuration. -/
theorem reach_perform {c d : Config T ι ρ S} {ms : List (Y.Move C)} (hc : Y.Reach c)
    (h : E.perform c ms = some d) : Y.Reach d := by
  induction ms generalizing c with
  | nil =>
    cases h
    exact hc
  | cons m ms ih =>
    obtain ⟨e, hm, he⟩ := Option.bind_eq_some_iff.1 h
    exact ih (.step hc (step_of_move hm)) he

end Executor

end System
