import Mathlib.Logic.Function.Basic
import Mathlib.Logic.Relation

/-!
# Waking a worker

`WorkerWake` of `core/worker_wake.h` between any number of producers and one worker, one
atomic access at a time. The worker of the pointer (frames, commands, stopping) and that of
the microphone (packets, sweeps, stopping) look at their sources of work one after the other.
A wake-up that is due is always somewhere: in the flag, in a permit, or with a producer that
is still in `notify`.
-/

namespace Satellite.Wake

open Function (update update_self update_of_ne)

/-- Where the worker is: in its loop, in `sleepUnless` with so many sources found empty, in
`acquire`, or before the last store. -/
inductive WorkerAt
  | looping
  | checking (found : Nat)
  | acquiring
  | waking

/-- Where a producer is: outside, or in `notify` before its load, its exchange or its
release. -/
inductive ProducerAt
  | idle
  | loading
  | exchanging
  | releasing

structure State (τ : Type) (sources : Nat) where
  sleeping : Bool := false
  permits : Nat := 0
  work : Fin sources → Nat := fun _ => 0
  worker : WorkerAt := .looping
  producers : τ → ProducerAt := fun _ => .idle

variable {τ : Type} {sources : Nat}

def State.put [DecidableEq τ] (s : State τ sources) (p : τ) (next : ProducerAt) : State τ sources :=
  { s with producers := update s.producers p next }

/-- One atomic access. In its loop the worker takes any part of its work, and it may go to
sleep with some of it left. -/
inductive Step [DecidableEq τ] (s : State τ sources) : State τ sources → Prop
  | add (p : τ) (i : Fin sources) (n : Nat) : s.producers p = .idle →
      Step s ({ s with work := update s.work i (s.work i + n) }.put p .loading)
  | load (p : τ) : s.producers p = .loading →
      Step s (s.put p (if s.sleeping then .exchanging else .idle))
  | exchange (p : τ) : s.producers p = .exchanging →
      Step s ({ s with sleeping := false }.put p (if s.sleeping then .releasing else .idle))
  | release (p : τ) : s.producers p = .releasing →
      Step s ({ s with permits := s.permits + 1 }.put p .idle)
  | drain (i : Fin sources) (n : Nat) : s.worker = .looping → n ≤ s.work i →
      Step s { s with work := update s.work i n }
  | sleep : s.worker = .looping → Step s { s with sleeping := true, worker := .checking 0 }
  | check (i : Fin sources) : s.worker = .checking i →
      Step s { s with worker := if s.work i = 0 then .checking (i + 1) else .waking }
  | empty : s.worker = .checking sources → Step s { s with worker := .acquiring }
  | acquire (n : Nat) : s.worker = .acquiring → s.permits = n + 1 →
      Step s { s with permits := n, worker := .waking }
  | wake : s.worker = .waking → Step s { s with sleeping := false, worker := .looping }

/-- The worker sleeps on pending work, and nobody is left to wake it. -/
structure Lost (s : State τ sources) : Prop where
  acquiring : s.worker = .acquiring
  permits : s.permits = 0
  work : ∃ i, s.work i ≠ 0
  producers : ∀ p, s.producers p = .idle

/-- How many sources the worker has found empty since it announced its sleep. -/
def WorkerAt.found (sources : Nat) : WorkerAt → Option Nat
  | .checking found => some found
  | .acquiring => some sources
  | .looping | .waking => none

/-- While the worker goes to sleep: unless the flag is up, a permit is there or on its way; and
while the flag is up, work in a source already looked at has a producer in `notify`. -/
structure Due (s : State τ sources) (found : Nat) : Prop where
  armed : s.sleeping = true ∨ 0 < s.permits ∨ ∃ p, s.producers p = .releasing
  seen : ∀ i : Fin sources, i < found → s.work i ≠ 0 → s.sleeping = true →
    ∃ p, s.producers p = .loading ∨ s.producers p = .exchanging

def Inv (s : State τ sources) : Prop := ∀ found, s.worker.found sources = some found → Due s found

variable [DecidableEq τ] {s s' : State τ sources}

/-- A producer at another position than `p` is left where it is. -/
theorem put_of_ne {p q : τ} {here there next : ProducerAt} (hp : s.producers p = here)
    (hne : here ≠ there) (hq : s.producers q = there) : (s.put p next).producers q = there := by
  have hother : q ≠ p := by
    rintro rfl
    exact hne (hp.symm.trans hq)
  exact (update_of_ne hother ..).trans hq

theorem Inv.step (h : Inv s) (hs : Step s s') : Inv s' := by
  cases hs with
  | add p i n hp =>
    intro found hfound
    refine ⟨(h found hfound).armed.imp_right (.imp_right ?_), fun _ _ _ _ => ?_⟩
    · exact fun ⟨q, hq⟩ => ⟨q, put_of_ne hp nofun hq⟩
    · exact ⟨p, .inl (update_self ..)⟩
  | load p hp =>
    intro found hfound
    refine ⟨(h found hfound).armed.imp_right (.imp_right ?_), fun _ _ _ hsleeping => ?_⟩
    · exact fun ⟨q, hq⟩ => ⟨q, put_of_ne hp nofun hq⟩
    · exact ⟨p, .inr ((update_self ..).trans (if_pos hsleeping))⟩
  | exchange p hp =>
    intro found hfound
    refine ⟨.inr ?_, nofun⟩
    cases hsleeping : s.sleeping with
    | true => exact .inr ⟨p, update_self ..⟩
    | false =>
      have harmed := (h found hfound).armed.resolve_left (by rw [hsleeping]; nofun)
      exact harmed.imp_right fun ⟨q, hq⟩ => ⟨q, put_of_ne hp nofun hq⟩
  | release p hp =>
    intro found hfound
    refine ⟨.inr (.inl (Nat.succ_pos _)), fun i hi hwork hsleeping => ?_⟩
    obtain ⟨q, hq⟩ := (h found hfound).seen i hi hwork hsleeping
    exact ⟨q, hq.imp (put_of_ne hp nofun) (put_of_ne hp nofun)⟩
  | drain i n hworker _ =>
    intro found hfound
    rw [show s.worker = _ from hworker] at hfound
    cases hfound
  | sleep _ =>
    rintro found ⟨⟩
    exact ⟨.inl rfl, nofun⟩
  | check i hworker =>
    intro found hfound
    obtain ⟨harmed, hseen⟩ := h i (by rw [hworker]; rfl)
    refine ⟨harmed, fun j hj hwork hsleeping => ?_⟩
    split at hfound
    next hempty =>
      cases hfound
      -- the source just looked at is empty, those before it are as they were
      rcases Nat.lt_succ_iff_lt_or_eq.mp hj with hj | hj
      · exact hseen j hj hwork hsleeping
      · exact absurd (Fin.ext hj ▸ hempty) hwork
    · cases hfound
  | empty hworker =>
    rintro found ⟨⟩
    obtain ⟨harmed, hseen⟩ := h sources (by rw [hworker]; rfl)
    exact ⟨harmed, hseen⟩
  | acquire n _ _ | wake _ => nofun

/-- In no reachable state does the worker sleep on pending work with nobody to wake it. -/
theorem no_lost_wakeup (hs : Relation.ReflTransGen Step ({} : State τ sources) s) : ¬ Lost s := by
  have hinv : Inv s := by
    induction hs with
    | refl => nofun
    | tail _ hstep ih => exact ih.step hstep
  intro hlost
  obtain ⟨harmed, hseen⟩ := hinv sources (by rw [hlost.acquiring]; rfl)
  have hidle := hlost.producers
  have hsleeping : s.sleeping = true := by
    rcases harmed with hsleeping | hpermit | ⟨p, hp⟩
    · exact hsleeping
    · exact absurd hlost.permits (Nat.ne_of_gt hpermit)
    · cases (hidle p).symm.trans hp
  obtain ⟨i, hwork⟩ := hlost.work
  obtain ⟨p, hp | hp⟩ := hseen i i.isLt hwork hsleeping
  · cases (hidle p).symm.trans hp
  · cases (hidle p).symm.trans hp

/-- The worker is asleep when a producer adds work. -/
theorem no_lost_wakeup_asleep : ∃ s : State Unit 1,
    Relation.ReflTransGen Step {} s ∧ s.worker = .acquiring ∧ s.work 0 = 1 ∧ ¬ Lost s := by
  have h : Relation.ReflTransGen Step ({} : State Unit 1) _ := .refl
  have h := h.tail (.sleep rfl)
  have h := h.tail (.check 0 rfl)
  have h := h.tail (.empty rfl)
  have h := h.tail (.add () 0 1 rfl)
  exact ⟨_, h, rfl, rfl, no_lost_wakeup h⟩

end Satellite.Wake
