import Satellite.Config.Durable

/-!
# The last save

`stop` sets `stopping_` and joins the saver. Wherever the saver waits it then goes on to one
more attempt, and the attempt it has taken by then, if any, is followed by another one when
it succeeds. When it fails, the saver finds `stopping_` set and leaves: the snapshot that
was not saved is not tried again. A `stop` that finds the thread already taken out of
`saver_` waits for nothing.
-/

namespace Satellite.Configuration

open List

variable {α : Type} {s t : State α} {initial : α} {call : StopCall}

/-- Since the call of `stop`, `persist_` was called with a snapshot no older than the newest
one at the call; or such a snapshot has been saved. -/
def StopCall.Served (call : StopCall) (l : Log α) : Prop :=
  (∃ i g a, call.attempts ≤ i ∧ l.attempts[i]? = some (g, a) ∧ call.current ≤ g) ∨
    ∃ g ∈ l.successes, call.current ≤ g

/-- An attempt that was taken before the stop has failed, and the saver, which has still to
take the mutex back, will find `stopping_` set. -/
def Abandoned (s : State α) : Prop :=
  ∃ a, s.saver = .returned a false ∧ a.finalAttempt = false ∧ s.store.stopping = true

/-- The runs in which the attempt under way at a stop, if there is one, succeeds. -/
def Unabandoned (initial : α) : State α → Prop :=
  Relation.ReflTransGen (fun s t => Step s t ∧ ¬ Abandoned t) (State.init initial)

theorem Unabandoned.reachable (h : Unabandoned initial s) : Reachable initial s :=
  Relation.ReflTransGen.mono (fun _ _ st => st.1) _ _ h

theorem Unabandoned.next (h : Unabandoned initial s) (st : Step s t)
    (hsaver : ∀ a, t.saver = .returned a false → a.finalAttempt = true) : Unabandoned initial t :=
  h.tail ⟨st, fun ⟨a, ha, hf, _⟩ => Bool.false_ne_true (hf.symm.trans (hsaver a ha))⟩

theorem Unabandoned.not_abandoned (h : Unabandoned initial s) : ¬ Abandoned s := by
  cases h with
  | refl =>
    rintro ⟨a, ha, -⟩
    cases ha
  | tail _ st => exact st.2

/-- The attempt the saver has under way. -/
def Saver.attempt : Saver α → Option (Attempt α)
  | .taken a | .persisting a | .returned a _ => some a
  | _ => none

/-- With `stopping_` set, the saver has still to begin an attempt for the call. -/
def Saver.Due (call : StopCall) : Saver α → Prop
  | .ended => False
  | .taken a => a.finalAttempt = false ∨ call.current ≤ a.saving
  | .persisting a | .returned a _ => a.finalAttempt = false
  | _ => True

/-! ## What a step leaves of a call -/

structure Grows (s t : State α) : Prop where
  versions : s.log.versions.length ≤ t.log.versions.length
  generation : s.store.generation ≤ t.store.generation
  attempts : s.log.attempts <+: t.log.attempts
  successes : s.log.successes <+: t.log.successes
  stopping : s.store.stopping = true → t.store.stopping = true

theorem Step.grows (st : Step s t) : Grows s t := by
  cases st with
  | publish hc =>
    refine ⟨?_, Nat.le_refl _, prefix_rfl, prefix_rfl, id⟩
    rw [length_append]
    exact Nat.le_add_right _ _
  | count hc => exact ⟨Nat.le_refl _, Nat.le_succ _, prefix_rfl, prefix_rfl, id⟩
  | flushAtOnce hc hw hf | flushWait hc hw hf =>
    have e := (hf ▸ s.store.flushes).framed
    exact ⟨Nat.le_refl _, Nat.le_of_eq e.generation.symm, prefix_rfl, prefix_rfl, e.stopping.trans⟩
  | saverTurn hw ht =>
    have e := (ConfigStore.turns ht).framed
    exact ⟨Nat.le_refl _, Nat.le_of_eq e.generation.symm, prefix_rfl, prefix_rfl, e.stopping.trans⟩
  | persist hp => exact ⟨Nat.le_refl _, Nat.le_refl _, prefix_append _ _, prefix_rfl, id⟩
  | persistSucceeds hp => exact ⟨Nat.le_refl _, Nat.le_refl _, prefix_rfl, prefix_append _ _, id⟩
  | stopJoin hc hw hj | stopAtOnce hc hw hj =>
    exact ⟨Nat.le_refl _, Nat.le_refl _, prefix_rfl, prefix_rfl, fun _ => rfl⟩
  | _ => exact ⟨Nat.le_refl _, Nat.le_refl _, prefix_rfl, prefix_rfl, id⟩

theorem StopCall.Served.grow (h : call.Served s.log) (e : Grows s t) : call.Served t.log := by
  rcases h with ⟨i, g, a, hi, ha, hg⟩ | ⟨g, hmem, hg⟩
  · refine .inl ⟨i, g, a, hi, ?_, hg⟩
    obtain ⟨more, hmore⟩ := e.attempts
    rw [← hmore, getElem?_append_left (List.getElem?_eq_some_iff.1 ha).1]
    exact ha
  · exact .inr ⟨g, e.successes.subset hmem, hg⟩

/-- What the saver has recorded as saved serves every call whose snapshot it covers. -/
theorem State.Saved.served (h : s.Saved) (hpos : 0 < call.current)
    (hle : call.current ≤ s.store.persistedGeneration) : call.Served s.log := by
  rcases h.covers hle with h0 | hg
  · omega
  · exact .inr hg

variable {r : ConfigStore α × Saver α}

variable {c : ConfigStore α} {failures : Nat}

/-- The head of the loop with `stopping_` set. -/
theorem due_of_loops
    (hl : c.Loops failures r) (hs : c.stopping = true) (hle : call.current ≤ c.generation) :
    call.current ≤ c.persistedGeneration ∨ r.2.Due call := by
  cases hl with
  | wait hs' hg | delay hs' hg hf => cases hs.symm.trans hs'
  | leave _ hg => exact .inl (hg ▸ hle)
  | take hg => exact .inr (.inr hle)

/-- With `stopping_` set the saver leaves only once the call is served, unless it abandons a
failed attempt. -/
theorem due_of_turns (h : s.Saved) (hna : ¬ Abandoned s) (hs : s.store.stopping = true)
    (hpos : 0 < call.current) (hle : call.current ≤ s.store.generation)
    (ht : s.store.Turns s.saver r) (hdue : s.saver.Due call) :
    call.Served s.log ∨ r.2.Due call := by
  generalize hsaver : s.saver = p at ht hdue
  cases ht with
  | waiting hl | retrying hl => exact (due_of_loops hl hs hle).imp_left (h.served hpos)
  | delayed => exact .inr (.inr hle)
  | @saved a r hf hl =>
    -- the snapshot just saved serves the call, or the loop goes on to a newer one
    refine (due_of_loops hl hs hle).imp_left fun hc => ?_
    exact .inr ⟨a.saving, h.returned a hsaver, hc⟩
  | savedLast hf => cases hf.symm.trans hdue
  | @failedLast a hs' => exact absurd ⟨a, hsaver, hdue, hs⟩ hna
  | failed hs' => cases hs.symm.trans hs'

/-- One step of any thread, seen from a call that the saver has still to serve. -/
theorem due_of_step (h : s.Saved) (hna : ¬ Abandoned s) (hs : s.store.stopping = true)
    (hpos : 0 < call.current) (hle : call.current ≤ s.store.generation)
    (hattempts : call.attempts ≤ s.log.attempts.length) (st : Step s t)
    (hdue : s.saver.Due call) : call.Served t.log ∨ t.saver.Due call := by
  cases st with
  | saverTurn hw ht => exact due_of_turns h hna hs hpos hle (ConfigStore.turns ht) hdue
  | @persist a hp =>
    rw [hp] at hdue
    rcases hdue with hf | hc
    · exact .inr hf
    · exact .inl (.inl ⟨_, a.saving, a.snapshot, hattempts, getElem?_concat_length, hc⟩)
  | persistFails hp | persistSucceeds hp =>
    rw [hp] at hdue
    exact .inr hdue
  | _ => exact .inr hdue

/-! ## The calls of `stop` -/

/-- What holds of a call of `stop` on its way. -/
def Caller.Closes (s : State α) : Caller α → Prop
  | .stopping call =>
    call.current < s.log.versions.length ∧ call.attempts ≤ s.log.attempts.length
  | .joining call =>
    s.store.stopping = true ∧ call.current ≤ s.store.generation ∧
      call.attempts ≤ s.log.attempts.length ∧
      (0 < call.current → call.Served s.log ∨ s.saver.Due call)
  | _ => True

structure Closing (s : State α) : Prop where
  /-- Until a `stop` takes the thread, the saver runs and no attempt is the final one. -/
  unstopped : s.store.saver = true → s.store.stopping = false ∧ s.saver ≠ .ended
  final : ∀ a, s.saver.attempt = some a → a.finalAttempt = true → s.store.stopping = true
  closes : ∀ n, (s.callers n).Closes s
  stopped : ∀ call, (call, true) ∈ s.log.stopped → 0 < call.current → call.Served s.log

theorem Caller.Closes.step {p : Caller α} (hp : p.Closes s) (h : s.Saved) (hna : ¬ Abandoned s)
    (st : Step s t) : p.Closes t := by
  have e := st.grows
  cases p with
  | stopping call =>
    obtain ⟨hc, ha⟩ := hp
    exact ⟨Nat.lt_of_lt_of_le hc e.versions, Nat.le_trans ha e.attempts.length_le⟩
  | joining call =>
    obtain ⟨hs, hc, ha, hserved⟩ := hp
    refine ⟨e.stopping hs, Nat.le_trans hc e.generation,
      Nat.le_trans ha e.attempts.length_le, fun hpos => ?_⟩
    rcases hserved hpos with hserved | hdue
    · exact .inl (hserved.grow e)
    · exact due_of_step h hna hs hpos hc ha st hdue
  | _ => trivial

/-- A stop that takes the thread finds a saver that has every attempt of its own to make. -/
theorem Closing.due (h : Closing s) (hj : s.store.saver = true) (call : StopCall) :
    s.saver.Due call := by
  obtain ⟨hs, hne⟩ := h.unstopped hj
  have hfinal : ∀ a, s.saver.attempt = some a → a.finalAttempt = false := fun a ha => by
    cases hf : a.finalAttempt with
    | false => rfl
    | true => cases hs.symm.trans (h.final a ha hf)
  cases hsaver : s.saver with
  | ended => exact hne hsaver
  | taken a => exact .inl (hfinal a (by rw [hsaver]; rfl))
  | persisting a | returned a saved => exact hfinal a (by rw [hsaver]; rfl)
  | _ => trivial

theorem loops_ended
    (hl : c.Loops failures r) (hs : c.stopping = false) : r.2 ≠ .ended := by
  cases hl with
  | leave hs' hg => cases hs.symm.trans hs'
  | _ => nofun

theorem loops_final
    (hl : c.Loops failures r) {a : Attempt α} (ha : r.2.attempt = some a) :
    a.finalAttempt = c.stopping := by
  cases hl with
  | take hg =>
    cases ha
    rfl
  | _ => cases ha

/-- The saver leaves only when it is told to. -/
theorem Closing.turn_ended (h : Closing s) (hs : s.store.stopping = false)
    (ht : s.store.Turns s.saver r) : r.2 ≠ .ended := by
  generalize hsaver : s.saver = p at ht
  cases ht with
  | waiting hl | retrying hl | saved hf hl => exact loops_ended hl hs
  | savedLast hf => cases hs.symm.trans (h.final _ (by rw [hsaver]; rfl) hf)
  | failedLast hs' => cases hs.symm.trans hs'
  | _ => nofun

theorem Closing.turn_final (ht : s.store.Turns s.saver r)
    {a : Attempt α} (ha : r.2.attempt = some a) : a.finalAttempt = s.store.stopping := by
  generalize s.saver = p at ht
  cases ht with
  | waiting hl | retrying hl | saved hf hl => exact loops_final hl ha
  | delayed =>
    cases ha
    rfl
  | _ => cases ha

/-- The thread `n` goes on where the saver and its flags stay as they are. -/
theorem Closing.goes {n : Nat} {p : Caller α} {u : State α}
    (hold : ∀ k, (s.callers k).Closes u) (hp : p.Closes u) (k : Nat) :
    ((s.goes n p).callers k).Closes u :=
  goes_forall (P := fun _ p => p.Closes u) hp (fun k _ => hold k) k

theorem Closing.step (h : Closing s) (hk : Kept initial s) (hna : ¬ Abandoned s)
    (st : Step s t) : Closing t := by
  have hold : ∀ k, (s.callers k).Closes t := fun k => (h.closes k).step hk.saved hna st
  have hserved : ∀ call, (call, true) ∈ s.log.stopped → 0 < call.current → call.Served t.log :=
    fun call hc hpos => (h.stopped call hc hpos).grow st.grows
  cases st with
  | read => exact ⟨h.unstopped, h.final, hold, hserved⟩
  | update n f hc | decline hc hw hm | mutate hc hw hm | publish hc | count hc | flush n hc
  | flushReturn hc hw => exact ⟨h.unstopped, h.final, Closing.goes hold trivial, hserved⟩
  | flushAtOnce hc hw hf | flushWait hc hw hf =>
    have e := (hf ▸ s.store.flushes).framed
    refine ⟨?_, ?_, Closing.goes hold trivial, hserved⟩
    · exact fun hj => e.stopping.symm ▸ h.unstopped (e.saver ▸ hj)
    · exact fun a ha hl => e.stopping.trans (h.final a ha hl)
  | stop n hc =>
    refine ⟨h.unstopped, h.final, Closing.goes hold ⟨?_, Nat.le_refl _⟩, hserved⟩
    have hlen := hk.written.length
    show s.log.versions.length - 1 < s.log.versions.length
    omega
  | @stopJoin n call hc hw hj =>
    obtain ⟨hcur, hatt⟩ : call.current < s.log.versions.length ∧
        call.attempts ≤ s.log.attempts.length := by
      simpa only [hc, Caller.Closes] using h.closes n
    refine ⟨nofun, fun _ _ _ => rfl, Closing.goes hold ⟨rfl, ?_, hatt, fun _ => ?_⟩, hserved⟩
    · have hcount := hk.written.counted hw
      show call.current ≤ s.store.generation
      omega
    · exact .inr (h.due hj call)
  | stopAtOnce hc hw hj =>
    refine ⟨nofun, fun _ _ _ => rfl, Closing.goes hold trivial, fun call hcall => ?_⟩
    rcases mem_append.1 hcall with hcall | hcall
    · exact hserved call hcall
    · cases mem_singleton.1 hcall
  | @stopReturn n call hc he =>
    refine ⟨h.unstopped, h.final, Closing.goes hold trivial, fun c hcall => ?_⟩
    rcases mem_append.1 hcall with hcall | hcall
    · exact hserved c hcall
    · cases mem_singleton.1 hcall
      intro hpos
      obtain ⟨-, -, -, hdone⟩ : _ ∧ _ ∧ _ ∧ (0 < call.current → call.Served s.log ∨ _) := by
        simpa only [hc, Caller.Closes] using h.closes n
      rcases hdone hpos with hdone | hdue
      · exact hdone
      · rw [he] at hdue
        exact hdue.elim
  | saverTurn hw ht =>
    have ht := ConfigStore.turns ht
    have e := ht.framed
    refine ⟨fun hj => ?_, fun a ha hl => ?_, hold, hserved⟩
    · obtain ⟨hs, -⟩ := h.unstopped (e.saver ▸ hj)
      exact ⟨e.stopping.trans hs, h.turn_ended hs ht⟩
    · exact e.stopping.trans ((Closing.turn_final ht ha).symm.trans hl)
  | @persist a hp | @persistFails a hp | @persistSucceeds a hp =>
    refine ⟨fun hj => ⟨(h.unstopped hj).1, nofun⟩, fun b hb hl => ?_, hold, hserved⟩
    cases hb
    exact h.final a (by rw [hp]; rfl) hl

theorem closing (h : Unabandoned initial s) : Closing s := by
  induction h with
  | refl =>
    exact {
      unstopped := fun _ => ⟨rfl, nofun⟩
      final := nofun
      closes := fun _ => trivial
      stopped := nofun }
  | tail hr st ih =>
    exact ih.step (kept (Unabandoned.reachable hr)) (Unabandoned.not_abandoned hr) st.1

/-- A stop that joined the saver has returned only after its last save was tried, in every
run in which no attempt from before a stop is found failed after it. The snapshot the store
was constructed from is not saved. -/
theorem stop_serves (h : Unabandoned initial s) {call : StopCall}
    (hcall : (call, true) ∈ s.log.stopped) (hpos : 0 < call.current) : call.Served s.log :=
  (closing h).stopped call hcall hpos

/-- The stop comes while `persist_` is running with an older snapshot. When that is saved the
saver makes its last attempt with the newer one, which fails. -/
theorem stop_serves_run : ∃ s : State Nat, Unabandoned 7 s ∧
    s.log.stopped = [(⟨2, 1⟩, true)] ∧ s.log.successes = [1] ∧
    (⟨2, 1⟩ : StopCall).Served s.log := by
  have h : Unabandoned 7 (State.init 7) := .refl
  have h := h.next (.update 0 (fun x => some (x + 1)) rfl) nofun
  have h := h.next (.mutate (n := 0) rfl rfl rfl) nofun
  have h := h.next (.publish (n := 0) rfl) nofun
  have h := h.next (.count (n := 0) rfl) nofun
  have h := h.next (.saverTurn rfl rfl) nofun
  have h := h.next (.saverTurn rfl rfl) nofun
  have h := h.next (.persist rfl) nofun
  have h := h.next (.update 0 (fun x => some (x + 1)) rfl) nofun
  have h := h.next (.mutate (n := 0) rfl rfl rfl) nofun
  have h := h.next (.publish (n := 0) rfl) nofun
  have h := h.next (.count (n := 0) rfl) nofun
  have h := h.next (.stop 1 rfl) nofun
  have h := h.next (.stopJoin (n := 1) rfl rfl rfl) nofun
  have h := h.next (.persistSucceeds rfl) nofun
  have h := h.next (.saverTurn rfl rfl) nofun
  have h := h.next (.persist rfl) nofun
  have h := h.next (.persistFails rfl) (fun a ha => by cases ha; rfl)
  have h := h.next (.saverTurn rfl rfl) nofun
  have h := h.next (.stopReturn (n := 1) rfl rfl) nofun
  exact ⟨_, h, rfl, rfl, stop_serves h (mem_singleton_self _) (by decide)⟩

/-- The stop comes while `persist_` is running, and that call fails: `stop` returns with the
newest snapshot neither saved nor tried again. -/
theorem stop_without_last_save : ∃ s : State Nat, Reachable 7 s ∧
    s.log.stopped = [(⟨1, 1⟩, true)] ∧ s.log.successes = [] ∧
    ¬ (⟨1, 1⟩ : StopCall).Served s.log := by
  have h : Reachable 7 (State.init 7) := .refl
  have h := h.tail (.update 0 (fun x => some (x + 1)) rfl)
  have h := h.tail (.mutate (n := 0) rfl rfl rfl)
  have h := h.tail (.publish (n := 0) rfl)
  have h := h.tail (.count (n := 0) rfl)
  have h := h.tail (.saverTurn rfl rfl)
  have h := h.tail (.saverTurn rfl rfl)
  have h := h.tail (.persist rfl)
  have h := h.tail (.stop 1 rfl)
  have h := h.tail (.stopJoin (n := 1) rfl rfl rfl)
  have h := h.tail (.persistFails rfl)
  have h := h.tail (.saverTurn rfl rfl)
  have h := h.tail (.stopReturn (n := 1) rfl rfl)
  refine ⟨_, h, rfl, rfl, ?_⟩
  rintro (⟨i, g, a, hi, ha, -⟩ | ⟨g, hg, -⟩)
  · have hlt : i < 1 := (List.getElem?_eq_some_iff.1 ha).1
    exact Nat.not_lt.2 hi hlt
  · cases hg

end Satellite.Configuration
