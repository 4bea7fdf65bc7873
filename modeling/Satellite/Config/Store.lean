import Mathlib.Logic.Function.Basic
import Mathlib.Logic.Relation
import Mathlib.Data.List.Nodup

/-!
# The configuration store and its saver

`core/config_store.cpp`: writers replace an immutable snapshot under `writeMtx_`, readers
copy the pointer under `snapshotMtx_`, and one saver thread hands snapshots to `persist_`
with no lock held. Each section under `writeMtx_` is one function of the store's fields; a
wait on `changed_` gives the mutex up, so it ends one section and its wake-up starts the
next. `update` shows its snapshot to the readers before it counts the generation, and
keeps the mutex in between.

Generations are 64 bits wide and are counted here without a bound. A deadline or a retry
delay may run out at any moment. The store has a `persist_` function.
-/

namespace Satellite.Configuration

variable {α : Type}

/-- The fields of the store that `writeMtx_` guards. -/
structure ConfigStore (α : Type) where
  snapshot : α
  generation : Nat := 0
  persistedGeneration : Nat := 0
  flushWaiters : Nat := 0
  stopping : Bool := false
  saverRunning : Bool := true
  /-- `saver_` still holds the thread, so that a `stop` can join it. -/
  saver : Bool := true

/-- What the saver takes under the mutex for one call of `persist_`. -/
structure Attempt (α : Type) where
  saving : Nat
  snapshot : α
  finalAttempt : Bool
  /-- The failures in a row before this attempt. -/
  failures : Nat

/-- Where the saver stands in `saverLoop` whenever it does not hold the mutex. -/
inductive Saver (α : Type)
  /-- In `changed_.wait(lk, somethingToSave)`. -/
  | waiting (failures : Nat)
  /-- In the wait of `SAVE_DELAY`. -/
  | delaying
  /-- The mutex is given up and `persist_` not called yet. -/
  | taken (attempt : Attempt α)
  | persisting (attempt : Attempt α)
  /-- `persist_` has returned and the mutex is not taken yet. -/
  | returned (attempt : Attempt α) (saved : Bool)
  /-- In the wait of `retryDelayAfter`. -/
  | retrying (failures : Nat)
  | ended

namespace ConfigStore

variable (c : ConfigStore α)

def somethingToSave : Bool := c.stopping || c.generation != c.persistedGeneration

def hurried : Bool := c.stopping || decide (0 < c.flushWaiters)

/-- The saver reads the generation, the snapshot and `stopping_` together. -/
def take (failures : Nat) : Attempt α := ⟨c.generation, c.snapshot, c.stopping, failures⟩

/-- The last two lines of `saverLoop`. -/
def leave : ConfigStore α × Saver α := ({ c with saverRunning := false }, .ended)

/-- The head of the saver's loop, up to where it next gives the mutex up. -/
def loop (failures : Nat) : ConfigStore α × Saver α :=
  if c.somethingToSave then
    if c.generation = c.persistedGeneration then c.leave
    else if failures = 0 ∧ c.hurried = false then (c, .delaying)
    else (c, .taken (c.take failures))
  else (c, .waiting failures)

/-- The saver takes the mutex back after `persist_`. -/
def settle (a : Attempt α) (saved : Bool) : ConfigStore α × Saver α :=
  if saved then
    let c := { c with persistedGeneration := a.saving }
    if a.finalAttempt then c.leave else c.loop 0
  else if c.stopping then c.leave
  else (c, .retrying (a.failures + 1))

/-- What the saver does the next time it has the mutex. -/
def saverTurn : Saver α → Option (ConfigStore α × Saver α)
  | .waiting failures => some (c.loop failures)
  | .delaying => some (c, .taken (c.take 0))
  | .returned a saved => some (c.settle a saved)
  | .retrying failures => some (c.loop failures)
  | .taken _ | .persisting _ | .ended => none

/-- `flush` up to its wait, with its answer if it has one by then. -/
def flushBegin : ConfigStore α × Option Bool :=
  if c.generation ≤ c.persistedGeneration then (c, some true)
  else if c.saverRunning then ({ c with flushWaiters := c.flushWaiters + 1 }, none)
  else (c, some false)

/-- `flush` after its wait. -/
def flushEnd (wanted : Nat) : ConfigStore α × Bool :=
  ({ c with flushWaiters := c.flushWaiters - 1 }, decide (wanted ≤ c.persistedGeneration))

/-- The section of `stop`, with whether it has taken the thread out of `saver_`. -/
def stopBegin : ConfigStore α × Bool := ({ c with stopping := true, saver := false }, c.saver)

end ConfigStore

/-! ## The threads -/

/-- A `stop` and what stood at its call: the newest snapshot, and how many calls of
`persist_` had begun. -/
structure StopCall where
  current : Nat
  attempts : Nat
  deriving DecidableEq

/-- A thread that uses the store. A mutation is a function that gives the changed
configuration, or nothing when it declines. -/
inductive Caller (α : Type)
  | idle
  | updating (mutate : α → Option α)
  /-- In `update` with the mutex, the copy changed and not shown. -/
  | mutated (mutate : α → Option α) (next : α)
  /-- In `update` with the mutex, the copy shown and its generation not counted. -/
  | published (mutate : α → Option α) (position : Nat)
  /-- In `flush` before the mutex; `current` was the newest snapshot at the call. -/
  | flushing (current : Nat)
  | awaiting (current wanted : Nat)
  | stopping (call : StopCall)
  | joining (call : StopCall)

/-- The thread has the mutex over more than one step. -/
def Caller.holds : Caller α → Bool
  | .mutated _ _ | .published _ _ => true
  | _ => false

/-- What has happened, in the order in which it happened. -/
structure Log (α : Type) where
  /-- The snapshots shown to readers; the one at `g` has generation `g`. -/
  versions : List α
  /-- The mutations accepted; the one at `i` gave the version at `i + 1`. -/
  accepted : List (α → Option α) := []
  /-- The accepted updates that have returned, with their positions in `accepted`. -/
  updated : List (Nat × (α → Option α)) := []
  /-- What `current` returned, with the generation of it. -/
  reads : List (Nat × α) := []
  /-- The calls of `persist_` that have begun. -/
  attempts : List (Nat × α) := []
  /-- The generations whose `persist_` has returned true. -/
  successes : List Nat := []
  /-- The flushes that have returned: the newest snapshot at the call, and the answer. -/
  flushed : List (Nat × Bool) := []
  /-- The stops that have returned, with whether they joined the saver. -/
  stopped : List (StopCall × Bool) := []

/-- The generation of the snapshot a reader would be given. -/
def Log.newest (l : Log α) : Nat := l.versions.length - 1

structure State (α : Type) where
  store : ConfigStore α
  /-- The thread that holds `writeMtx_` from one step to the next. -/
  writer : Option Nat := none
  saver : Saver α := .waiting 0
  callers : Nat → Caller α := fun _ => .idle
  log : Log α

/-- The store as it is constructed. -/
def State.init (initial : α) : State α where
  store := { snapshot := initial }
  log := { versions := [initial] }

/-- Thread `n` goes on to `p`. -/
def State.goes (s : State α) (n : Nat) (p : Caller α) : State α :=
  { s with callers := Function.update s.callers n p }

inductive Step (s : State α) : State α → Prop
  /-- `current`; `snapshotMtx_` is never held over a step. -/
  | read : Step s { s with log.reads := s.log.reads ++ [(s.log.newest, s.store.snapshot)] }
  | update (n : Nat) (mutate : α → Option α) (hc : s.callers n = .idle) :
      Step s (s.goes n (.updating mutate))
  | decline {n : Nat} {mutate : α → Option α} (hc : s.callers n = .updating mutate)
      (hw : s.writer = none) (hm : mutate s.store.snapshot = none) : Step s (s.goes n .idle)
  | mutate {n : Nat} {mutate : α → Option α} {next : α} (hc : s.callers n = .updating mutate)
      (hw : s.writer = none) (hm : mutate s.store.snapshot = some next) :
      Step s { s.goes n (.mutated mutate next) with writer := some n }
  | publish {n : Nat} {mutate : α → Option α} {next : α} (hc : s.callers n = .mutated mutate next) :
      Step s { s.goes n (.published mutate s.log.accepted.length) with
        store.snapshot := next
        log.versions := s.log.versions ++ [next]
        log.accepted := s.log.accepted ++ [mutate] }
  | count {n : Nat} {mutate : α → Option α} {position : Nat}
      (hc : s.callers n = .published mutate position) :
      Step s { s.goes n .idle with
        store.generation := s.store.generation + 1
        writer := none
        log.updated := s.log.updated ++ [(position, mutate)] }
  | flush (n : Nat) (hc : s.callers n = .idle) : Step s (s.goes n (.flushing s.log.newest))
  | flushAtOnce {n current : Nat} {c : ConfigStore α} {answer : Bool}
      (hc : s.callers n = .flushing current) (hw : s.writer = none)
      (hf : s.store.flushBegin = (c, some answer)) :
      Step s { s.goes n .idle with
        store := c
        log.flushed := s.log.flushed ++ [(current, answer)] }
  | flushWait {n current : Nat} {c : ConfigStore α} (hc : s.callers n = .flushing current)
      (hw : s.writer = none) (hf : s.store.flushBegin = (c, none)) :
      Step s { s.goes n (.awaiting current s.store.generation) with store := c }
  | flushReturn {n current wanted : Nat} (hc : s.callers n = .awaiting current wanted)
      (hw : s.writer = none) :
      Step s { s.goes n .idle with
        store := (s.store.flushEnd wanted).1
        log.flushed := s.log.flushed ++ [(current, (s.store.flushEnd wanted).2)] }
  | stop (n : Nat) (hc : s.callers n = .idle) :
      Step s (s.goes n (.stopping ⟨s.log.newest, s.log.attempts.length⟩))
  /-- The thread is in `saver_`: this call joins it. -/
  | stopJoin {n : Nat} {call : StopCall} (hc : s.callers n = .stopping call)
      (hw : s.writer = none) (hj : s.store.stopBegin.2 = true) :
      Step s { s.goes n (.joining call) with store := s.store.stopBegin.1 }
  | stopAtOnce {n : Nat} {call : StopCall} (hc : s.callers n = .stopping call)
      (hw : s.writer = none) (hj : s.store.stopBegin.2 = false) :
      Step s { s.goes n .idle with
        store := s.store.stopBegin.1
        log.stopped := s.log.stopped ++ [(call, false)] }
  | stopReturn {n : Nat} {call : StopCall} (hc : s.callers n = .joining call)
      (he : s.saver = .ended) :
      Step s { s.goes n .idle with log.stopped := s.log.stopped ++ [(call, true)] }
  | saverTurn {c : ConfigStore α} {p : Saver α} (hw : s.writer = none)
      (ht : s.store.saverTurn s.saver = some (c, p)) : Step s { s with store := c, saver := p }
  | persist {a : Attempt α} (hp : s.saver = .taken a) :
      Step s { s with
        saver := .persisting a
        log.attempts := s.log.attempts ++ [(a.saving, a.snapshot)] }
  | persistFails {a : Attempt α} (hp : s.saver = .persisting a) :
      Step s { s with saver := .returned a false }
  | persistSucceeds {a : Attempt α} (hp : s.saver = .persisting a) :
      Step s { s with
        saver := .returned a true
        log.successes := s.log.successes ++ [a.saving] }

/-- The states of a store constructed from `initial`, over every interleaving of its
callers and its saver and every pattern of answers from `persist_`. -/
def Reachable (initial : α) : State α → Prop := Relation.ReflTransGen Step (State.init initial)

/-! ## What the saver does under the mutex -/

namespace ConfigStore

variable {c : ConfigStore α} {p : Saver α}

/-- The fields that neither the saver nor a flush writes. -/
structure Framed (c c' : ConfigStore α) : Prop where
  snapshot : c'.snapshot = c.snapshot
  generation : c'.generation = c.generation
  stopping : c'.stopping = c.stopping
  saver : c'.saver = c.saver

theorem Framed.refl (c : ConfigStore α) : c.Framed c := ⟨rfl, rfl, rfl, rfl⟩

/-- Every way through the head of the loop. -/
inductive Loops (c : ConfigStore α) (failures : Nat) : ConfigStore α × Saver α → Prop
  | wait (hs : c.stopping = false) (hg : c.generation = c.persistedGeneration) :
      Loops c failures (c, .waiting failures)
  | leave (hs : c.stopping = true) (hg : c.generation = c.persistedGeneration) :
      Loops c failures c.leave
  | delay (hs : c.stopping = false) (hg : c.generation ≠ c.persistedGeneration)
      (hf : failures = 0) : Loops c failures (c, .delaying)
  | take (hg : c.generation ≠ c.persistedGeneration) :
      Loops c failures (c, .taken (c.take failures))

theorem loops (c : ConfigStore α) (failures : Nat) : c.Loops failures (c.loop failures) := by
  unfold loop
  split
  next hs =>
    split
    next hg =>
      refine .leave ?_ hg
      simpa [somethingToSave, hg] using hs
    next hg =>
      split_ifs with hf
      · have hh := hf.2
        simp only [hurried, Bool.or_eq_false_iff] at hh
        exact .delay hh.1 hg hf.1
      · exact .take hg
  next hs =>
    simp only [somethingToSave, Bool.or_eq_true, not_or, Bool.not_eq_true, bne_eq_false_iff_eq] at hs
    exact .wait hs.1 hs.2

/-- Every turn of the saver. -/
inductive Turns (c : ConfigStore α) : Saver α → ConfigStore α × Saver α → Prop
  | waiting {failures : Nat} {r} (h : c.Loops failures r) : Turns c (.waiting failures) r
  | delayed : Turns c .delaying (c, .taken (c.take 0))
  | saved {a : Attempt α} {r} (hf : a.finalAttempt = false)
      (h : { c with persistedGeneration := a.saving }.Loops 0 r) : Turns c (.returned a true) r
  | savedLast {a : Attempt α} (hf : a.finalAttempt = true) :
      Turns c (.returned a true) (leave { c with persistedGeneration := a.saving })
  | failedLast {a : Attempt α} (hs : c.stopping = true) : Turns c (.returned a false) c.leave
  | failed {a : Attempt α} (hs : c.stopping = false) :
      Turns c (.returned a false) (c, .retrying (a.failures + 1))
  | retrying {failures : Nat} {r} (h : c.Loops failures r) : Turns c (.retrying failures) r

variable {r : ConfigStore α × Saver α}

theorem turns (h : c.saverTurn p = some r) : c.Turns p r := by
  cases p with
  | waiting failures =>
    cases h
    exact .waiting (c.loops failures)
  | delaying =>
    cases h
    exact .delayed
  | returned a saved =>
    cases h
    cases saved with
    | true =>
      cases hf : a.finalAttempt with
      | true =>
        simp only [settle, hf, if_true]
        exact .savedLast hf
      | false =>
        simp only [settle, hf, if_true, Bool.false_eq_true, if_false]
        exact .saved hf (loops _ 0)
    | false =>
      cases hs : c.stopping with
      | true =>
        simp only [settle, hs, if_true, Bool.false_eq_true, if_false]
        exact .failedLast hs
      | false =>
        simp only [settle, hs, Bool.false_eq_true, if_false]
        exact .failed hs
  | retrying failures =>
    cases h
    exact .retrying (c.loops failures)
  | taken a | persisting a | ended => cases h

theorem Loops.framed {failures : Nat} (h : c.Loops failures r) :
    c.Framed r.1 := by
  cases h <;> exact ⟨rfl, rfl, rfl, rfl⟩

theorem Turns.framed (h : c.Turns p r) : c.Framed r.1 := by
  cases h with
  | waiting h => exact h.framed
  | retrying h => exact h.framed
  | saved hf h =>
    obtain ⟨h₁, h₂, h₃, h₄⟩ := h.framed
    exact ⟨h₁, h₂, h₃, h₄⟩
  | delayed => exact .refl c
  | savedLast hf | failedLast hs => exact ⟨rfl, rfl, rfl, rfl⟩
  | failed hs => exact .refl c

/-- Every way through the first section of `flush`. -/
inductive Flushes (c : ConfigStore α) : ConfigStore α × Option Bool → Prop
  | saved (h : c.generation ≤ c.persistedGeneration) : Flushes c (c, some true)
  | wait : Flushes c ({ c with flushWaiters := c.flushWaiters + 1 }, none)
  | refused : Flushes c (c, some false)

theorem flushes (c : ConfigStore α) : c.Flushes c.flushBegin := by
  unfold flushBegin
  split
  next h => exact .saved h
  · split
    · exact .wait
    · exact .refused

theorem Flushes.framed {r : ConfigStore α × Option Bool} (h : c.Flushes r) : c.Framed r.1 := by
  cases h <;> exact ⟨rfl, rfl, rfl, rfl⟩

theorem Flushes.persistedGeneration {r : ConfigStore α × Option Bool} (h : c.Flushes r) :
    r.1.persistedGeneration = c.persistedGeneration := by
  cases h <;> rfl

end ConfigStore

end Satellite.Configuration
