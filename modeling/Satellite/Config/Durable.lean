import Satellite.Config.Store

/-!
# What the configuration store keeps

The accepted mutations form one chain, in the order in which the snapshots were shown;
the saver hands the snapshots of that chain to `persist_`, never an older one after a newer
one. A flush that answers true waits for a generation that was counted after the newest
snapshot at its call was shown, since it needs the mutex to read it.

The store starts with generation 0 counted as saved: nothing is persisted for it.
-/

namespace Satellite.Configuration

open List

variable {α : Type} {s t : State α} {initial : α}

/-! ## The writers -/

/-- What a thread inside `update` has established. -/
def Caller.Fits (s : State α) : Caller α → Prop
  | .mutated mutate next =>
    s.log.versions.length = s.store.generation + 1 ∧ mutate s.store.snapshot = some next
  | .published mutate position =>
    s.log.versions.length = s.store.generation + 2 ∧ position = s.store.generation ∧
      s.log.accepted[position]? = some mutate
  | _ => True

variable {p : Caller α}

theorem Caller.fits_of_free (h : p.holds = false) : p.Fits s := by
  cases p <;> trivial

/-- The versions, the accepted mutations and the generation belong together. -/
structure Written (initial : α) (s : State α) : Prop where
  held : ∀ n, (s.callers n).holds = true → s.writer = some n
  fits : ∀ n, (s.callers n).Fits s
  counted : s.writer = none → s.log.versions.length = s.store.generation + 1
  first : s.log.versions[0]? = some initial
  last : s.log.versions[s.log.accepted.length]? = some s.store.snapshot
  length : s.log.versions.length = s.log.accepted.length + 1
  chain : ∀ i mutate, s.log.accepted[i]? = some mutate →
    ∃ a b, s.log.versions[i]? = some a ∧ s.log.versions[i + 1]? = some b ∧ mutate a = some b
  updated : ∀ i mutate, (i, mutate) ∈ s.log.updated →
    i < s.store.generation ∧ s.log.accepted[i]? = some mutate
  distinct : (s.log.updated.map Prod.fst).Nodup

/-- A step that leaves the writers' part alone. -/
structure Leaves (s t : State α) : Prop where
  callers : ∀ n, (t.callers n).holds = true → t.callers n = s.callers n
  writer : t.writer = s.writer
  snapshot : t.store.snapshot = s.store.snapshot
  generation : t.store.generation = s.store.generation
  versions : t.log.versions = s.log.versions
  accepted : t.log.accepted = s.log.accepted
  updated : t.log.updated = s.log.updated

variable {n : Nat}

theorem goes_free (hp : p.holds = false) (k : Nat)
    (h : ((s.goes n p).callers k).holds = true) : (s.goes n p).callers k = s.callers k := by
  by_cases hk : k = n
  · subst hk
    simp [State.goes, hp] at h
  · simp [State.goes, hk]

/-- What holds of every thread holds of them after one of them has gone on. -/
theorem goes_forall {P : Nat → Caller α → Prop} (hp : P n p)
    (h : ∀ k, k ≠ n → P k (s.callers k)) (k : Nat) : P k ((s.goes n p).callers k) := by
  by_cases hk : k = n
  · subst hk
    simpa [State.goes] using hp
  · simpa [State.goes, hk] using h k hk

theorem Written.leaves (h : Written initial s) (e : Leaves s t) : Written initial t where
  held n hn := by
    rw [e.writer]
    exact h.held n (e.callers n hn ▸ hn)
  fits n := by
    cases hn : (t.callers n).holds with
    | false => exact Caller.fits_of_free hn
    | true =>
      have hf := h.fits n
      rw [← e.callers n hn] at hf
      revert hf
      cases t.callers n <;>
        simp only [Caller.Fits, e.snapshot, e.generation, e.versions, e.accepted, imp_self]
  counted hw := by
    rw [e.versions, e.generation]
    exact h.counted (e.writer ▸ hw)
  first := e.versions ▸ h.first
  last := by
    rw [e.versions, e.accepted, e.snapshot]
    exact h.last
  length := by
    rw [e.versions, e.accepted]
    exact h.length
  chain := by
    rw [e.versions, e.accepted]
    exact h.chain
  updated := by
    rw [e.updated, e.accepted, e.generation]
    exact h.updated
  distinct := e.updated ▸ h.distinct

/-- Only one thread holds the mutex. -/
theorem Written.eq_of_holds (h : Written initial s) {m : Nat} (hm : (s.callers m).holds = true)
    (hn : (s.callers n).holds = true) : m = n :=
  Option.some.inj ((h.held m hm).symm.trans (h.held n hn))

/-- The other threads hold nothing when one of them goes on with the mutex. -/
theorem Written.others_free (h : Written initial s) (hn : (s.callers n).holds = true)
    {k : Nat} (hk : k ≠ n) : (s.callers k).holds = false := by
  cases hf : (s.callers k).holds with
  | false => rfl
  | true => exact absurd (h.eq_of_holds hf hn) hk

variable {f : α → Option α}

theorem Written.mutate (h : Written initial s) {next : α}
    (hw : s.writer = none) (hf : f s.store.snapshot = some next) :
    Written initial { s.goes n (.mutated f next) with writer := some n } :=
  { h with
    held k hk := by
      by_cases hkn : k = n
      · rw [hkn]
      · have hfree : (s.callers k).holds = true := by simpa [State.goes, hkn] using hk
        cases hw.symm.trans (h.held k hfree)
    fits := by
      apply goes_forall (P := fun _ p => p.Fits _)
      · exact ⟨h.counted hw, hf⟩
      · intro k _
        apply Caller.fits_of_free
        cases hk : (s.callers k).holds with
        | false => rfl
        | true => cases hw.symm.trans (h.held k hk)
    counted hw := by cases hw }

theorem Written.publish (h : Written initial s) {next : α}
    (hc : s.callers n = .mutated f next) :
    Written initial { s.goes n (.published f s.log.accepted.length) with
      store.snapshot := next
      log.versions := s.log.versions ++ [next]
      log.accepted := s.log.accepted ++ [f] } := by
  have hholds : (s.callers n).holds = true := by rw [hc]; rfl
  have hlen := h.length
  obtain ⟨hcount, hf⟩ : s.log.versions.length = s.store.generation + 1 ∧
      f s.store.snapshot = some next := by simpa only [hc, Caller.Fits] using h.fits n
  exact {
    held := goes_forall (P := fun k p => p.holds = true → s.writer = some k)
      (fun _ => h.held n hholds) (fun k _ => h.held k)
    fits := by
      apply goes_forall (P := fun _ p => p.Fits _)
      · have hlast : s.log.accepted.length = s.store.generation := by omega
        refine ⟨?_, hlast, getElem?_concat_length⟩
        rw [length_append, length_singleton, hcount]
        rfl
      · intro k hk
        exact Caller.fits_of_free (h.others_free hholds hk)
    counted := fun hw => by cases hw.symm.trans (h.held n hholds)
    first := by
      rw [getElem?_append_left (by omega)]
      exact h.first
    last := by
      rw [length_append, length_singleton, ← hlen]
      exact getElem?_concat_length
    length := by simp only [length_append, length_singleton]; omega
    chain := by
      intro i g hi
      by_cases hlt : i < s.log.accepted.length
      · obtain ⟨a, b, ha, hb, hg⟩ := h.chain i g (getElem?_append_left hlt ▸ hi)
        refine ⟨a, b, ?_, ?_, hg⟩
        · rw [getElem?_append_left (by omega)]
          exact ha
        · rw [getElem?_append_left (by omega)]
          exact hb
      · -- the new mutation was given the snapshot that was last until now
        have hi' : i < (s.log.accepted ++ [f]).length := (List.getElem?_eq_some_iff.1 hi).1
        rw [length_append, length_singleton] at hi'
        obtain rfl : i = s.log.accepted.length := by omega
        rw [getElem?_concat_length] at hi
        cases hi
        refine ⟨s.store.snapshot, next, ?_, ?_, hf⟩
        · rw [getElem?_append_left (by omega)]
          exact h.last
        · rw [← hlen]
          exact getElem?_concat_length
    updated := by
      intro i g hi
      obtain ⟨hlt, hg⟩ := h.updated i g hi
      exact ⟨hlt, by rw [getElem?_append_left (List.getElem?_eq_some_iff.1 hg).1]; exact hg⟩
    distinct := h.distinct }

theorem Written.count (h : Written initial s) {i : Nat}
    (hc : s.callers n = .published f i) :
    Written initial { s.goes n .idle with
      store.generation := s.store.generation + 1
      writer := none
      log.updated := s.log.updated ++ [(i, f)] } := by
  have hholds : (s.callers n).holds = true := by rw [hc]; rfl
  obtain ⟨hcount, hi, hf⟩ : s.log.versions.length = s.store.generation + 2 ∧
      i = s.store.generation ∧ s.log.accepted[i]? = some f := by
    simpa only [hc, Caller.Fits] using h.fits n
  have hfree : ∀ k, ((s.goes n .idle).callers k).holds = false :=
    goes_forall (P := fun _ p => p.holds = false) rfl (fun k hk => h.others_free hholds hk)
  exact {
    held := fun k hk => by cases (hfree k).symm.trans hk
    fits := fun k => Caller.fits_of_free (hfree k)
    counted := fun _ => hcount
    first := h.first
    last := h.last
    length := h.length
    chain := h.chain
    updated := by
      intro j g hj
      rcases mem_append.1 hj with hj | hj
      · obtain ⟨hlt, hg⟩ := h.updated j g hj
        exact ⟨Nat.lt_succ_of_lt hlt, hg⟩
      · cases mem_singleton.1 hj
        exact ⟨by dsimp only; omega, hf⟩
    distinct := by
      rw [map_append, map_singleton, nodup_append]
      refine ⟨h.distinct, nodup_singleton _, ?_⟩
      intro j hj k hk
      obtain ⟨⟨j', g⟩, hg, rfl⟩ := mem_map.1 hj
      have hlt := (h.updated j' g hg).1
      rw [mem_singleton.1 hk]
      omega }

theorem Written.step (h : Written initial s) (st : Step s t) : Written initial t := by
  cases st with
  | mutate hc hw hm => exact h.mutate hw hm
  | publish hc => exact h.publish hc
  | count hc => exact h.count hc
  | read | persist hp | persistFails hp | persistSucceeds hp =>
    exact h.leaves ⟨fun _ _ => rfl, rfl, rfl, rfl, rfl, rfl, rfl⟩
  | update n f hc | decline hc hw hm | flush n hc | flushReturn hc hw | stop n hc
  | stopJoin hc hw hj | stopAtOnce hc hw hj | stopReturn hc he =>
    exact h.leaves ⟨goes_free rfl, rfl, rfl, rfl, rfl, rfl, rfl⟩
  | flushAtOnce hc hw hf | flushWait hc hw hf =>
    have e := (hf ▸ s.store.flushes).framed
    exact h.leaves ⟨goes_free rfl, rfl, e.snapshot, e.generation, rfl, rfl, rfl⟩
  | saverTurn hw ht =>
    have e := (ConfigStore.turns ht).framed
    exact h.leaves ⟨fun _ _ => rfl, rfl, e.snapshot, e.generation, rfl, rfl, rfl⟩

theorem written_init (initial : α) : Written initial (State.init initial) where
  held n hn := by cases hn
  fits n := trivial
  counted _ := rfl
  first := rfl
  last := rfl
  length := rfl
  chain i f hi := by cases hi
  updated i f hi := by cases hi
  distinct := nodup_nil

/-- With the mutex free, the newest generation is the one counted, and the store's snapshot
is the one shown for it. -/
theorem Written.current (h : Written initial s) (hw : s.writer = none) :
    s.log.versions[s.store.generation]? = some s.store.snapshot := by
  have hlen := h.length
  have hcount := h.counted hw
  rw [show s.store.generation = s.log.accepted.length by omega]
  exact h.last

/-! ## The readers -/

/-- Every reader was given a version, and no reader an older one than a reader before. -/
structure Followed (versions : List α) (reads : List (Nat × α)) : Prop where
  version : ∀ g a, (g, a) ∈ reads → versions[g]? = some a
  ordered : reads.Pairwise (fun x y => x.1 ≤ y.1)

theorem Followed.step (h : Followed s.log.versions s.log.reads) (hw : Written initial s)
    (st : Step s t) : Followed t.log.versions t.log.reads := by
  have hlen := hw.length
  cases st with
  | read =>
    have hnew : s.log.versions[s.log.newest]? = some s.store.snapshot := by
      rw [Log.newest, hlen]
      exact hw.last
    refine ⟨?_, ?_⟩
    · intro g a hga
      rcases mem_append.1 hga with hga | hga
      · exact h.version g a hga
      · cases mem_singleton.1 hga
        exact hnew
    · refine pairwise_append.2 ⟨h.ordered, pairwise_singleton _ _, ?_⟩
      intro x hx y hy
      rw [mem_singleton.1 hy]
      have hlt := (List.getElem?_eq_some_iff.1 (h.version x.1 x.2 hx)).1
      simp only [Log.newest]
      omega
  | publish hc =>
    refine ⟨?_, h.ordered⟩
    intro g a hga
    have hg := h.version g a hga
    rw [getElem?_append_left (List.getElem?_eq_some_iff.1 hg).1]
    exact hg
  | _ => exact h

/-! ## The saver -/

/-- What the saver has handed to `persist_` and what it has been told. -/
structure Saved (versions : List α) (generation persistedGeneration : Nat) (saver : Saver α)
    (attempts : List (Nat × α)) (successes : List Nat) : Prop where
  version : ∀ g a, (g, a) ∈ attempts → g ≤ generation ∧ versions[g]? = some a
  ordered : attempts.Pairwise (fun x y => x.1 ≤ y.1)
  taken : ∀ a, saver = .taken a → a.saving ≤ generation ∧
    versions[a.saving]? = some a.snapshot ∧ ∀ x ∈ attempts, x.1 ≤ a.saving
  persisting : ∀ a, saver = .persisting a → (a.saving, a.snapshot) ∈ attempts
  returned : ∀ a, saver = .returned a true → a.saving ∈ successes
  success : ∀ g ∈ successes, ∃ a, (g, a) ∈ attempts
  persisted : persistedGeneration = 0 ∨ persistedGeneration ∈ successes

/-- The saver's part of a state. -/
def State.Saved (s : State α) : Prop :=
  Configuration.Saved s.log.versions s.store.generation s.store.persistedGeneration s.saver
    s.log.attempts s.log.successes

variable {c : ConfigStore α}

/-- The saver takes the snapshot of the generation counted last. -/
theorem State.Saved.take (h : s.Saved) (hw : Written initial s) (hfree : s.writer = none)
    {failures : Nat} (hc : s.store.Framed c)
    (hp : c.persistedGeneration = 0 ∨ c.persistedGeneration ∈ s.log.successes) :
    State.Saved { s with store := c, saver := .taken (c.take failures) } where
  version g a hga := hc.generation ▸ h.version g a hga
  ordered := h.ordered
  taken a ha := by
    cases ha
    simp only [ConfigStore.take, hc.generation, hc.snapshot]
    exact ⟨Nat.le_refl _, hw.current hfree, fun x hx => (h.version x.1 x.2 hx).1⟩
  persisting a ha := by cases ha
  returned a ha := by cases ha
  success := h.success
  persisted := hp

/-- The saver goes on without a snapshot. -/
theorem State.Saved.rest (h : s.Saved) {p : Saver α} (hc : s.store.Framed c)
    (hp : c.persistedGeneration = 0 ∨ c.persistedGeneration ∈ s.log.successes)
    (htaken : ∀ a, p ≠ .taken a) (hpersisting : ∀ a, p ≠ .persisting a)
    (hreturned : ∀ a, p ≠ .returned a true) : State.Saved { s with store := c, saver := p } where
  version g a hga := hc.generation ▸ h.version g a hga
  ordered := h.ordered
  taken a ha := absurd ha (htaken a)
  persisting a ha := absurd ha (hpersisting a)
  returned a ha := absurd ha (hreturned a)
  success := h.success
  persisted := hp

variable {r : ConfigStore α × Saver α}

theorem State.Saved.loop (h : s.Saved) (hw : Written initial s) (hfree : s.writer = none)
    {failures : Nat} (hc : s.store.Framed c)
    (hp : c.persistedGeneration = 0 ∨ c.persistedGeneration ∈ s.log.successes)
    (hl : c.Loops failures r) : State.Saved { s with store := r.1, saver := r.2 } := by
  cases hl with
  | wait hs hg | delay hs hg hf => exact h.rest hc hp nofun nofun nofun
  | leave hs hg => exact h.rest ⟨hc.1, hc.2, hc.3, hc.4⟩ hp nofun nofun nofun
  | take hg => exact h.take hw hfree hc hp

theorem State.Saved.turn (h : s.Saved) (hw : Written initial s) (hfree : s.writer = none)
    (ht : s.store.Turns s.saver r) :
    State.Saved { s with store := r.1, saver := r.2 } := by
  generalize hsaver : s.saver = p at ht
  cases ht with
  | waiting hl | retrying hl => exact h.loop hw hfree (.refl _) h.persisted hl
  | delayed => exact h.take hw hfree (.refl _) h.persisted
  | @saved a r hf hl =>
    refine h.loop (c := { s.store with persistedGeneration := a.saving }) hw hfree
      ⟨rfl, rfl, rfl, rfl⟩ (.inr (h.returned a hsaver)) hl
  | savedLast hf =>
    exact h.rest ⟨rfl, rfl, rfl, rfl⟩ (.inr (h.returned _ hsaver)) nofun nofun nofun
  | failedLast hs => exact h.rest ⟨rfl, rfl, rfl, rfl⟩ h.persisted nofun nofun nofun
  | failed hs => exact h.rest (.refl _) h.persisted nofun nofun nofun

/-- A step of another thread may add a version and count a generation. -/
theorem Saved.grow {versions : List α} {generation generation' persisted : Nat}
    {saver : Saver α} {attempts : List (Nat × α)} {successes : List Nat}
    (h : Saved versions generation persisted saver attempts successes)
    (hg : generation ≤ generation') (more : List α) :
    Saved (versions ++ more) generation' persisted saver attempts successes := by
  have hold : ∀ {g a}, versions[g]? = some a → (versions ++ more)[g]? = some a := fun hv => by
    rw [getElem?_append_left (List.getElem?_eq_some_iff.1 hv).1]
    exact hv
  exact { h with
    version := fun g a hga => ⟨Nat.le_trans (h.version g a hga).1 hg, hold (h.version g a hga).2⟩
    taken := fun a ha =>
      have ⟨hle, hv, hall⟩ := h.taken a ha
      ⟨Nat.le_trans hle hg, hold hv, hall⟩ }

theorem State.Saved.persist (h : s.Saved) {a : Attempt α} (hp : s.saver = .taken a) :
    State.Saved { s with
      saver := .persisting a
      log.attempts := s.log.attempts ++ [(a.saving, a.snapshot)] } := by
  obtain ⟨hle, hv, hall⟩ := h.taken a hp
  exact {
    version := by
      intro g x hx
      rcases mem_append.1 hx with hx | hx
      · exact h.version g x hx
      · cases mem_singleton.1 hx
        exact ⟨hle, hv⟩
    ordered := by
      refine pairwise_append.2 ⟨h.ordered, pairwise_singleton _ _, ?_⟩
      intro x hx y hy
      rw [mem_singleton.1 hy]
      exact hall x hx
    taken := nofun
    persisting := by
      rintro b hb
      cases hb
      exact mem_append_right _ (mem_singleton_self _)
    returned := nofun
    success := fun g hg =>
      have ⟨x, hx⟩ := h.success g hg
      ⟨x, mem_append_left _ hx⟩
    persisted := h.persisted }

theorem State.Saved.succeed (h : s.Saved) {a : Attempt α} (hp : s.saver = .persisting a) :
    State.Saved { s with
      saver := .returned a true
      log.successes := s.log.successes ++ [a.saving] } where
  version := h.version
  ordered := h.ordered
  taken := nofun
  persisting := nofun
  returned b hb := by
    cases hb
    exact mem_append_right _ (mem_singleton_self _)
  success g hg := by
    rcases mem_append.1 hg with hg | hg
    · exact h.success g hg
    · rw [mem_singleton.1 hg]
      exact ⟨a.snapshot, h.persisting a hp⟩
  persisted := h.persisted.imp_right (mem_append_left _)

/-- A step that leaves the saver's part alone but for the store's other fields. -/
theorem State.Saved.frame (h : s.Saved)
    (hg : c.generation = s.store.generation)
    (hp : c.persistedGeneration = s.store.persistedGeneration) :
    Configuration.Saved s.log.versions c.generation c.persistedGeneration s.saver s.log.attempts
      s.log.successes := by
  rw [hg, hp]
  exact h

theorem State.Saved.step (h : s.Saved) (hw : Written initial s) (st : Step s t) : t.Saved := by
  cases st with
  | publish hc => exact Saved.grow h (Nat.le_refl _) _
  | count hc =>
    have hg := Saved.grow h (Nat.le_succ s.store.generation) []
    rwa [append_nil] at hg
  | flushAtOnce hc hfree hf | flushWait hc hfree hf =>
    have e := hf ▸ s.store.flushes
    exact h.frame e.framed.generation e.persistedGeneration
  | saverTurn hfree ht => exact h.turn hw hfree (ConfigStore.turns ht)
  | persist hp => exact h.persist hp
  | persistFails hp => exact h.rest (.refl _) h.persisted nofun nofun nofun
  | persistSucceeds hp => exact h.succeed hp
  | _ => exact h

/-! ## The flushes -/

/-- The generation `flush` waits for is no older than the newest snapshot at its call. -/
def Caller.Asks (versions : List α) : Caller α → Prop
  | .flushing current => current < versions.length
  | .awaiting current wanted => current ≤ wanted
  | _ => True

/-- A flush that answered true found its snapshot, or a newer one, saved. Generation 0 was
never handed to `persist_`. -/
structure Answered (s : State α) : Prop where
  asks : ∀ n, (s.callers n).Asks s.log.versions
  flushed : ∀ c, (c, true) ∈ s.log.flushed → c = 0 ∨ ∃ g ∈ s.log.successes, c ≤ g

/-- What the saver has recorded as saved was saved. -/
theorem State.Saved.covers (h : s.Saved) {c : Nat} (hc : c ≤ s.store.persistedGeneration) :
    c = 0 ∨ ∃ g ∈ s.log.successes, c ≤ g := by
  rcases h.persisted with h0 | hmem
  · left
    omega
  · exact .inr ⟨_, hmem, hc⟩

theorem Answered.answer (h : Answered s) {current : Nat} {answer : Bool}
    (hanswer : answer = true → current = 0 ∨ ∃ g ∈ s.log.successes, current ≤ g) :
    Answered { s.goes n .idle with
      store := c
      log.flushed := s.log.flushed ++ [(current, answer)] } where
  asks := goes_forall (P := fun _ p => p.Asks s.log.versions) trivial (fun k _ => h.asks k)
  flushed d hd := by
    rcases mem_append.1 hd with hd | hd
    · exact h.flushed d hd
    · cases mem_singleton.1 hd
      exact hanswer rfl

theorem Answered.goes (h : Answered s) (hp : p.Asks s.log.versions) (k : Nat) :
    ((s.goes n p).callers k).Asks s.log.versions :=
  goes_forall (P := fun _ p => p.Asks s.log.versions) hp (fun k _ => h.asks k) k

theorem Caller.Asks.grow {versions : List α} (h : p.Asks versions) (more : List α) :
    p.Asks (versions ++ more) := by
  cases p with
  | flushing current =>
    have hlt : current < versions.length := h
    show current < (versions ++ more).length
    rw [length_append]
    omega
  | _ => exact h

theorem Answered.step (h : Answered s) (hw : Written initial s) (hs : s.Saved) (st : Step s t) :
    Answered t := by
  cases st with
  | read | saverTurn hfree ht | persist hp | persistFails hp => exact ⟨h.asks, h.flushed⟩
  | update n f hc | decline hc hfree hm | mutate hc hfree hm | count hc | stop n hc
  | stopJoin hc hfree hj | stopAtOnce hc hfree hj | stopReturn hc he =>
    exact ⟨h.goes trivial, h.flushed⟩
  | publish hc => exact ⟨fun k => (h.goes (p := .published _ _) trivial k).grow _, h.flushed⟩
  | flush n hc =>
    refine ⟨h.goes ?_, h.flushed⟩
    have hlen := hw.length
    simp only [Caller.Asks, Log.newest]
    omega
  | flushAtOnce hc hfree hf =>
    rename_i n current c answer
    refine h.answer fun ha => ?_
    subst ha
    have hlt : current < s.log.versions.length := by
      simpa only [hc, Caller.Asks] using h.asks n
    have hcount := hw.counted hfree
    generalize hr : s.store.flushBegin = r at hf
    have hfl := hr ▸ s.store.flushes
    cases hfl with
    | saved hle => exact hs.covers (by omega)
    | wait => cases hf
    | refused => cases hf
  | flushWait hc hfree hf =>
    rename_i n current c
    refine ⟨h.goes ?_, h.flushed⟩
    have hlt : current < s.log.versions.length := by
      simpa only [hc, Caller.Asks] using h.asks n
    have hcount := hw.counted hfree
    show current ≤ s.store.generation
    omega
  | flushReturn hc hfree =>
    rename_i n current wanted
    refine h.answer fun ha => hs.covers ?_
    have hle : current ≤ wanted := by simpa only [hc, Caller.Asks] using h.asks n
    exact Nat.le_trans hle (of_decide_eq_true (p := wanted ≤ s.store.persistedGeneration) ha)
  | persistSucceeds hp =>
    refine ⟨h.asks, fun c hc => (h.flushed c hc).imp_right ?_⟩
    rintro ⟨g, hg, hle⟩
    exact ⟨g, mem_append_left _ hg, hle⟩

/-! ## Every run -/

/-- The parts together, as one step keeps them. -/
structure Kept (initial : α) (s : State α) : Prop where
  written : Written initial s
  followed : Followed s.log.versions s.log.reads
  saved : s.Saved
  answered : Answered s

theorem Kept.step (h : Kept initial s) (st : Step s t) : Kept initial t where
  written := h.written.step st
  followed := h.followed.step h.written st
  saved := h.saved.step h.written st
  answered := h.answered.step h.written h.saved st

theorem kept (h : Reachable initial s) : Kept initial s := by
  induction h with
  | refl =>
    exact {
      written := written_init initial
      followed := ⟨nofun, List.Pairwise.nil⟩
      saved := ⟨nofun, List.Pairwise.nil, nofun, nofun, nofun, nofun, .inl rfl⟩
      answered := ⟨fun _ => trivial, nofun⟩ }
  | tail _ st ih => exact ih.step st

/-- What a store constructed from `initial` may have done. -/
structure Linear (initial : α) (l : Log α) : Prop where
  first : l.versions[0]? = some initial
  /-- There is one version for each accepted mutation, and no other. -/
  length : l.versions.length = l.accepted.length + 1
  /-- An accepted mutation is applied to what the one before it gave. -/
  chain : ∀ i mutate, l.accepted[i]? = some mutate →
    ∃ a b, l.versions[i]? = some a ∧ l.versions[i + 1]? = some b ∧ mutate a = some b
  /-- An update that returned as accepted has a place of its own in the chain. -/
  updated : ∀ i mutate, (i, mutate) ∈ l.updated → l.accepted[i]? = some mutate
  distinct : (l.updated.map Prod.fst).Nodup
  /-- Readers see the versions in order. -/
  read : ∀ g a, (g, a) ∈ l.reads → l.versions[g]? = some a
  reads : l.reads.Pairwise (fun x y => x.1 ≤ y.1)
  /-- `persist_` is given versions, in order. -/
  attempted : ∀ g a, (g, a) ∈ l.attempts → l.versions[g]? = some a
  attempts : l.attempts.Pairwise (fun x y => x.1 ≤ y.1)
  success : ∀ g ∈ l.successes, ∃ a, (g, a) ∈ l.attempts
  /-- A flush that answers true found a version saved that is no older than the newest one
  at its call, unless that was the one the store was constructed from. -/
  flushed : ∀ current, (current, true) ∈ l.flushed →
    current = 0 ∨ ∃ g ∈ l.successes, current ≤ g

/-- In every run, updates, reads, saves and flushes agree on one chain of versions. -/
theorem store_linear (h : Reachable initial s) : Linear initial s.log := by
  obtain ⟨hw, hr, hs, ha⟩ := kept h
  exact {
    first := hw.first
    length := hw.length
    chain := hw.chain
    updated := fun i f hi => (hw.updated i f hi).2
    distinct := hw.distinct
    read := hr.version
    reads := hr.ordered
    attempted := fun g a hg => (hs.version g a hg).2
    attempts := hs.ordered
    success := hs.success
    flushed := ha.flushed }

/-- An update, its save and a flush that finds it saved. -/
theorem store_linear_run : ∃ s : State Nat, Reachable 7 s ∧ Linear 7 s.log ∧
    s.log.versions = [7, 8] ∧ s.log.attempts = [(1, 8)] ∧ s.log.flushed = [(1, true)] := by
  have h : Reachable 7 (State.init 7) := .refl
  have h := h.tail (.update 0 (fun x => some (x + 1)) rfl)
  have h := h.tail (.mutate (n := 0) rfl rfl rfl)
  have h := h.tail (.publish (n := 0) rfl)
  have h := h.tail (.count (n := 0) rfl)
  have h := h.tail (.flush 1 rfl)
  have h := h.tail (.flushWait (n := 1) rfl rfl rfl)
  have h := h.tail (.saverTurn rfl rfl)
  have h := h.tail (.persist rfl)
  have h := h.tail (.persistSucceeds rfl)
  have h := h.tail (.saverTurn rfl rfl)
  have h := h.tail (.flushReturn (n := 1) rfl rfl)
  exact ⟨_, h, store_linear h, rfl, rfl, rfl⟩

/-- A flush of a store that was never updated answers true, and `persist_` was never called. -/
theorem fresh_flush_saves_nothing : ∃ s : State Nat, Reachable 7 s ∧
    s.log.flushed = [(0, true)] ∧ s.log.attempts = [] ∧ s.log.successes = [] := by
  have h : Reachable 7 (State.init 7) := .refl
  have h := h.tail (.flush 0 rfl)
  have h := h.tail (.flushAtOnce (n := 0) rfl rfl rfl)
  exact ⟨_, h, rfl, rfl, rfl⟩

end Satellite.Configuration
