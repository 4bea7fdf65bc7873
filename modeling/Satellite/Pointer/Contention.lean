import Mathlib.Data.List.Perm.Basic
import Satellite.Pointer.Tickets

/-!
# Runs of the queue

Any number of producers and one consumer, one access at a time. The invariant ties the words
to a queue by positions; from it come the order of the items, when a push is refused, and
that nobody writes a cell somebody else is at.
-/

namespace Satellite.Pointer.Tickets

open Function List MpscQueue

section Runs

variable {τ α : Type} {c : Capacity} {q : MpscQueue α} {s s' : State τ α}
  {claimed popped : List α} {t : τ} {P : Producer α} {pos : UInt64} {item : α}

/-- Nobody else owns a position of the cell of an owned position. -/
theorem Inv.apart (h : Inv c claimed popped q s) {u : τ} {p n : Nat} (hne : u ≠ t)
    (ht : (s.producers t).owned = some n) (hu : (s.producers u).owned = some p) :
    p % c.size.toNat ≠ n % c.size.toNat := by
  intro hmod
  have hlap := h.means.hole_lap ((h.producers t).hole ht)
  have hlap' := h.means.hole_lap ((h.producers u).hole hu)
  rw [eq_of_lap hlap' hlap hmod] at hu
  exact hne (h.alone u t n hu ht)

/-- The word of the drop counter is no part of the invariant. -/
theorem Inv.setDropped (h : Inv c claimed popped q s) (n : UInt64) :
    Inv c claimed popped q { s with words := { s.words with dropped := n } } :=
  { h with
    means := ⟨h.means.enqueue, h.means.low, h.means.high, h.means.free, h.means.hole, h.means.waits⟩
    producers u := (h.producers u).mono (Nat.le_refl _) (Nat.le_refl _) prefix_rfl
      fun _ _ hp => ⟨hp, rfl⟩
    consumer := h.consumer.mono rfl rfl fun _ hx => hx }

/-- A step of the consumer that only moves it on. -/
theorem Inv.consume (h : Inv c claimed popped q s) {C : Consumer α} (hknows : C.Knows s.words q)
    (hhand : C.inHand = s.consumer.inHand) : Inv c claimed popped q { s with consumer := C } :=
  { h with
    consumer := hknows
    head := by rw [hhand]; exact h.head
    returned := by rw [hhand]; exact h.returned }

/-- A pop that has not released its cell is at the head. -/
theorem Inv.at_head (h : Inv c claimed popped q s)
    (hc : s.consumer = .check pos ∨ s.consumer = .read pos ∨ ∃ out, s.consumer = .release pos out) :
    pos = s.words.dequeuePos ∧ pos.toNat = q.dequeuePos := by
  have hknows := h.consumer
  have hhead := h.head
  rcases hc with hc | hc | ⟨out, hc⟩
  all_goals rw [hc] at hknows hhead
  · exact ⟨hknows, hknows ▸ hhead⟩
  · exact ⟨hknows.1, hknows.1 ▸ hhead⟩
  · exact ⟨hknows.1, hknows.1 ▸ hhead⟩

theorem Inv.release (h : Inv c claimed popped q s) {out : α}
    (hc : s.consumer = .release pos out) (hfew : q.cells.length + c.size.toNat ≤ 2 ^ 63) :
    Inv c claimed popped { q with dequeuePos := q.dequeuePos + 1 }
      { s with
        consumer := .finish pos out
        words := s.words.store (pos.toNat % c.size.toNat) (pos + c.size) } := by
  have hknows := h.consumer
  have hhead := h.head
  have hreturned := h.returned
  rw [hc] at hknows hhead hreturned
  obtain ⟨hpos, hword⟩ := h.at_head (.inr (.inr ⟨out, hc⟩))
  have hout := hknows.2
  constructor
  case means => exact h.means.release hword hout hfew
  case claims => exact h.claims
  case contents => exact fun p x hp => h.contents p x (waits_of_pop hp)
  case producers =>
    intro u
    refine (h.producers u).mono (Nat.le_refl _) (Nat.le_succ _) prefix_rfl
      fun p _ hp => ⟨⟨?_, hp.2⟩, rfl⟩
    -- the head waits, so no hole is at it
    refine Nat.lt_of_le_of_ne hp.1 fun e => ?_
    exact absurd (hout.2.symm.trans (e ▸ hp.2)) (by simp)
  case alone => exact h.alone
  case owner => exact fun p hp => h.owner p (hole_of_pop hp)
  case consumer => exact hpos
  case head => exact congrArg (· + 1) hhead
  case returned =>
    have hget := h.contents _ _ hout
    rw [take_add_one, hget]
    exact congrArg (· ++ [out]) ((append_nil _).symm.trans hreturned)

theorem Inv.finish (h : Inv c claimed popped q s) {out : α} (hc : s.consumer = .finish pos out)
    (hfew : q.cells.length < 2 ^ 63) :
    Inv c claimed (popped ++ [out]) q
      { s with consumer := .idle, words := { s.words with dequeuePos := pos + 1 } } := by
  have hknows : s.consumer.Knows s.words q := h.consumer
  have hhead := h.head
  have hreturned := h.returned
  rw [hc] at hknows hhead hreturned
  have hword : pos.toNat + 1 = q.dequeuePos := by rw [hknows]; exact hhead
  have hlow := h.means.low
  constructor
  case means =>
    exact ⟨h.means.enqueue, h.means.low, h.means.high, h.means.free, h.means.hole, h.means.waits⟩
  case claims => exact h.claims
  case contents => exact h.contents
  case producers =>
    exact fun u => (h.producers u).mono (Nat.le_refl _) (Nat.le_refl _) prefix_rfl
      fun _ _ hp => ⟨hp, rfl⟩
  case alone => exact h.alone
  case owner => exact h.owner
  case consumer => trivial
  case head => exact (toNat_succ (by omega)).trans hword
  case returned => exact (append_nil _).trans hreturned

theorem Inv.initial (items : Nat → α) :
    Inv c [] [] {} (Tickets.initial items : State τ α) := by
  have hsize := c.size.toNat_lt
  constructor
  case means =>
    refine ⟨rfl, Nat.le_refl _, Nat.zero_le _, fun p _ hp => ?_, fun p hp => ?_, fun p x hp => ?_⟩
    · have hp : p < c.size.toNat := by simpa using hp
      rw [Nat.mod_eq_of_lt hp]
      exact UInt64.toNat_ofNat_of_lt' (Nat.lt_trans hp hsize)
    · exact absurd hp.2 (by simp)
    · exact absurd hp.2 (by simp)
  case contents => exact fun p x hp => absurd hp.2 (by simp)
  case owner => exact fun p hp => absurd hp.2 (by simp)
  case alone => exact fun _ _ _ hu => absurd hu (Option.some_ne_none _).symm
  all_goals first | rfl | exact fun _ => trivial | trivial

theorem claimed_note (l : Tally α) (e : Event α) : l.claimed <+: (l.note e).claimed := by
  cases e with
  | claimed pos item => exact prefix_append ..
  | _ => exact prefix_rfl

variable [DecidableEq τ]

theorem put_self (s : State τ α) (t : τ) (P : Producer α) : (s.put t P).producers t = P :=
  update_self ..

theorem put_of_ne {u : τ} (h : u ≠ t) : (s.put t P).producers u = s.producers u :=
  update_of_ne h ..

theorem forall_put {Q : τ → Producer α → Prop} (ht : Q t P)
    (h : ∀ u, u ≠ t → Q u (s.producers u)) (u : τ) : Q u ((s.put t P).producers u) := by
  by_cases hu : u = t
  · rw [hu, put_self]
    exact ht
  · rw [put_of_ne hu]
    exact h u hu

theorem owned_put (h : P.owned = (s.producers t).owned) (u : τ) :
    ((s.put t P).producers u).owned = (s.producers u).owned := by
  by_cases hu : u = t
  · rw [hu, put_self, h]
  · rw [put_of_ne hu]

/-- A step of a producer that touches neither the cells nor what is owned. -/
theorem Inv.put (h : Inv c claimed popped q s) (hknows : P.Knows c s.words q claimed)
    (howned : P.owned = (s.producers t).owned) : Inv c claimed popped q (s.put t P) :=
  { h with
    producers := forall_put hknows fun u _ => h.producers u
    alone u v p hu hv := by
      rw [owned_put howned] at hu hv
      exact h.alone u v p hu hv
    owner p hp := by
      obtain ⟨u, hu⟩ := h.owner p hp
      exact ⟨u, (owned_put howned u).trans hu⟩ }

theorem Inv.claim (h : Inv c claimed popped q s) (hroom : pos.toNat < q.dequeuePos + c.size.toNat)
    (hpos : s.words.enqueuePos = pos) (hfew : pos.toNat < 2 ^ 63)
    (hidle : (s.producers t).owned = none) :
    Inv c (claimed ++ [item]) popped { q with cells := q.cells ++ [none] }
      { s.put t (.fill item pos) with words := { s.words with enqueuePos := pos + 1 } } := by
  have hlen : pos.toNat = q.cells.length := by rw [← hpos, h.means.enqueue]
  have hlow := h.means.low
  have hnew : Hole { q with cells := q.cells ++ [none] } pos.toNat :=
    ⟨by rw [hlen]; exact hlow, by simp [hlen]⟩
  have hkeep : ∀ p, q.Hole p → Hole { q with cells := q.cells ++ [none] } p :=
    fun p hp => ⟨hp.1, (getElem?_append_left (hole_lt hp)).trans hp.2⟩
  constructor
  case means => exact h.means.claim hlen hroom hfew
  case claims => simp [h.claims]
  case contents =>
    intro p x hp
    have hold := waits_of_claim hp
    have hlt : p < claimed.length := h.claims ▸ waits_lt hold
    rw [getElem?_append_left hlt]
    exact h.contents p x hold
  case producers =>
    refine forall_put ⟨hnew, by simp [hlen, ← h.claims]⟩ fun u _ => ?_
    exact (h.producers u).mono (by simp) (Nat.le_refl _) (prefix_append ..)
      fun p _ hp => ⟨hkeep p hp, rfl⟩
  case alone =>
    -- the position just claimed is past every position owned before
    have hpast : ∀ u, (s.producers u).owned ≠ some pos.toNat := by
      intro u hu
      have := hole_lt ((h.producers u).hole hu)
      omega
    intro u v p hu hv
    simp only [State.put, update_apply] at hu hv
    split at hu <;> split at hv
    · simp_all
    · cases hu
      exact absurd hv (hpast v)
    · cases hv
      exact absurd hu (hpast u)
    · exact h.alone u v p hu hv
  case owner =>
    intro p hp
    rcases hole_of_claim hp with hold | hlast
    · obtain ⟨u, hu⟩ := h.owner p hold
      have hne : u ≠ t := fun e => by rw [e, hidle] at hu; cases hu
      exact ⟨u, by rw [← hu]; exact congrArg Producer.owned (put_of_ne hne)⟩
    · refine ⟨t, (congrArg Producer.owned (put_self ..)).trans ?_⟩
      rw [hlast, ← hlen]
      rfl
  case consumer =>
    exact h.consumer.mono rfl rfl fun x hx =>
      ⟨hx.1, (getElem?_append_left (waits_lt hx)).trans hx.2⟩
  case head => exact h.head
  case returned =>
    rw [take_append_of_le_length (h.claims ▸ hlow)]
    exact h.returned

theorem Inv.fill (h : Inv c claimed popped q s) (ht : s.producers t = .fill item pos) :
    Inv c claimed popped q
      { s.put t (.publish item pos) with
        words := s.words.write (pos.toNat % c.size.toNat) item } := by
  have hknows := h.producers t
  rw [ht] at hknows
  have hown : (s.producers t).owned = some pos.toNat := by rw [ht]; rfl
  have hsame : (Producer.publish item pos).owned = (s.producers t).owned := hown.symm
  constructor
  case means => exact h.means.write hknows.1
  case claims => exact h.claims
  case contents => exact h.contents
  case producers =>
    refine forall_put ⟨hknows.1, hknows.2, Words.write_self ..⟩ fun u hu => ?_
    exact (h.producers u).mono (Nat.le_refl _) (Nat.le_refl _) prefix_rfl
      fun p hp hhole => ⟨hhole, Words.write_of_ne (h.apart hu hown hp)⟩
  case alone =>
    intro u v p hu hv
    exact h.alone u v p ((owned_put hsame u).symm.trans hu) ((owned_put hsame v).symm.trans hv)
  case owner =>
    intro p hp
    obtain ⟨u, hu⟩ := h.owner p hp
    exact ⟨u, (owned_put hsame u).trans hu⟩
  case consumer => exact h.consumer.mono rfl rfl fun _ hx => hx
  case head => exact h.head
  case returned => exact h.returned

theorem Inv.publish (h : Inv c claimed popped q s) (ht : s.producers t = .publish item pos)
    (hfew : pos.toNat < 2 ^ 63) :
    Inv c claimed popped (q.publish pos.toNat item)
      { s.put t .idle with words := s.words.store (pos.toNat % c.size.toNat) (pos + 1) } := by
  have hknows := h.producers t
  rw [ht] at hknows
  obtain ⟨hhole, hclaimed, hitem⟩ := hknows
  have hown : (s.producers t).owned = some pos.toNat := by rw [ht]; rfl
  have hkeep : ∀ p, p ≠ pos.toNat → (q.publish pos.toNat item).cells[p]? = q.cells[p]? :=
    fun p hp => getElem?_set_ne (Ne.symm hp)
  constructor
  case means => exact h.means.publish hhole hitem hfew
  case claims => exact h.claims.trans length_set.symm
  case contents =>
    intro p x hp
    rcases waits_of_publish hp with hold | ⟨rfl, rfl⟩
    · exact h.contents p x hold
    · exact hclaimed
  case producers =>
    refine forall_put trivial fun u hu => ?_
    refine (h.producers u).mono (Nat.le_of_eq length_set.symm) (Nat.le_refl _)
      prefix_rfl fun p hp hold => ⟨⟨hold.1, ?_⟩, rfl⟩
    have hne : p ≠ pos.toNat := fun e => h.apart hu hown hp (by rw [e])
    exact (hkeep p hne).trans hold.2
  case alone =>
    intro u v p hu hv
    simp only [State.put, update_apply] at hu hv
    split at hu <;> split at hv
    · cases hu
    · cases hu
    · cases hv
    · exact h.alone u v p hu hv
  case owner =>
    intro p hp
    obtain ⟨hold, hne⟩ := hole_of_publish hp
    obtain ⟨u, hu⟩ := h.owner p hold
    have hut : u ≠ t := by
      rintro rfl
      rw [hown] at hu
      exact hne (Option.some.inj hu).symm
    exact ⟨u, (congrArg Producer.owned (put_of_ne hut)).trans hu⟩
  case consumer =>
    refine h.consumer.mono rfl rfl fun x hx => ⟨hx.1, (hkeep _ ?_).trans hx.2⟩
    intro e
    exact absurd (hx.2.symm.trans (e ▸ hhole.2)) (by simp)
  case head => exact h.head
  case returned => exact h.returned

/-- Every access keeps the invariant and is a move of the queue by positions. -/
theorem Inv.step {l : Tally α} {e : Event α} (h : Inv c l.claimed l.popped q s)
    (hs : Step c s e s') (hfew : (l.note e).claimed.length + c.size.toNat ≤ 2 ^ 63) :
    ∃ q', Moves c q e q' ∧ Inv c (l.note e).claimed (l.note e).popped q' s' := by
  have htwo := c.two_le
  have hclaims := h.claims
  have hlow := h.means.low
  have henqueue := h.means.enqueue
  cases hs with
  | @push t item ht => exact ⟨q, .pushed, h.put trivial (by rw [ht]; rfl)⟩
  | @load t item ht | @retry t item pos ht =>
    exact ⟨q, .quiet, h.put (Nat.le_of_eq henqueue) (by rw [ht]; rfl)⟩
  | @check t item pos ht =>
    have hfew : l.claimed.length + c.size.toNat ≤ 2 ^ 63 := hfew
    have hpos : pos.toNat ≤ q.cells.length := by
      have := h.producers t
      rwa [ht] at this
    have hticket := h.means.ticket_lt (by omega) pos.toNat
    refine ⟨q, .quiet, ?_⟩
    rw [c.index_eq, verdict_eq item hticket (by omega)]
    split
    next heq => exact h.put ⟨hpos, h.means.lap_of_ticket_eq heq⟩ (by rw [ht]; rfl)
    · split
      · exact h.put trivial (by rw [ht]; rfl)
      · exact h.put trivial (by rw [ht]; rfl)
  | @claim t item pos ht hpos =>
    have hfew : (l.claimed ++ [item]).length + c.size.toNat ≤ 2 ^ 63 := hfew
    rw [length_append] at hfew
    have hknows := h.producers t
    rw [ht] at hknows
    have hword : pos.toNat = q.cells.length := by rw [← hpos, henqueue]
    have hroom : pos.toNat < q.dequeuePos + c.size.toNat := hknows.2
    refine ⟨_, .claimed ?_, h.claim hroom hpos (by omega) (by rw [ht]; rfl)⟩
    rw [MpscQueue.claim, if_pos (by omega), hword]
  | @fill t item pos ht =>
    rw [c.index_eq]
    exact ⟨q, .quiet, h.fill ht⟩
  | @publish t item pos ht =>
    have hfew : l.claimed.length + c.size.toNat ≤ 2 ^ 63 := hfew
    have hknows := h.producers t
    rw [ht] at hknows
    have hlt := hole_lt hknows.1
    rw [c.index_eq]
    exact ⟨_, .published hknows.1, h.publish ht (by omega)⟩
  | @drop t item ht =>
    exact ⟨q, .refused, (h.put (P := .idle) trivial (by rw [ht]; rfl)).setDropped _⟩
  | pop hc => exact ⟨q, .quiet, h.consume trivial (by rw [hc]; rfl)⟩
  | popLoad hc => exact ⟨q, .quiet, h.consume rfl (by rw [hc]; rfl)⟩
  | @popCheck pos hc =>
    have hfew : l.claimed.length + c.size.toNat ≤ 2 ^ 63 := hfew
    obtain ⟨hpos, hword⟩ := h.at_head (.inl hc)
    refine ⟨q, .quiet, ?_⟩
    unfold popVerdict
    split
    next hticket =>
      rw [c.index_eq, hword] at hticket
      refine h.consume ⟨hpos, h.means.waits_of_ticket_succ ?_⟩ (by rw [hc]; rfl)
      rw [hticket, toNat_succ (by omega), hword]
    · exact h.consume trivial (by rw [hc]; rfl)
  | @popRead pos hc =>
    have hknows := h.consumer
    rw [hc] at hknows
    obtain ⟨hpos, x, hx⟩ := hknows
    have hword := (h.at_head (.inr (.inl hc))).2
    have hitem : s.words.item (c.index pos) = x := by
      rw [c.index_eq, hword]
      exact (h.means.waits _ x hx).2
    rw [hitem]
    exact ⟨q, .quiet, h.consume ⟨hpos, hx⟩ (by rw [hc]; rfl)⟩
  | @popRelease pos out hc =>
    have hfew : l.claimed.length + c.size.toNat ≤ 2 ^ 63 := hfew
    have hknows := h.consumer
    rw [hc] at hknows
    rw [c.index_eq]
    refine ⟨_, .released ?_, h.release hc (by omega)⟩
    rw [pop, hknows.2.2]
  | @popFinish pos out hc =>
    have hfew : l.claimed.length + c.size.toNat ≤ 2 ^ 63 := hfew
    exact ⟨q, .popped, h.finish hc (by omega)⟩

/-- Every run is a run of the queue by positions. -/
theorem Run.inv {items : Nat → α} {l : Tally α} (h : Run c items l s)
    (hfew : l.claimed.length + c.size.toNat ≤ 2 ^ 63) :
    ∃ q, Played c q ∧ Inv c l.claimed l.popped q s := by
  induction h with
  | start => exact ⟨{}, .start, Inv.initial items⟩
  | @step l s s' e hrun hs ih =>
    have hle := (claimed_note l e).length_le
    obtain ⟨q, hplayed, hq⟩ := ih (by omega)
    obtain ⟨q', hmove, hq'⟩ := hq.step hs hfew
    exact ⟨q', hplayed.move hmove, hq'⟩

end Runs

section Accounts

variable {τ α : Type} [DecidableEq τ] {c : Capacity} {s s' : State τ α} {t : τ} {item : α}

/-- The item of a push that is neither claimed nor refused yet. -/
def Producer.pending : Producer α → Option α
  | .load item | .check item _ | .claim item _ | .drop item => some item
  | _ => none

/-- Every item pushed is settled or pending with one producer. -/
def Accounted (pushed settled : List α) (pending : τ → Option α) : Prop :=
  ∃ waiting : List τ, waiting.Nodup ∧ (∀ t, t ∈ waiting ↔ pending t ≠ none) ∧
    pushed.Perm (settled ++ waiting.filterMap pending)

variable {pushed settled settled' : List α} {due : τ → Option α}

theorem filterMap_update_of_notMem {waiting : List τ} (h : t ∉ waiting) (v : Option α) :
    waiting.filterMap (update due t v) = waiting.filterMap due := by
  refine filterMap_congr fun u hu => ?_
  have hne : u ≠ t := fun e => h (e ▸ hu)
  exact update_of_ne hne ..

theorem Accounted.begin (h : Accounted pushed settled due) (ht : due t = none) :
    Accounted (pushed ++ [item]) settled (update due t (some item)) := by
  obtain ⟨waiting, hnodup, hmem, hperm⟩ := h
  have hnot : t ∉ waiting := fun hin => (hmem t).1 hin ht
  refine ⟨t :: waiting, hnodup.cons hnot, fun u => ?_, ?_⟩
  · by_cases hu : u = t
    · simp [hu]
    · rw [mem_cons, update_of_ne hu, ← hmem]
      simp [hu]
  · rw [filterMap_cons, update_self, filterMap_update_of_notMem hnot]
    exact (perm_append_singleton item pushed).trans
      ((hperm.cons item).trans perm_middle.symm)

theorem Accounted.settle (h : Accounted pushed settled due) (ht : due t = some item)
    (hsettled : settled'.Perm (item :: settled)) :
    Accounted pushed settled' (update due t none) := by
  obtain ⟨waiting, hnodup, hmem, hperm⟩ := h
  have hin : t ∈ waiting := (hmem t).2 (by rw [ht]; exact Option.some_ne_none _)
  refine ⟨waiting.erase t, hnodup.erase t, fun u => ?_, ?_⟩
  · rw [hnodup.mem_erase_iff, hmem]
    by_cases hu : u = t
    · simp [hu]
    · simp [hu]
  · rw [filterMap_update_of_notMem hnodup.not_mem_erase]
    have hsplit : (waiting.filterMap due).Perm
        (item :: (waiting.erase t).filterMap due) := by
      have := (perm_cons_erase hin).filterMap due
      rwa [filterMap_cons, ht] at this
    calc pushed.Perm (settled ++ waiting.filterMap due) := hperm
      List.Perm _ (settled ++ item :: (waiting.erase t).filterMap due) :=
        hsplit.append_left settled
      List.Perm _ (item :: settled ++ (waiting.erase t).filterMap due) := perm_middle
      List.Perm _ (settled' ++ (waiting.erase t).filterMap due) :=
        hsettled.symm.append_right _

def State.pending (s : State τ α) (t : τ) : Option α := (s.producers t).pending

theorem State.pending_put (s : State τ α) (t : τ) (P : Producer α) :
    (s.put t P).pending = update s.pending t P.pending :=
  funext fun u => apply_update (fun _ => Producer.pending) s.producers t P u

theorem State.pending_put_of_eq {P : Producer α} (h : P.pending = (s.producers t).pending) :
    (s.put t P).pending = s.pending := by
  rw [State.pending_put, h]
  exact update_eq_self ..

omit [DecidableEq τ] in
theorem pending_verdict (item : α) (pos sequence : UInt64) :
    (verdict item pos sequence).pending = some item := by
  simp only [verdict]
  split
  · rfl
  · split <;> rfl

def Tally.Balanced (l : Tally α) (s : State τ α) : Prop :=
  Accounted l.pushed (l.claimed ++ l.refused) s.pending

theorem Tally.Balanced.step {l : Tally α} {e : Event α} (h : l.Balanced s) (hs : Step c s e s') :
    (l.note e).Balanced s' := by
  have hsame : ∀ {t : τ} {P : Producer α}, P.pending = (s.producers t).pending →
      Accounted l.pushed (l.claimed ++ l.refused) (s.put t P).pending := by
    intro t P hP
    rw [State.pending_put_of_eq hP]
    exact h
  cases hs with
  | @push t item ht =>
    have hnone : s.pending t = none := by rw [State.pending, ht]; rfl
    show Accounted (l.pushed ++ [item]) (l.claimed ++ l.refused) (s.put t (.load item)).pending
    rw [State.pending_put]
    exact h.begin hnone
  | @load t item ht | @retry t item pos ht => exact hsame (by rw [ht]; rfl)
  | @check t item pos ht =>
    exact hsame (by rw [ht]; exact pending_verdict ..)
  | @claim t item pos ht hpos =>
    have hsome : s.pending t = some item := by rw [State.pending, ht]; rfl
    have hperm : ((l.claimed ++ [item]) ++ l.refused).Perm (item :: (l.claimed ++ l.refused)) := by
      rw [append_assoc]
      exact perm_middle
    show Accounted l.pushed (l.claimed ++ [item] ++ l.refused) (s.put t (.fill item pos)).pending
    rw [State.pending_put]
    exact h.settle hsome hperm
  | @fill t item pos ht => exact hsame (P := .publish item pos) (by rw [ht]; rfl)
  | @publish t item pos ht => exact hsame (P := .idle) (by rw [ht]; rfl)
  | @drop t item ht =>
    have hsome : s.pending t = some item := by rw [State.pending, ht]; rfl
    have hperm : (l.claimed ++ (l.refused ++ [item])).Perm (item :: (l.claimed ++ l.refused)) := by
      rw [← append_assoc]
      exact perm_append_singleton ..
    show Accounted l.pushed (l.claimed ++ (l.refused ++ [item])) (s.put t .idle).pending
    rw [State.pending_put]
    exact h.settle hsome hperm
  | pop | popLoad | popCheck | popRead | popRelease | popFinish => exact h

theorem Run.balanced {items : Nat → α} {l : Tally α} (h : Run c items l s) : l.Balanced s := by
  induction h with
  | start => exact ⟨[], nodup_nil, fun t => by simp [State.pending, initial, Producer.pending],
      List.Perm.refl _⟩
  | step _ hs ih => exact ih.step hs

theorem Run.dropped {items : Nat → α} {l : Tally α} (h : Run c items l s) :
    s.words.dropped = UInt64.ofNat l.refused.length := by
  induction h with
  | start => rfl
  | @step l s s' e _ hs ih =>
    cases hs with
    | drop ht =>
      rw [Tally.note, length_append, length_singleton, UInt64.ofNat_add, ← ih]
      rfl
    | _ => exact ih

end Accounts

section Service

variable {τ α : Type} {c : Capacity} {q : MpscQueue α} {s : State τ α}
  {items : Nat → α} {l : Tally α} {claimed popped : List α}

theorem Inv.popped_prefix (h : Inv c claimed popped q s) : popped <+: claimed :=
  (prefix_append ..).trans (h.returned ▸ take_prefix ..)

/-- A push that finds its ticket behind has a whole lap of unreturned items before it. -/
theorem Inv.full_of_drop (h : Inv c claimed popped q s)
    (hfew : claimed.length + c.size.toNat ≤ 2 ^ 63) {t : τ} {item : α} {pos : UInt64}
    (ht : s.producers t = .check item pos)
    (hdrop : verdict item pos (s.words.sequence (c.index pos)) = .drop item) :
    popped.length + c.size.toNat ≤ claimed.length := by
  have htwo := c.two_le
  have hclaims := h.claims
  have hpos : pos.toNat ≤ q.cells.length := by
    have := h.producers t
    rwa [ht] at this
  have hticket := h.means.ticket_lt (by omega) pos.toNat
  rw [c.index_eq, verdict_eq item hticket (by omega)] at hdrop
  have hbehind : (s.words.sequence (pos.toNat % c.size.toNat)).toNat < pos.toNat := by
    split at hdrop
    · cases hdrop
    · split at hdrop
      · assumption
      · cases hdrop
  have hfull := h.means.full_of_ticket_lt hpos hbehind
  have hlen := congrArg List.length h.returned
  rw [length_append, length_take] at hlen
  omega

/-- With no push under way, a pop that finds nothing has returned everything. -/
theorem Inv.drained (h : Inv c claimed popped q s)
    (hfew : claimed.length + c.size.toNat ≤ 2 ^ 63) (hidle : ∀ t, s.producers t = .idle)
    {pos : UInt64} (hc : s.consumer = .check pos)
    (hnone : popVerdict pos (s.words.sequence (c.index pos)) = (.idle : Consumer α)) :
    popped = claimed := by
  have hclaims := h.claims
  have hword := (h.at_head (.inl hc)).2
  have hreturned := h.returned
  rw [hc] at hreturned
  have hend : q.cells.length ≤ q.dequeuePos := by
    by_contra hmore
    rcases hole_or_waits (Nat.le_refl _) (by omega : q.dequeuePos < q.cells.length) with
      hhole | ⟨x, hx⟩
    · obtain ⟨t, ht⟩ := h.owner _ hhole
      rw [hidle t] at ht
      cases ht
    · have hticket : s.words.sequence (c.index pos) = pos + 1 := by
        refine UInt64.toNat_inj.1 ?_
        rw [toNat_succ (by omega), c.index_eq, hword]
        exact (h.means.waits _ x hx).1
      rw [popVerdict, if_pos hticket] at hnone
      cases hnone
  rw [take_of_length_le (by omega)] at hreturned
  exact (append_nil _).symm.trans hreturned

theorem Inv.fill_apart_read (h : Inv c claimed popped q s) {t : τ} {item : α} {pos pos' : UInt64}
    (ht : s.producers t = .fill item pos) (hc : s.consumer = .read pos') :
    c.index pos ≠ c.index pos' := by
  have hhole := h.producers t
  have hknows := h.consumer
  rw [ht] at hhole
  rw [hc] at hknows
  obtain ⟨-, x, hx⟩ := hknows
  have hword := (h.at_head (.inr (.inl hc))).2
  rw [c.index_eq, c.index_eq, hword]
  intro hmod
  have hsame := eq_of_lap (h.means.hole_lap hhole.1) (h.means.waits_lap hx) hmod
  exact absurd (hx.2.symm.trans (hsame ▸ hhole.1.2)) (by simp)

theorem Inv.fill_apart_fill (h : Inv c claimed popped q s) {t u : τ} {item item' : α}
    {pos pos' : UInt64} (hne : t ≠ u) (ht : s.producers t = .fill item pos)
    (hu : s.producers u = .fill item' pos') : c.index pos ≠ c.index pos' := by
  rw [c.index_eq, c.index_eq]
  exact h.apart hne (by rw [hu]; rfl) (by rw [ht]; rfl)

variable [DecidableEq τ]

/-- Items come out in the order of the claims, once each; a push is refused only when a whole
lap of claimed items has not been returned; the drop counter counts the refusals; and no
producer writes a cell that the consumer reads or another producer writes. -/
theorem run_serves (h : Run c items l s) (hpushes : l.pushed.length < 2 ^ 63)
    (hclaims : l.claimed.length + c.size.toNat ≤ 2 ^ 63) :
    l.popped <+: l.claimed ∧ l.Balanced s ∧
    (l.pushed.Nodup → l.popped.Nodup ∧ ∀ x ∈ l.refused, x ∉ l.popped) ∧
    ((∀ t, s.producers t = .idle) → ∀ pos, s.consumer = .check pos →
      popVerdict pos (s.words.sequence (c.index pos)) = (.idle : Consumer α) →
      l.popped = l.claimed) ∧
    (∀ t item pos, s.producers t = .check item pos →
      verdict item pos (s.words.sequence (c.index pos)) = .drop item →
      l.popped.length + c.size.toNat ≤ l.claimed.length) ∧
    s.words.dropped.toNat = l.refused.length ∧
    (∀ t item pos pos', s.producers t = .fill item pos → s.consumer = .read pos' →
      c.index pos ≠ c.index pos') ∧
    (∀ t u item item' pos pos', t ≠ u → s.producers t = .fill item pos →
      s.producers u = .fill item' pos' → c.index pos ≠ c.index pos') := by
  obtain ⟨q, -, hinv⟩ := h.inv hclaims
  have hbalanced := h.balanced
  obtain ⟨waiting, -, -, hperm⟩ := hbalanced
  have hrefused : l.refused.length ≤ l.pushed.length := by
    have := hperm.length_eq
    simp only [length_append] at this
    omega
  refine ⟨hinv.popped_prefix, h.balanced, fun hnodup => ?_, fun hidle pos hc hnone =>
    hinv.drained hclaims hidle hc hnone, fun t item pos ht hdrop =>
    hinv.full_of_drop hclaims ht hdrop, ?_, fun t item pos pos' ht hc =>
    hinv.fill_apart_read ht hc, fun t u item item' pos pos' hne ht hu =>
    hinv.fill_apart_fill hne ht hu⟩
  · have hsettled := (nodup_append.1 (hperm.nodup_iff.1 hnodup)).1
    obtain ⟨hclaimed, -, hapart⟩ := nodup_append.1 hsettled
    refine ⟨hclaimed.sublist hinv.popped_prefix.sublist, fun x hx hpopped => ?_⟩
    exact hapart x (hinv.popped_prefix.subset hpopped) x hx rfl
  · rw [h.dropped]
    exact UInt64.toNat_ofNat_of_lt' (by simp only [UInt64.size]; omega)

end Service

section Undisturbed

variable {τ α : Type} [DecidableEq τ] {c : Capacity} {s : State τ α} {items : Nat → α}
  {l : Tally α}

/-- A push that no other thread disturbs, on a cell that is free for it. -/
theorem Run.push_alone (h : Run c items l s) {t : τ} (item : α) (ht : s.producers t = .idle)
    (hfree : s.words.sequence (c.index s.words.enqueuePos) = s.words.enqueuePos) :
    Run c items { l with pushed := l.pushed ++ [item], claimed := l.claimed ++ [item] }
      { s with words :=
        { (s.words.write (c.index s.words.enqueuePos) item).store (c.index s.words.enqueuePos)
            (s.words.enqueuePos + 1) with enqueuePos := s.words.enqueuePos + 1 } } := by
  have hclaim : verdict item s.words.enqueuePos s.words.enqueuePos =
      .claim item s.words.enqueuePos := by simp [verdict]
  have hback : update s.producers t .idle = s.producers := by
    rw [← ht, update_eq_self]
  have hloaded := (h.step (.push item ht)).step (.load (put_self ..))
  have hchecked := hloaded.step (.check (put_self ..))
  simp only [State.put, update_idem, hfree, hclaim] at hchecked
  have hclaimed := hchecked.step (.claim (update_self ..) rfl)
  have hfilled := hclaimed.step (.fill (update_self ..))
  have hpublished := hfilled.step (.publish (update_self ..))
  simp only [State.put, update_idem, hback] at hpublished
  exact hpublished

/-- A pop that finds its item. -/
theorem Run.pop_alone (h : Run c items l s) (hc : s.consumer = .idle)
    (hwaits : s.words.sequence (c.index s.words.dequeuePos) = s.words.dequeuePos + 1) :
    Run c items { l with popped := l.popped ++ [s.words.item (c.index s.words.dequeuePos)] }
      { s with words :=
        { s.words.store (c.index s.words.dequeuePos) (s.words.dequeuePos + c.size) with
          dequeuePos := s.words.dequeuePos + 1 } } := by
  have hchecked := ((h.step (.pop hc)).step (.popLoad rfl)).step (.popCheck rfl)
  simp only [popVerdict, if_pos hwaits] at hchecked
  have hfinished := ((hchecked.step (.popRead rfl)).step (.popRelease rfl)).step (.popFinish rfl)
  rw [← hc] at hfinished
  exact hfinished

end Undisturbed

/-- The smallest capacity at which a position can be `2 ^ 63` behind its ticket while fewer
pushes than that have begun. -/
def four : Capacity := ⟨4, by decide, by decide⟩

/-- An item pushed and popped. -/
theorem run_serves_seven :
    ∃ (l : Tally Nat) (s : State Bool Nat), Run four (fun _ => 0) l s ∧ l.popped = [7] ∧
      l.popped <+: l.claimed ∧ s.words.dropped.toNat = l.refused.length := by
  have hrun : Run four (fun _ => 0) {} (initial (fun _ => 0) : State Bool Nat) := .start
  have hpopped := (hrun.push_alone (t := true) 7 rfl (by decide)).pop_alone rfl (by decide)
  obtain ⟨horder, -, -, -, -, hdropped, -⟩ := run_serves hpopped (by decide) (by decide)
  exact ⟨_, _, hpopped, by decide, horder, hdropped⟩

/-- One producer stands at its check with position zero while another has passed `n` items
through the queue. -/
structure Parked (n : Nat) (l : Tally Unit) (s : State Bool Unit) : Prop where
  run : Run four (fun _ => ()) l s
  pushed : l.pushed.length = n + 1
  claimed : l.claimed.length = n
  popped : l.popped.length = n
  parked : s.producers true = .check () 0
  free : s.producers false = .idle
  consumer : s.consumer = .idle

theorem Parked.start : ∃ l s, Parked 0 l s := by
  have hrun : Run four (fun _ => ()) {} (initial (fun _ => ()) : State Bool Unit) := .start
  have hparked := (hrun.step (.push (t := true) () rfl)).step (.load (put_self ..))
  exact ⟨_, _, hparked, rfl, rfl, rfl, put_self .., rfl, rfl⟩

/-- One more item; the cell it went through gets the ticket of the next lap. -/
theorem Parked.lap {n : Nat} {l : Tally Unit} {s : State Bool Unit} (h : Parked n l s)
    (hn : n + 4 ≤ 2 ^ 63) :
    ∃ l' s', Parked (n + 1) l' s' ∧ (s'.words.sequence (n % 4)).toNat = n + 4 := by
  obtain ⟨q, -, hinv⟩ := h.run.inv (by rw [h.claimed]; exact hn)
  have hlen : q.cells.length = n := hinv.claims.symm.trans h.claimed
  have hlow := hinv.means.low
  have hreturned := hinv.returned
  have hhead := hinv.head
  rw [h.consumer] at hhead hreturned
  have hdequeue : q.dequeuePos = n := by
    have hcount := congrArg List.length hreturned
    rw [length_append, length_take, h.popped, h.claimed] at hcount
    simp only [Consumer.inHand, length_nil] at hcount
    omega
  have henqueue : s.words.enqueuePos.toNat = n := hinv.means.enqueue.trans hlen
  have hsame : s.words.dequeuePos = s.words.enqueuePos :=
    UInt64.toNat_inj.1 (hhead.trans (hdequeue.trans henqueue.symm))
  have hindex : four.index s.words.enqueuePos = n % 4 := by
    rw [four.index_eq, henqueue]
    rfl
  have hfree : s.words.sequence (four.index s.words.enqueuePos) = s.words.enqueuePos := by
    refine UInt64.toNat_inj.1 ?_
    rw [henqueue, hindex]
    refine hinv.means.free n (Nat.le_of_eq hlen) ?_
    rw [hdequeue]
    exact Nat.lt_add_of_pos_right (by decide)
  have hpushed := h.run.push_alone () h.free hfree
  have hpopped := hpushed.pop_alone h.consumer (by
    show (Words.store _ _ _).sequence (four.index s.words.dequeuePos) = s.words.dequeuePos + 1
    rw [hsame]
    exact Words.store_self ..)
  refine ⟨_, _, ⟨hpopped, by simp [h.pushed], by simp [h.claimed], by simp [h.popped], h.parked,
    h.free, h.consumer⟩, ?_⟩
  show ((Words.store _ (four.index s.words.dequeuePos) (s.words.dequeuePos + 4)).sequence
    (n % 4)).toNat = n + 4
  rw [hsame, hindex, Words.store_self, UInt64.toNat_add, henqueue]
  exact Nat.mod_eq_of_lt (Nat.lt_of_le_of_lt hn (by decide))

theorem Parked.exists {n : Nat} (hn : n + 3 ≤ 2 ^ 63) : ∃ l s, Parked n l s := by
  induction n with
  | zero => exact Parked.start
  | succ n ih =>
    obtain ⟨l, s, h⟩ := ih (by omega)
    obtain ⟨l', s', h', -⟩ := h.lap (by omega)
    exact ⟨l', s', h'⟩

/-- A position `2 ^ 63` behind the ticket of its cell looks ahead of it: the push is about to
be refused although the queue is empty. -/
theorem stale_push_refused :
    ∃ (l : Tally Unit) (s : State Bool Unit), Run four (fun _ => ()) l s ∧
      l.pushed.length < 2 ^ 63 ∧ s.producers true = .check () 0 ∧
      verdict () 0 (s.words.sequence (four.index 0)) = .drop () ∧
      l.claimed.length = l.popped.length := by
  obtain ⟨l, s, h⟩ := Parked.exists (n := 2 ^ 63 - 4) (by decide)
  obtain ⟨l', s', h', hticket⟩ := h.lap (by decide)
  refine ⟨l', s', h'.run, by rw [h'.pushed]; decide, h'.parked, ?_, by rw [h'.claimed, h'.popped]⟩
  have hcell : (2 ^ 63 - 4) % 4 = four.index 0 := by decide
  rw [hcell] at hticket
  have hword : s'.words.sequence (four.index 0) = 0x8000000000000000 :=
    UInt64.toNat_inj.1 (hticket.trans (by decide))
  rw [hword]
  decide

end Satellite.Pointer.Tickets
