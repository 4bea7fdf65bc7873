import Mathlib.Data.List.Nodup

/-!
# Pairing requests

The registry of `net/pairing.cpp`: a capped list of requests, one row per device,
that expire five minutes after they were made. Every function runs under
`g_pairMtx`, so an interleaving of callers is a list of calls. The type of the keys
is left open: the registry only stages them.
-/

namespace Satellite.Pairing

open List

inductive PairRequestState
  | none
  | pending
  | approved
  | denied
  deriving DecidableEq

structure PendingPair (κ : Type) where
  deviceId : String
  deviceName : String
  clientIP : String
  /-- The PIN the dish is showing. -/
  clientPin : String
  /-- The staged key, set on approval. -/
  keyHex : Option κ := none
  state : PairRequestState := .pending
  createdAt : Nat
  deriving DecidableEq

variable {κ : Type}

/-- A pending request as the operator sees it. -/
structure PairRequestView where
  deviceId : String
  deviceName : String
  clientIP : String
  pin : String
  secondsRemaining : Nat
  deriving DecidableEq

/-- `kPairTtl` in nanoseconds. -/
def pairTtl : Nat := 5 * 60 * 1000000000

def maxPending : Nat := 8

def isExpired (now : Nat) (p : PendingPair κ) : Bool := decide (pairTtl < now - p.createdAt)

def pruneLocked (now : Nat) (rows : List (PendingPair κ)) : List (PendingPair κ) :=
  rows.filter fun p => !isExpired now p

def findLocked (rows : List (PendingPair κ)) (deviceId : String) : Option (PendingPair κ) :=
  rows.find? fun p => p.deviceId == deviceId

def eraseLocked (rows : List (PendingPair κ)) (deviceId : String) : List (PendingPair κ) :=
  rows.filter fun p => p.deviceId != deviceId

/-- Write through the pointer that `findLocked` returns. -/
def writeLocked (deviceId : String) (f : PendingPair κ → PendingPair κ) :
    List (PendingPair κ) → List (PendingPair κ)
  | [] => []
  | p :: rows => if p.deviceId == deviceId then f p :: rows else p :: writeLocked deviceId f rows

/-- A repeated request takes over its row. -/
def PendingPair.refresh (now : Nat) (deviceName clientIP clientPin : String) (p : PendingPair κ) :
    PendingPair κ :=
  { p with deviceName := deviceName, clientIP := clientIP, clientPin := clientPin
           keyHex := none, state := .pending, createdAt := now }

/-- The operator accepts the request and stages a key for its next poll. -/
def PendingPair.approve (mintedKeyHex : κ) (p : PendingPair κ) : PendingPair κ :=
  { p with state := .approved, keyHex := some mintedKeyHex }

/-- A repeated request refreshes its row in place; a new one may push out the oldest row. -/
def submitPairRequest (now : Nat) (deviceId deviceName clientIP clientPin : String)
    (rows : List (PendingPair κ)) : List (PendingPair κ) :=
  let rows := pruneLocked now rows
  if (findLocked rows deviceId).isSome then
    writeLocked deviceId (PendingPair.refresh now deviceName clientIP clientPin) rows
  else
    (if rows.length ≥ maxPending then rows.tail else rows) ++
      [{ deviceId := deviceId, deviceName := deviceName, clientIP := clientIP
         clientPin := clientPin, createdAt := now }]

def denyPairRequest (deviceId : String) (rows : List (PendingPair κ)) : Bool × List (PendingPair κ) :=
  if (findLocked rows deviceId).isSome then (true, eraseLocked rows deviceId) else (false, rows)

/-- The state and, once, the staged key. -/
def pollPairRequest (now : Nat) (deviceId : String) (rows : List (PendingPair κ)) :
    (PairRequestState × Option κ) × List (PendingPair κ) :=
  let rows := pruneLocked now rows
  match findLocked rows deviceId with
  | none => ((.none, none), rows)
  | some p =>
    if p.state = .approved then ((.approved, p.keyHex), eraseLocked rows deviceId)
    else ((p.state, none), rows)

def PendingPair.view (now : Nat) (p : PendingPair κ) : PairRequestView :=
  { deviceId := p.deviceId, deviceName := p.deviceName, clientIP := p.clientIP, pin := p.clientPin
    secondsRemaining := (pairTtl - (now - p.createdAt)) / 1000000000 }

def pendingPairRequests (now : Nat) (rows : List (PendingPair κ)) :
    List PairRequestView × List (PendingPair κ) :=
  let rows := pruneLocked now rows
  ((rows.filter fun p => p.state = .pending).map (PendingPair.view now), rows)

def pairRequestSnapshot (now : Nat) (deviceId : String) (rows : List (PendingPair κ)) :
    Option PairRequestView × List (PendingPair κ) :=
  let rows := pruneLocked now rows
  (((findLocked rows deviceId).filter fun p => p.state = .pending).map (PendingPair.view now), rows)

/-- The name and the address of the request that was approved. -/
def acceptPairRequestConfirmed (now : Nat) (deviceId : String) (mintedKeyHex : κ)
    (rows : List (PendingPair κ)) : Option (String × String) × List (PendingPair κ) :=
  let rows := pruneLocked now rows
  match (findLocked rows deviceId).filter fun p => p.state = .pending with
  | none => (none, rows)
  | some p =>
    (some (p.deviceName, p.clientIP),
      writeLocked deviceId (PendingPair.approve mintedKeyHex) rows)

/-! ## Calls -/

inductive PairOp (κ : Type)
  | submit (deviceId deviceName clientIP clientPin : String)
  | deny (deviceId : String)
  | poll (deviceId : String)
  | views
  | snapshot (deviceId : String)
  | accept (deviceId : String) (mintedKeyHex : κ)
  deriving DecidableEq

/-- One call of the registry and its time. -/
structure PairCall (κ : Type) where
  op : PairOp κ
  now : Nat
  deriving DecidableEq

/-- The rows a call leaves behind. -/
def PairCall.rows (c : PairCall κ) (rows : List (PendingPair κ)) : List (PendingPair κ) :=
  match c.op with
  | .submit deviceId deviceName clientIP clientPin =>
    submitPairRequest c.now deviceId deviceName clientIP clientPin rows
  | .deny deviceId => (denyPairRequest deviceId rows).2
  | .poll deviceId => (pollPairRequest c.now deviceId rows).2
  | .views => (pendingPairRequests c.now rows).2
  | .snapshot deviceId => (pairRequestSnapshot c.now deviceId rows).2
  | .accept deviceId mintedKeyHex => (acceptPairRequestConfirmed c.now deviceId mintedKeyHex rows).2

/-- The rows after some calls, the first call first. -/
def rowsAfter (rows : List (PendingPair κ)) (calls : List (PairCall κ)) : List (PendingPair κ) :=
  calls.foldl (fun rows c => c.rows rows) rows

/-- Calls at non-decreasing times, none of them before `start`. -/
def InOrder (start : Nat) (calls : List (PairCall κ)) : Prop :=
  (start :: calls.map PairCall.now).Pairwise (· ≤ ·)

@[simp] theorem PendingPair.deviceId_refresh (now : Nat) (deviceName clientIP clientPin : String)
    (p : PendingPair κ) : (p.refresh now deviceName clientIP clientPin).deviceId = p.deviceId := rfl

@[simp] theorem PendingPair.deviceId_approve (mintedKeyHex : κ) (p : PendingPair κ) :
    (p.approve mintedKeyHex).deviceId = p.deviceId := rfl

/-! ## One row per device, at most eight rows -/

/-- The registry's own invariant. -/
structure Tidy (rows : List (PendingPair κ)) : Prop where
  once : (rows.map PendingPair.deviceId).Nodup
  few : rows.length ≤ maxPending

variable {rows : List (PendingPair κ)} {d e : String} {now : Nat}

theorem Tidy.sublist {rows' : List (PendingPair κ)} (h : Tidy rows) (hsub : rows'.Sublist rows) :
    Tidy rows' :=
  ⟨h.once.sublist (hsub.map _), Nat.le_trans hsub.length_le h.few⟩

theorem Tidy.prune (h : Tidy rows) (now : Nat) : Tidy (pruneLocked now rows) :=
  h.sublist filter_sublist

variable {f : PendingPair κ → PendingPair κ}

theorem map_deviceId_writeLocked
    (hf : ∀ p, (f p).deviceId = p.deviceId) (d : String) (rows : List (PendingPair κ)) :
    (writeLocked d f rows).map PendingPair.deviceId = rows.map PendingPair.deviceId := by
  induction rows with
  | nil => rfl
  | cons p rows ih =>
    rw [writeLocked]
    split
    · simp [hf]
    · simp [ih]

theorem Tidy.write (h : Tidy rows)
    (hf : ∀ p, (f p).deviceId = p.deviceId) (d : String) : Tidy (writeLocked d f rows) := by
  have hids := map_deviceId_writeLocked hf d rows
  constructor
  · rw [hids]
    exact h.once
  · have hlen := congrArg List.length hids
    rw [length_map, length_map] at hlen
    rw [hlen]
    exact h.few

theorem findLocked_eq_none : findLocked rows d = none ↔ d ∉ rows.map PendingPair.deviceId := by
  simp [findLocked]

variable {p : PendingPair κ}

/-- Make room for a row that is not there yet, and put it last. -/
theorem Tidy.push (h : Tidy rows) (hnew : findLocked rows p.deviceId = none) :
    Tidy ((if rows.length ≥ maxPending then rows.tail else rows) ++ [p]) := by
  have hnotin := findLocked_eq_none.1 hnew
  have hroom : ∀ {rows' : List (PendingPair κ)}, rows'.Sublist rows → rows'.length < maxPending →
      Tidy (rows' ++ [p]) := by
    intro rows' hsub hlen
    constructor
    · rw [map_append, nodup_append]
      refine ⟨h.once.sublist (hsub.map _), nodup_singleton _, ?_⟩
      intro a ha b hb heq
      rw [map_singleton, mem_singleton] at hb
      exact hnotin ((hsub.map _).subset (hb ▸ heq ▸ ha))
    · rw [length_append, length_singleton]
      exact hlen
  split
  case isTrue hfull =>
    apply hroom (tail_sublist rows)
    have hfew := h.few
    rw [length_tail]
    unfold maxPending at *
    omega
  case isFalse hfull => exact hroom (List.Sublist.refl _) (Nat.lt_of_not_le hfull)

theorem Tidy.call (h : Tidy rows) (c : PairCall κ) : Tidy (c.rows rows) := by
  have hpruned := h.prune c.now
  obtain ⟨op, now⟩ := c
  cases op with
  | submit deviceId deviceName clientIP clientPin =>
    simp only [PairCall.rows, submitPairRequest]
    split
    · exact hpruned.write (PendingPair.deviceId_refresh _ _ _ _) deviceId
    next hnone => exact hpruned.push (by simpa using hnone)
  | deny deviceId =>
    simp only [PairCall.rows, denyPairRequest]
    split
    · exact h.sublist filter_sublist
    · exact h
  | poll deviceId =>
    simp only [PairCall.rows, pollPairRequest]
    split
    · exact hpruned
    · split
      · exact hpruned.sublist filter_sublist
      · exact hpruned
  | views => exact hpruned
  | snapshot deviceId => exact hpruned
  | accept deviceId mintedKeyHex =>
    simp only [PairCall.rows, acceptPairRequestConfirmed]
    split
    · exact hpruned
    · exact hpruned.write (PendingPair.deviceId_approve _) deviceId

theorem Tidy.rowsAfter (h : Tidy rows) (calls : List (PairCall κ)) : Tidy (rowsAfter rows calls) := by
  induction calls generalizing rows with
  | nil => exact h
  | cons c calls ih => exact ih (h.call c)

theorem tidy_nil : Tidy ([] : List (PendingPair κ)) := ⟨nodup_nil, Nat.zero_le _⟩

/-! ## What a call does to one device's row -/

theorem findLocked_cons (p : PendingPair κ) (rows : List (PendingPair κ)) (d : String) :
    findLocked (p :: rows) d = if p.deviceId = d then some p else findLocked rows d := by
  by_cases hp : p.deviceId = d <;> simp [findLocked, hp]

theorem findLocked_prune (h : Tidy rows) (now : Nat) (d : String) :
    findLocked (pruneLocked now rows) d = (findLocked rows d).filter fun p => !isExpired now p := by
  obtain ⟨hnodup, -⟩ := h
  -- Only the row found can be the device's, so dropping it leaves none behind.
  induction rows with
  | nil => rfl
  | cons p rows ih =>
    rw [map_cons, nodup_cons] at hnodup
    have ih := ih hnodup.2
    rw [findLocked_cons, pruneLocked, filter_cons]
    by_cases hp : p.deviceId = d
    · have hrest : findLocked rows d = none := findLocked_eq_none.2 (hp ▸ hnodup.1)
      rw [hrest, pruneLocked] at ih
      by_cases hold : isExpired now p
      · simp [hp, hold, ih, Option.filter_some]
      · simp [hp, hold, findLocked_cons, Option.filter_some]
    · rw [pruneLocked] at ih
      by_cases hold : isExpired now p
      · simp [hp, hold, ih]
      · simp [hp, hold, ih, findLocked_cons]

theorem findLocked_erase (rows : List (PendingPair κ)) (e d : String) :
    findLocked (eraseLocked rows e) d = if d = e then none else findLocked rows d := by
  rw [findLocked, eraseLocked, find?_filter]
  by_cases hd : d = e
  · subst hd
    rw [if_pos rfl, find?_eq_none]
    intro p _
    simp
  · rw [if_neg hd, findLocked]
    congr 1
    funext p
    by_cases hp : p.deviceId = d
    · simp [hp, hd]
    · simp [hp]

theorem findLocked_write (hf : ∀ p, (f p).deviceId = p.deviceId)
    (rows : List (PendingPair κ)) (e d : String) :
    findLocked (writeLocked e f rows) d =
      if d = e then (findLocked rows d).map f else findLocked rows d := by
  induction rows with
  | nil => simp [writeLocked, findLocked]
  | cons p rows ih =>
    rw [findLocked] at ih
    by_cases hp : p.deviceId = e
    · by_cases hd : d = e
      · simp [writeLocked, findLocked, hf, hp, hd]
      · have hne : e ≠ d := fun heq => hd heq.symm
        simp [writeLocked, findLocked, hf, hp, hd, hne]
    · by_cases hd : p.deviceId = d
      · have hne : d ≠ e := hd ▸ hp
        simp [writeLocked, findLocked, hd, hne]
      · simp [writeLocked, findLocked, hp, hd, ih]

theorem findLocked_push (rows : List (PendingPair κ)) (p : PendingPair κ) (d : String)
    (hd : p.deviceId ≠ d) : findLocked (rows ++ [p]) d = findLocked rows d := by
  rw [findLocked, find?_append]
  simp [hd, findLocked]

theorem findLocked_tail (h : Tidy rows) (d : String) :
    findLocked rows.tail d =
      if (rows.head?.map PendingPair.deviceId) = some d then none else findLocked rows d := by
  cases rows with
  | nil => simp [findLocked]
  | cons p rows =>
    have hnodup := h.once
    rw [map_cons, nodup_cons] at hnodup
    by_cases hp : p.deviceId = d
    · have hrest : findLocked rows d = none := findLocked_eq_none.2 (hp ▸ hnodup.1)
      simp [hp, hrest]
    · simp [findLocked, hp]

/-- The call pushes out the row of `d`: another device's first submission finds eight live rows
and the row of `d` is the oldest. -/
def PairCall.Evicts (c : PairCall κ) (rows : List (PendingPair κ)) (d : String) : Prop :=
  match c.op with
  | .submit deviceId _ _ _ =>
    findLocked (pruneLocked c.now rows) deviceId = none ∧
      maxPending ≤ (pruneLocked c.now rows).length ∧
      ((pruneLocked c.now rows).head?.map PendingPair.deviceId) = some d
  | _ => False

/-- The call is a submission, a denial or a poll of `d` itself. -/
def PairOp.IsOwn (d : String) : PairOp κ → Prop
  | .submit deviceId _ _ _ => deviceId = d
  | .deny deviceId => deviceId = d
  | .poll deviceId => deviceId = d
  | _ => False

/-- A call that is not the device's own leaves its approved row alone until the row expires,
unless it pushes the row out. -/
theorem findLocked_rows {c : PairCall κ} (h : Tidy rows) (hown : ¬ c.op.IsOwn d)
    (hp : findLocked rows d = some p) (happroved : p.state = .approved)
    (hlive : isExpired c.now p = false) :
    (c.Evicts rows d → findLocked (c.rows rows) d = none) ∧
      (¬ c.Evicts rows d → findLocked (c.rows rows) d = some p) := by
  have hpruned : findLocked (pruneLocked c.now rows) d = some p := by
    rw [findLocked_prune h, hp, Option.filter_some, hlive]
    rfl
  obtain ⟨op, now⟩ := c
  cases op with
  | submit e deviceName clientIP clientPin =>
    have hne : d ≠ e := fun heq => hown heq.symm
    simp only [PairCall.rows, PairCall.Evicts, submitPairRequest]
    cases hrow : findLocked (pruneLocked now rows) e with
    | some q =>
      rw [if_pos Option.isSome_some, findLocked_write (PendingPair.deviceId_refresh _ _ _ _),
        if_neg hne]
      exact ⟨fun hev => (Option.some_ne_none q hev.1).elim, fun _ => hpruned⟩
    | none =>
      rw [if_neg (by simp), findLocked_push _ _ _ (Ne.symm hne)]
      by_cases hfull : maxPending ≤ (pruneLocked now rows).length
      · rw [if_pos hfull, findLocked_tail (h.prune now)]
        by_cases hhead : (pruneLocked now rows).head?.map PendingPair.deviceId = some d
        · simp [hhead, hfull]
        · simp [hhead, hpruned]
      · rw [if_neg hfull]
        simp [hfull, hpruned]
  | deny e =>
    have hne : d ≠ e := fun heq => hown heq.symm
    simp only [PairCall.rows, PairCall.Evicts, denyPairRequest]
    refine ⟨False.elim, fun _ => ?_⟩
    split
    · rw [findLocked_erase, if_neg hne]
      exact hp
    · exact hp
  | poll e =>
    have hne : d ≠ e := fun heq => hown heq.symm
    simp only [PairCall.rows, PairCall.Evicts, pollPairRequest]
    refine ⟨False.elim, fun _ => ?_⟩
    split
    · exact hpruned
    · split
      · rw [findLocked_erase, if_neg hne]
        exact hpruned
      · exact hpruned
  | views | snapshot e => exact ⟨False.elim, fun _ => hpruned⟩
  | accept e mintedKeyHex =>
    simp only [PairCall.rows, PairCall.Evicts, acceptPairRequestConfirmed]
    refine ⟨False.elim, fun _ => ?_⟩
    split
    · exact hpruned
    next q hq =>
      -- An approved row is not accepted a second time.
      have hne : d ≠ e := by
        rintro rfl
        rw [hpruned, Option.filter_some, happroved] at hq
        simp at hq
      rw [findLocked_write (PendingPair.deviceId_approve _), if_neg hne]
      exact hpruned

/-- The call is a submission of `d`. -/
def PairOp.Submits (d : String) : PairOp κ → Prop
  | .submit deviceId _ _ _ => deviceId = d
  | _ => False

theorem PairOp.Submits.isOwn {op : PairOp κ} (h : op.Submits d) : op.IsOwn d := by
  cases op with
  | submit => exact h
  | _ => exact h.elim

/-- Only a submission makes or changes a request; all an accept does is to approve it. -/
theorem findLocked_origin {c : PairCall κ} {p' : PendingPair κ} (h : Tidy rows)
    (hsub : ¬ c.op.Submits d) (hp' : findLocked (c.rows rows) d = some p') :
    ∃ p, findLocked rows d = some p ∧ (p' = p ∨ ∃ key, c.op = .accept d key ∧ p.state = .pending ∧
      p' = p.approve key ∧ (acceptPairRequestConfirmed c.now d key rows).1.isSome = true) := by
  have hpruned : ∀ {p}, findLocked (pruneLocked c.now rows) d = some p →
      findLocked rows d = some p := by
    intro p hp
    rw [findLocked_prune h] at hp
    exact (Option.filter_eq_some_iff.1 hp).1
  have herased : ∀ {rows' : List (PendingPair κ)} {e : String} {p : PendingPair κ},
      findLocked (eraseLocked rows' e) d = some p → findLocked rows' d = some p := by
    intro rows' e p hp
    rw [findLocked_erase] at hp
    split at hp
    · cases hp
    · exact hp
  obtain ⟨op, now⟩ := c
  cases op with
  | submit e deviceName clientIP clientPin =>
    have hne : d ≠ e := fun heq => hsub heq.symm
    simp only [PairCall.rows, submitPairRequest] at hp'
    refine ⟨p', ?_, .inl rfl⟩
    split at hp'
    · rw [findLocked_write (PendingPair.deviceId_refresh _ _ _ _), if_neg hne] at hp'
      exact hpruned hp'
    · rw [findLocked_push _ _ _ (Ne.symm hne)] at hp'
      split at hp'
      · rw [findLocked_tail (h.prune now)] at hp'
        split at hp'
        · cases hp'
        · exact hpruned hp'
      · exact hpruned hp'
  | deny e =>
    simp only [PairCall.rows, denyPairRequest] at hp'
    refine ⟨p', ?_, .inl rfl⟩
    split at hp'
    · exact herased hp'
    · exact hp'
  | poll e =>
    simp only [PairCall.rows, pollPairRequest] at hp'
    refine ⟨p', ?_, .inl rfl⟩
    split at hp'
    · exact hpruned hp'
    · split at hp'
      · exact hpruned (herased hp')
      · exact hpruned hp'
  | views | snapshot e => exact ⟨p', hpruned hp', .inl rfl⟩
  | accept e mintedKeyHex =>
    simp only [PairCall.rows, acceptPairRequestConfirmed] at hp'
    split at hp'
    · exact ⟨p', hpruned hp', .inl rfl⟩
    next q hq =>
      rw [findLocked_write (PendingPair.deviceId_approve _)] at hp'
      split at hp'
      next hde =>
        subst hde
        obtain ⟨hfound, hpending⟩ := Option.filter_eq_some_iff.1 hq
        rw [hfound, Option.map_some, Option.some_inj] at hp'
        refine ⟨q, hpruned hfound,
          Or.inr ⟨mintedKeyHex, rfl, of_decide_eq_true hpending, hp'.symm, ?_⟩⟩
        rw [acceptPairRequestConfirmed, hq]
        rfl
      · exact ⟨p', hpruned hp', .inl rfl⟩

theorem findLocked_origin_run {calls : List (PairCall κ)} {p' : PendingPair κ} (h : Tidy rows)
    (hsub : ∀ c ∈ calls, ¬ c.op.Submits d) (hp' : findLocked (rowsAfter rows calls) d = some p') :
    ∃ p, findLocked rows d = some p ∧ (p' = p ∨ p.state = .pending ∧ p'.state = .approved) := by
  induction calls generalizing rows with
  | nil => exact ⟨p', hp', .inl rfl⟩
  | cons c calls ih =>
    rw [forall_mem_cons] at hsub
    obtain ⟨q, hq, hlater⟩ := ih (h.call c) hsub.2 hp'
    obtain ⟨p, hp, hnow⟩ := findLocked_origin h hsub.1 hq
    refine ⟨p, hp, ?_⟩
    rcases hnow with rfl | ⟨key, -, hpending, rfl, -⟩
    · exact hlater
    · rcases hlater with rfl | ⟨hstill, -⟩
      · exact .inr ⟨hpending, rfl⟩
      · cases hstill

/-- A submission leaves the device's row waiting for the operator. -/
theorem findLocked_submit {deviceName clientIP clientPin : String}
    (hp : findLocked (submitPairRequest now d deviceName clientIP clientPin rows) d = some p) :
    p.state = .pending := by
  rw [submitPairRequest] at hp
  split at hp
  · rw [findLocked_write (PendingPair.deviceId_refresh _ _ _ _), if_pos rfl] at hp
    obtain ⟨q, -, rfl⟩ := Option.map_eq_some_iff.1 hp
    rfl
  next hnone =>
    have hrows : ∀ {rows' : List (PendingPair κ)}, rows'.Sublist (pruneLocked now rows) →
        findLocked rows' d = none := by
      intro rows' hsub
      rw [findLocked_eq_none]
      intro hd
      apply hnone
      rw [Option.isSome_iff_ne_none, Ne, findLocked_eq_none, not_not]
      exact (hsub.map _).subset hd
    rw [findLocked, find?_append] at hp
    have hold : (if (pruneLocked now rows).length ≥ maxPending then (pruneLocked now rows).tail
        else pruneLocked now rows).find? (fun p => p.deviceId == d) = none := by
      split
      · exact hrows (tail_sublist _)
      · exact hrows (List.Sublist.refl _)
    rw [hold] at hp
    simp only [Option.none_or, find?_singleton, beq_self_eq_true, if_true, Option.some_inj] at hp
    rw [← hp]

/-- A poll leaves no approved row of its device behind. -/
theorem findLocked_poll
    (hp : findLocked (pollPairRequest now d rows).2 d = some p) : p.state ≠ .approved := by
  intro happroved
  rw [pollPairRequest] at hp
  split at hp
  next hnone =>
    rw [hnone] at hp
    cases hp
  next q hq =>
    split at hp
    · rw [findLocked_erase, if_pos rfl] at hp
      cases hp
    next hq' =>
      rw [hq, Option.some_inj] at hp
      exact hq' (hp ▸ happroved)

/-- Where an approved row comes from: it was there before, or the call has just accepted it. -/
theorem approved_origin {c : PairCall κ} (h : Tidy rows)
    (hp : findLocked (c.rows rows) d = some p) (happroved : p.state = .approved) :
    c.op ≠ .poll d ∧ (findLocked rows d = some p ∨ ∃ key, c.op = .accept d key ∧
      p.keyHex = some key ∧ (acceptPairRequestConfirmed c.now d key rows).1.isSome = true) := by
  constructor
  · intro hop
    rw [PairCall.rows, hop] at hp
    exact findLocked_poll hp happroved
  · by_cases hsub : c.op.Submits d
    · obtain ⟨op, now⟩ := c
      cases op with
      | submit e deviceName clientIP clientPin =>
        cases hsub
        rw [findLocked_submit hp] at happroved
        cases happroved
      | _ => exact hsub.elim
    · obtain ⟨q, hq, rfl | ⟨key, hop, -, rfl, hok⟩⟩ := findLocked_origin h hsub hp
      · exact .inl hq
      · exact .inr ⟨key, hop, rfl, hok⟩

/-- A poll returns a key only from an approved row. -/
theorem findLocked_of_poll (h : Tidy rows) {key : κ}
    (hpoll : (pollPairRequest now d rows).1 = (.approved, some key)) :
    ∃ p, findLocked rows d = some p ∧ p.state = .approved ∧ p.keyHex = some key := by
  rw [pollPairRequest] at hpoll
  split at hpoll
  · cases hpoll
  next p hp =>
    rw [findLocked_prune h] at hp
    split at hpoll
    next happroved =>
      exact ⟨p, (Option.filter_eq_some_iff.1 hp).1, happroved, congrArg Prod.snd hpoll⟩
    · cases congrArg Prod.snd hpoll

/-! ## Approvals under a flood -/

/-- No call of the list pushes out the row of `d`. -/
def NeverEvicts (d : String) : List (PendingPair κ) → List (PairCall κ) → Prop
  | _, [] => True
  | rows, c :: calls => ¬ c.Evicts rows d ∧ NeverEvicts d (c.rows rows) calls

/-- An approved row is there after the calls of others exactly if none of them pushed it out. -/
theorem findLocked_rowsAfter {calls : List (PairCall κ)} (h : Tidy rows)
    (hown : ∀ c ∈ calls, ¬ c.op.IsOwn d) (hlive : ∀ c ∈ calls, isExpired c.now p = false)
    (hp : findLocked rows d = some p) (happroved : p.state = .approved) :
    (NeverEvicts d rows calls → findLocked (rowsAfter rows calls) d = some p) ∧
      (¬ NeverEvicts d rows calls → findLocked (rowsAfter rows calls) d = none) := by
  induction calls generalizing rows with
  | nil => exact ⟨fun _ => hp, fun hnot => absurd trivial hnot⟩
  | cons c calls ih =>
    rw [forall_mem_cons] at hown hlive
    obtain ⟨hgone, hkept⟩ := findLocked_rows h hown.1 hp happroved hlive.1
    rw [NeverEvicts]
    by_cases hev : c.Evicts rows d
    · refine ⟨fun hnever => absurd hev hnever.1, fun _ => ?_⟩
      cases hfound : findLocked (rowsAfter rows (c :: calls)) d with
      | none => rfl
      | some q =>
        obtain ⟨q', hq', -⟩ := findLocked_origin_run (h.call c)
          (fun c hc hsub => hown.2 c hc hsub.isOwn) hfound
        rw [hgone hev] at hq'
        cases hq'
    · obtain ⟨hstay, hlost⟩ := ih (h.call c) hown.2 hlive.2 (hkept hev)
      exact ⟨fun hnever => hstay hnever.2, fun hnot => hlost fun hrest => hnot ⟨hev, hrest⟩⟩

theorem isExpired_mono {now later : Nat} (hle : now ≤ later)
    (h : isExpired later p = false) : isExpired now p = false := by
  simp only [isExpired, decide_eq_false_iff_not] at h ⊢
  omega

/-- What an accept leaves behind when it succeeds. -/
theorem findLocked_accept {mintedKeyHex : κ} {told : String × String}
    (h : (acceptPairRequestConfirmed now d mintedKeyHex rows).1 = some told) :
    ∃ p, findLocked (pruneLocked now rows) d = some p ∧ p.state = .pending ∧
      findLocked (acceptPairRequestConfirmed now d mintedKeyHex rows).2 d =
        some (p.approve mintedKeyHex) := by
  simp only [acceptPairRequestConfirmed] at h ⊢
  split at h
  · cases h
  next p hp =>
    obtain ⟨hfound, hpending⟩ := Option.filter_eq_some_iff.1 hp
    refine ⟨p, hfound, of_decide_eq_true hpending, ?_⟩
    rw [findLocked_write (PendingPair.deviceId_approve _), if_pos rfl, hfound, Option.map_some]

/-- The registry keeps one row per device and at most eight rows. An accepted request is handed
out with its key by the device's next poll, made in its lifetime and with no submission or denial
of it in between, exactly if no other device's submission pushed its row out. -/
theorem approval_polled_iff (before calls : List (PairCall κ)) :
    Tidy (rowsAfter [] before) ∧
      ∀ {d : String} {mintedKeyHex : κ} {accepted polled : Nat} {told : String × String}
        {p : PendingPair κ},
        (acceptPairRequestConfirmed accepted d mintedKeyHex (rowsAfter [] before)).1 = some told →
        findLocked (pruneLocked accepted (rowsAfter [] before)) d = some p →
        isExpired polled p = false →
        InOrder accepted (calls ++ [⟨.poll d, polled⟩]) →
        (∀ c ∈ calls, ¬ c.op.IsOwn d) →
        let rows := (acceptPairRequestConfirmed accepted d mintedKeyHex (rowsAfter [] before)).2
        ((pollPairRequest polled d (rowsAfter rows calls)).1 = (.approved, some mintedKeyHex) ↔
          NeverEvicts d rows calls) := by
  have htidy := tidy_nil.rowsAfter before
  refine ⟨htidy, ?_⟩
  intro d mintedKeyHex accepted polled told p hok hfound hlive horder hown rows
  obtain ⟨q, hq, -, hrow⟩ := findLocked_accept hok
  rw [hfound, Option.some_inj] at hq
  subst hq
  have hrows : Tidy rows := htidy.call ⟨.accept d mintedKeyHex, accepted⟩
  have hlivecalls : ∀ c ∈ calls, isExpired c.now (p.approve mintedKeyHex) = false := by
    intro c hc
    apply isExpired_mono _ hlive
    rw [InOrder, pairwise_cons, map_append, pairwise_append] at horder
    exact horder.2.2.2 c.now (mem_map_of_mem hc) polled (mem_singleton_self _)
  obtain ⟨hstay, hlost⟩ := findLocked_rowsAfter hrows hown hlivecalls hrow rfl
  rw [pollPairRequest, findLocked_prune (hrows.rowsAfter calls)]
  by_cases hnever : NeverEvicts d rows calls
  · have hstill : isExpired polled (p.approve mintedKeyHex) = false := hlive
    rw [hstay hnever, Option.filter_some, hstill]
    simp [PendingPair.approve, hnever]
  · rw [hlost hnever, Option.filter_none]
    simp [hnever]

/-- A submission of device `d` at time 0. -/
def submission (d : String) : PairCall String := ⟨.submit d "dish" "10.0.0.1" "1234", 0⟩

/-- Eight devices ask, device `a` first. -/
def eightRequests : List (PairCall String) := ["a", "b", "c", "d", "e", "f", "g", "h"].map submission

theorem approval_polled_beside_others :
    (pollPairRequest 0 "b" (rowsAfter
      (acceptPairRequestConfirmed 0 "b" "key" (rowsAfter [] eightRequests)).2
      [submission "i"])).1 = (.approved, some "key") := by
  have hok : (acceptPairRequestConfirmed 0 "b" "key" (rowsAfter [] eightRequests)).1 =
      some ("dish", "10.0.0.1") := rfl
  have horder : InOrder 0 ([submission "i"] ++ [⟨.poll "b", 0⟩]) := by simp [InOrder, submission]
  have hown : ∀ c ∈ [submission "i"], ¬ c.op.IsOwn "b" := by simp [submission, PairOp.IsOwn]
  apply ((approval_polled_iff eightRequests [submission "i"]).2 hok rfl (by decide) horder hown).2
  -- The ninth request pushes out the row of device `a`.
  refine ⟨?_, trivial⟩
  rintro ⟨-, -, hhead⟩
  revert hhead
  decide

/-- The operator accepts the oldest of eight requests, a ninth device asks, and the accepted
device's poll finds nothing. -/
theorem approval_lost_to_ninth_device :
    ∃ before calls told p,
      (acceptPairRequestConfirmed 0 "a" "key" (rowsAfter [] before)).1 = some told ∧
      findLocked (pruneLocked 0 (rowsAfter [] before)) "a" = some p ∧ isExpired 0 p = false ∧
      InOrder 0 (calls ++ [⟨.poll "a", 0⟩]) ∧ (∀ c ∈ calls, ¬ c.op.IsOwn "a") ∧
      (pollPairRequest 0 "a" (rowsAfter
        (acceptPairRequestConfirmed 0 "a" "key" (rowsAfter [] before)).2 calls)).1 = (.none, none) := by
  refine ⟨eightRequests, [submission "i"], ("dish", "10.0.0.1"), _, rfl, rfl, by decide, ?_, ?_,
    by decide⟩
  · simp [InOrder, submission]
  · simp [submission, PairOp.IsOwn]

/-! ## What the operator saw -/

/-- The call showed the operator the view. -/
def PairCall.Shows (c : PairCall κ) (rows : List (PendingPair κ)) (v : PairRequestView) : Prop :=
  match c.op with
  | .views => v ∈ (pendingPairRequests c.now rows).1
  | .snapshot deviceId => (pairRequestSnapshot c.now deviceId rows).1 = some v
  | _ => False

theorem findLocked_of_mem (h : Tidy rows) (hp : p ∈ rows) :
    findLocked rows p.deviceId = some p := by
  cases hfound : findLocked rows p.deviceId with
  | none =>
    rw [findLocked_eq_none] at hfound
    exact absurd (mem_map_of_mem hp) hfound
  | some q =>
    have hq : q ∈ rows := mem_of_find?_eq_some hfound
    have hid : q.deviceId = p.deviceId := by simpa using find?_some hfound
    rw [inj_on_of_nodup_map h.once hq hp hid]

/-- A view shows the row of its device. -/
theorem PairCall.Shows.row {c : PairCall κ} {v : PairRequestView} (h : Tidy rows)
    (hv : c.Shows rows v) :
    ∃ p, findLocked (c.rows rows) v.deviceId = some p ∧ p.state = .pending ∧ v = p.view c.now := by
  obtain ⟨op, now⟩ := c
  cases op with
  | views =>
    obtain ⟨p, hp, rfl⟩ := List.mem_map.1 hv
    obtain ⟨hmem, hpending⟩ := List.mem_filter.1 hp
    exact ⟨p, findLocked_of_mem (h.prune now) hmem, of_decide_eq_true hpending, rfl⟩
  | snapshot e =>
    obtain ⟨p, hp, rfl⟩ := Option.map_eq_some_iff.1 hv
    obtain ⟨hfound, hpending⟩ := Option.filter_eq_some_iff.1 hp
    have hid : p.deviceId = e := by simpa using find?_some hfound
    exact ⟨p, by rw [show (p.view now).deviceId = e from hid]; exact hfound,
      of_decide_eq_true hpending, rfl⟩
  | submit | deny | poll | accept => exact hv.elim

/-- Where the device submits nothing between a view and an accept, the accept approves the very
request the view showed. -/
theorem accept_approves_the_request_shown {before between : List (PairCall κ)} {view : PairCall κ}
    {v : PairRequestView} {now : Nat} {mintedKeyHex : κ} {told : String × String}
    (hv : view.Shows (rowsAfter [] before) v)
    (hsub : ∀ c ∈ between, ¬ c.op.Submits v.deviceId)
    (hok : (acceptPairRequestConfirmed now v.deviceId mintedKeyHex
      (rowsAfter [] (before ++ view :: between))).1 = some told) :
    ∃ p, findLocked (rowsAfter [] (before ++ [view])) v.deviceId = some p ∧ v = p.view view.now ∧
      findLocked (acceptPairRequestConfirmed now v.deviceId mintedKeyHex
        (rowsAfter [] (before ++ view :: between))).2 v.deviceId = some (p.approve mintedKeyHex) ∧
      (p.approve mintedKeyHex).clientPin = v.pin ∧ (p.approve mintedKeyHex).clientIP = v.clientIP := by
  have htidy := tidy_nil.rowsAfter before
  have hview := htidy.call view
  have hlast : rowsAfter [] (before ++ [view]) = view.rows (rowsAfter [] before) := by
    rw [rowsAfter, foldl_append]
    rfl
  have hrun : rowsAfter [] (before ++ view :: between) =
      rowsAfter (view.rows (rowsAfter [] before)) between := by
    rw [rowsAfter, foldl_append]
    rfl
  rw [hrun] at hok ⊢
  obtain ⟨p, hp, -, hshown⟩ := hv.row htidy
  obtain ⟨q, hq, hpending, hafter⟩ := findLocked_accept hok
  rw [findLocked_prune (hview.rowsAfter between)] at hq
  obtain ⟨p', hp', hsame⟩ := findLocked_origin_run hview hsub (Option.filter_eq_some_iff.1 hq).1
  rw [hp, Option.some_inj] at hp'
  subst hp'
  rcases hsame with rfl | ⟨-, happroved⟩
  · exact ⟨q, by rw [hlast, hp], hshown, hafter, by rw [hshown]; rfl, by rw [hshown]; rfl⟩
  · rw [hpending] at happroved
    cases happroved

theorem accept_approves_the_request_shown_run :
    ∃ p, findLocked (rowsAfter [] ([submission "a"] ++ [⟨.views, 0⟩])) "a" = some p ∧
      findLocked (acceptPairRequestConfirmed 0 "a" "key" (rowsAfter []
        ([submission "a"] ++ ⟨.views, 0⟩ :: [submission "b"]))).2 "a" = some (p.approve "key") := by
  have hv : (⟨.views, 0⟩ : PairCall String).Shows (rowsAfter [] [submission "a"])
      ⟨"a", "dish", "10.0.0.1", "1234", 300⟩ := by
    change _ ∈ (pendingPairRequests 0 (rowsAfter [] [submission "a"])).1
    decide
  have hsub : ∀ c ∈ [submission "b"], ¬ c.op.Submits "a" := by simp [submission, PairOp.Submits]
  obtain ⟨p, hp, -, hafter, -⟩ := accept_approves_the_request_shown hv hsub
    (rfl : (acceptPairRequestConfirmed 0 "a" "key" _).1 = some ("dish", "10.0.0.1"))
  exact ⟨p, hp, hafter⟩

/-- The operator is shown PIN 1234 from one address and accepts; the request approved shows
PIN 6666 and came from another address after the view. -/
theorem accept_approves_a_later_submission :
    ∃ before view between v p, view.Shows (rowsAfter [] before) v ∧
      InOrder 0 (before ++ view :: between) ∧
      (acceptPairRequestConfirmed 2 v.deviceId "key"
        (rowsAfter [] (before ++ view :: between))).1.isSome = true ∧
      findLocked (acceptPairRequestConfirmed 2 v.deviceId "key"
        (rowsAfter [] (before ++ view :: between))).2 v.deviceId = some p ∧
      p.keyHex = some "key" ∧ p.clientPin ≠ v.pin ∧ p.clientIP ≠ v.clientIP := by
  refine ⟨[submission "a"], ⟨.views, 0⟩, [⟨.submit "a" "dish" "10.6.6.6" "6666", 1⟩],
    ⟨"a", "dish", "10.0.0.1", "1234", 300⟩, _, ?_, ?_, rfl, rfl, rfl, by decide, by decide⟩
  · change _ ∈ (pendingPairRequests 0 (rowsAfter [] [submission "a"])).1
    decide
  · simp [InOrder, submission]

end Satellite.Pairing
