import Satellite.Topology.Teardown

/-!
# The operations that close sessions

Closing one session, the sessions of a device, all sessions, and reaping those
that timed out. Each keeps the invariant; each either ends by looking at the bus
or leaves the pads, the pool and the bus as they were.
-/

namespace Satellite

open List Cold SessionService Machine

/-- No pad, no serial and no lifecycle call: at most the records' stall marks differ. -/
structure Quiet (v v' : Topo) : Prop where
  bus : v'.bus = v.bus
  idle : v'.Idle ↔ v.Idle
  empty : v.cold.connections = [] → v' = { v with held := v'.held }

/-- How every operation ends. -/
structure Completed (B : Backend) (v v' : Topo) : Prop where
  settled : Settled B v'
  outcome : Quiet v v' ∨ SessionService.Recovered B v'

theorem Quiet.of_held {v v' : Topo} (h : v' = { v with held := v'.held }) : Quiet v v' where
  bus := by rw [h]
  idle := by
    rw [h]
    exact Iff.rfl
  empty _ := h

/-- A section that changes nothing. -/
theorem Completed.unchanged {B : Backend} {v : Topo} (h : Settled B v) :
    Completed B v ({ v with locked := true } : Topo).release := by
  refine ⟨h.acquire.release, .inl (.of_held ?_)⟩
  rw [Topo.release, h.unlocked]

/-- Set the stall mark of one record. -/
def Cold.stall (c : Cold) (row : Nat) (mark : Connection → Bool) : Cold :=
  c.setConn row fun a => { a with stallLogged := mark a }

theorem Cold.pad_stall (c : Cold) (row : Nat) (mark : Connection → Bool) :
    (c.stall row mark).pad = c.pad := by
  funext r i
  rw [pad_eq, pad_eq, stall, conn?_setConn c row r (by exact fun _ => rfl)]
  by_cases hr : r = row
  · rw [if_pos hr]
    cases c.conn? r <;> rfl
  · rw [if_neg hr]

/-- A record whose stall mark alone changes stays published. -/
theorem Sound.stall {B : Backend} {v : Topo} {carried : Carried} {k : Connection}
    (h : Sound B v carried none []) (hk : k ∈ v.cold.connections) (mark : Connection → Bool) :
    Sound B { v with cold := v.cold.stall k.row mark } carried none [] := by
  have hconn := conn?_of_mem h.rows hk
  have hchain := (Cold.Chain.refl h.rows hconn).setConn
    (f := fun a => { a with stallLogged := mark a }) rfl
  have hledger : ({ v with cold := v.cold.stall k.row mark } : Topo).ledger.Balanced
      B.Steady carried := by
    have heq : ({ v with cold := v.cold.stall k.row mark } : Topo).ledger = v.ledger := by
      simp only [Topo.ledger, pad_stall]
      rfl
    rw [heq]
    exact h.ledger
  have hpads : v.activePads =
      v.activePads + (k.activeControllerCount - k.activeControllerCount) := by simp
  have hedit := (h.edit_row k.row).edit hconn hchain.edit rfl (.inl rfl) rfl rfl rfl hpads hledger
  have hshows := h.shows k hk (by simp) not_mem_nil
  have hok := h.ok k hk (by simp)
  refine hedit.done hchain.conn' ?_ ?_ ?_ ?_ not_mem_nil
  · exact ⟨hok.identity, hok.inactive, hok.count⟩
  · exact { hshows with }
  · exact h.owner_iff k hk (by simp)
  · exact h.agrees k hk (by simp) not_mem_nil

/-- The serials retired by a step of a loop are carried with the earlier ones. -/
theorem Holding.retire_perm {B : Backend} {retired new : List RetiredSerial}
    {t : Topo} (h : Holding B t (retiring new ++ retiring retired)) :
    Holding B t (retiring (retired ++ new)) := by
  refine { h with sound := { h.sound with ledger := h.sound.ledger.perm ?_ } }
  rw [retiring, retiring, retiring, map_append]
  exact perm_append_comm

namespace SessionService

variable {B : Backend} {v : Topo} {row : Nat} {k : Connection} {carried : Carried}

/-- A record is retired and dropped. -/
theorem wp_retireAndErase (h : Holding B v carried) (hk : k ∈ v.cold.connections)
    {α : Type} {retired : List RetiredSerial} {f : List RetiredSerial → α} {Q : α → Topo → Prop}
    (hQ : ∀ v' new, Holding B v' (retiring new ++ carried) →
      (∀ a ∈ v.cold.connections, a.row ≠ k.row → a ∈ v'.cold.connections) →
      Q (f (retired ++ new)) v') :
    (topoMachine B).wp (do
      let retired ← retireConnectionLocked k.row retired
      modify fun c => c.erase k.row
      pure (f retired)) Q v := by
  have hconn := conn?_of_mem h.sound.rows hk
  rw [wp_bind']
  refine wp_retireConnection h.locked h.closed h.sound hconn
    fun v₁ new k' hl hw hsound hchain hpads => ?_
  rw [wp_bind', wp_modify hl, wp_pure]
  refine hQ _ new ⟨hl, hw, Sound.erase_retired hsound hchain.conn' hpads⟩ fun a ha hrow => ?_
  refine mem_filter.2 ⟨(hchain.edit.mem_iff hconn).2 (.inr ⟨ha, hrow⟩), ?_⟩
  simpa using hrow

theorem wp_closeSessionById {connectionId deviceId : String} {reason : CloseReason} {notify : Bool}
    (h : Settled B v) :
    (topoMachine B).wp (closeSessionById connectionId deviceId reason notify)
      (fun _ v' => Completed B v v') v := by
  have hacq := h.acquire
  have hnone : Completed B v ({ v with locked := true } : Topo).release := .unchanged h
  unfold closeSessionById
  rw [wp_bind']
  refine wp_locked h.unlocked ?_
  rw [wp_bind', wp_cold (by rfl)]
  cases hfind : v.cold.findByConnectionId connectionId with
  | none => exact ⟨⟨[], hacq⟩, hnone⟩
  | some k =>
    have hk : k ∈ v.cold.connections := mem_of_find?_eq_some hfind
    simp only
    rw [wp_ite]
    split
    · exact ⟨⟨[], hacq⟩, hnone⟩
    · rw [wp_ite]
      split
      on_goal 1 => rw [wp_bind', sendSessionClose, wp_sendEncryptedPacket hacq hk]
      -- With or without the notice, the record is retired and dropped.
      all_goals
        apply wp_retireAndErase hacq hk (f := fun retired => some (k.activeControllerCount, retired))
        intro v' new h' _
        refine ⟨⟨_, h'⟩, ?_⟩
        simp only [nil_append, wp_bind', wp_pure]
        refine wp_finishTeardown (by simpa using h'.release) fun v₂ h₂ hrec => ?_
        exact ⟨h₂, .inr hrec⟩

/-- The records of a list that a loop has not reached yet are still there. -/
def Ahead (l : List Connection) (done : List Connection) (t : Topo) : Prop :=
  ∀ rest, l = done ++ rest → ∀ a ∈ rest, a ∈ t.cold.connections

/-- Moving past a record keeps the others ahead. -/
theorem Ahead.next {l done rest : List Connection} {k : Connection} {t t' : Topo}
    (h : Ahead l done t) (hl : l = done ++ k :: rest) (hrows : (l.map Connection.row).Nodup)
    (hkeep : ∀ a ∈ t.cold.connections, a.row ≠ k.row → a ∈ t'.cold.connections) :
    Ahead l (done ++ [k]) t' := by
  intro rest' hl' a ha
  have hrest : rest' = rest := by
    rw [append_assoc] at hl'
    have h1 := append_cancel_left (hl'.symm.trans hl)
    exact (List.cons.inj h1).2
  subst hrest
  refine hkeep a (h (k :: rest') hl a (mem_cons_of_mem _ ha)) fun hrow => ?_
  rw [hl, map_append, map_cons, nodup_append, nodup_cons] at hrows
  exact hrows.2.1.1 (mem_map.2 ⟨a, ha, hrow⟩)

theorem wp_closeSessionsForDevice {deviceId : String} {reason : CloseReason} (h : Settled B v) :
    (topoMachine B).wp (closeSessionsForDevice deviceId reason)
      (fun _ v' => Completed B v v') v := by
  have hacq := h.acquire
  unfold closeSessionsForDevice
  rw [wp_bind']
  refine wp_locked h.unlocked ?_
  rw [wp_bind', wp_cold (by rfl)]
  refine wp_mono (wp_foldEach
    (fun done (out : List RetiredSerial × Nat) t => Holding B t (retiring out.1) ∧
      Ahead v.cold.connections done t ∧ (out.2 = 0 → t = { v with locked := true }))
    ⟨hacq, fun rest hl a ha => ?_, fun _ => rfl⟩ ?_) ?_
  · rw [nil_append] at hl
    exact hl ▸ ha
  · rintro done k rest ⟨retired, closed⟩ t hl ⟨ht, hahead, hsame⟩
    have hk : k ∈ t.cold.connections := hahead (k :: rest) hl k (by simp)
    simp only
    rw [wp_ite]
    split
    · rw [wp_bind', sendSessionClose, wp_sendEncryptedPacket ht hk]
      refine wp_retireAndErase (f := fun retired => (retired, closed + 1)) ht hk
        fun v' new h' hkeep => ⟨h'.retire_perm, hahead.next hl h.sound.rows hkeep, nofun⟩
    · exact ⟨ht, hahead.next hl h.sound.rows fun a ha _ => ha, hsame⟩
  · rintro ⟨retired, closed⟩ t ⟨ht, -, hsame⟩
    refine ⟨⟨_, ht⟩, ?_⟩
    simp only
    by_cases hc : closed > 0
    · rw [if_pos hc, wp_bind']
      exact wp_finishTeardown ht.release fun v' hv' hrec => ⟨hv', .inr hrec⟩
    · rw [if_neg hc, wp_pure, hsame (Nat.eq_zero_of_not_pos hc)]
      exact .unchanged h

theorem wp_reapTimedOut (h : Settled B v) :
    (topoMachine B).wp reapTimedOut (fun _ v' => Completed B v v') v := by
  have hacq := h.acquire
  unfold reapTimedOut
  rw [wp_bind']
  refine wp_locked h.unlocked ?_
  rw [wp_bind', wp_now]
  intro time
  rw [wp_bind', wp_cold (by rfl)]
  refine wp_mono (wp_foldEach
    (fun done (out : List RetiredSerial × Nat) t => Holding B t (retiring out.1) ∧
      Ahead v.cold.connections done t ∧
      (out.2 = 0 → Quiet v t.release ∧ out.1 = []))
    ⟨hacq, fun rest hl a ha => ?_, fun _ => ⟨?_, rfl⟩⟩ ?_) ?_
  · rw [nil_append] at hl
    exact hl ▸ ha
  · refine .of_held ?_
    rw [Topo.release, h.unlocked]
  · rintro done k rest ⟨retired, reaped⟩ t hl ⟨ht, hahead, hquiet⟩
    have hk : k ∈ t.cold.connections := hahead (k :: rest) hl k (by simp)
    have hload : (Loc.lastPacketTicks k.slot).owned = false := rfl
    simp only
    rw [wp_bind', wp_load_any hload]
    intro lastPacket
    rw [wp_ite]
    split
    · have hrest := wp_retireAndErase (B := B) (f := fun retired => (retired, reaped + 1)) ht hk
        (Q := fun out t' => Holding B t' (retiring out.1) ∧
          Ahead v.cold.connections (done ++ [k]) t' ∧
          (out.2 = 0 → Quiet v t'.release ∧ out.1 = []))
        fun v' new h' hkeep => ⟨h'.retire_perm, hahead.next hl h.sound.rows hkeep, nofun⟩
      exact hrest
    · rw [wp_bind', wp_load_any hload]
      intro lastPacket'
      rw [wp_bind', wp_modify ht.locked, wp_pure]
      refine ⟨⟨ht.locked, ht.closed, ht.sound.stall hk _⟩, hahead.next hl h.sound.rows ?_, ?_⟩
      · intro a ha hrow
        exact mem_map.2 ⟨a, ha, by simp [hrow]⟩
      · intro hzero
        obtain ⟨hq, hnil⟩ := hquiet hzero
        refine ⟨⟨hq.bus, ?_, ?_⟩, hnil⟩
        · refine Iff.trans ?_ hq.idle
          simp only [Topo.Idle, Topo.release]
          rw [← stall, pad_stall]
        · intro hempty
          rw [hl] at hempty
          simp at hempty
  · rintro ⟨retired, reaped⟩ t ⟨ht, -, hquiet⟩
    refine ⟨⟨_, ht⟩, ?_⟩
    simp only
    by_cases hc : reaped > 0
    · rw [if_pos hc, wp_bind']
      exact wp_finishTeardown ht.release fun v' hv' hrec => ⟨hv', .inr hrec⟩
    · obtain ⟨hq, hnil⟩ := hquiet (Nat.eq_zero_of_not_pos hc)
      rw [if_neg hc, wp_pure]
      simp only at hnil
      rw [hnil] at ht
      exact ⟨ht.release, .inl hq⟩

/-- Every record of the list has been retired and is still in the map. -/
structure AllRetired (l done : List Connection) (t : Topo) : Prop where
  rows : t.cold.connections.map Connection.row = l.map Connection.row
  gone : ∀ a ∈ done, ∀ k, t.cold.conn? a.row = some k → ∀ i, k.pad i = none

/-- All records are retired one after the other and then dropped together. -/
theorem wp_retireAll (h : Holding B v []) {Q : List RetiredSerial → Topo → Prop}
    (hQ : ∀ v' retired, Holding B v' (retiring retired) → v'.cold.connections = [] →
      Q retired v') :
    (topoMachine B).wp (do
      let retired ← Prog.foldEach v.cold.connections [] fun retired k =>
        retireConnectionLocked k.row retired
      modify fun c => { c with connections := [] }
      pure retired) Q v := by
  rw [wp_bind']
  refine wp_mono (wp_foldEach
    (fun done (retired : List RetiredSerial) t => t.locked = true ∧ t.writing = none ∧
      Sound B t (retiring retired) none (done.map Connection.row).reverse ∧
      Ahead v.cold.connections done t ∧ AllRetired v.cold.connections done t)
    ⟨h.locked, h.closed, h.sound, fun rest hl a ha => ?_, rfl, nofun⟩ ?_) ?_
  · rw [nil_append] at hl
    exact hl ▸ ha
  · rintro done k rest retired t hl ⟨hlt, hwt, hsound, hahead, hall⟩
    have hk : k ∈ t.cold.connections := hahead (k :: rest) hl k (by simp)
    have hconn := conn?_of_mem hsound.rows hk
    refine wp_retireConnection hlt hwt hsound hconn fun v' new k' hl' hw' hsound' hchain hpads => ?_
    have hother : ∀ r, r ≠ k.row → v'.cold.conn? r = t.cold.conn? r := fun r hr => by
      rw [hchain.edit.conn? hchain.row_eq hconn, if_neg hr]
    refine ⟨hl', hw', ?_, hahead.next hl h.sound.rows ?_, ?_, ?_⟩
    · rw [map_append, reverse_append]
      refine { hsound' with ledger := hsound'.ledger.perm ?_ }
      rw [retiring, retiring, retiring, map_append]
      exact perm_append_comm
    · intro a ha hrow
      exact (hchain.edit.mem_iff hconn).2 (.inr ⟨ha, hrow⟩)
    · rw [hchain.edit.rows hchain.row_eq]
      exact hall.rows
    · intro a ha b hb
      by_cases hrow : a.row = k.row
      · rw [hrow, hchain.conn'] at hb
        exact Option.some.inj hb ▸ hpads
      · rw [hother _ hrow] at hb
        refine hall.gone a ?_ b hb
        rcases mem_append.1 ha with ha | ha
        · exact ha
        · rw [mem_singleton.1 ha] at hrow
          exact absurd rfl hrow
  · rintro retired t ⟨hlt, hwt, hsound, -, hall⟩
    rw [wp_bind', wp_modify hlt, wp_pure]
    have hdrop := hsound.discard (fun _ => false) (fun _ _ hf => absurd hf (by simp)) ?_
    · have hnil : t.cold.keep (fun _ => false) = { t.cold with connections := [] } := by
        simp [keep]
      rw [hnil] at hdrop
      exact hQ _ retired ⟨hlt, hwt, hdrop⟩ rfl
    · intro k hk _
      have hrow : k.row ∈ v.cold.connections.map Connection.row := by
        rw [← hall.rows]
        exact mem_map_of_mem hk
      obtain ⟨a, ha, har⟩ := mem_map.1 hrow
      refine ⟨by simpa using ⟨a, ha, har⟩, ?_⟩
      exact hall.gone a ha k (har ▸ conn?_of_mem hsound.rows hk)

/-- The end of `closeAllSessions`: with no session left the pool is reset and the bus closed. -/
theorem wp_resetPool (h : Holding B v []) (hnone : v.cold.connections = [])
    {Q : Bool → Topo → Prop}
    (hQ : ∀ opened, B.isBusOpen v.bus opened →
      Q opened { v with cold := (v.cold.clearInUse).clearQuarantine }) :
    (topoMachine B).wp (do
      modify clearInUse
      modify clearQuarantine
      busIdleLocked) Q v := by
  simp (disch := exact h.locked) only [wp_bind', wp_modify, busIdleLocked, wp_isBusOpen, wp_cold,
    wp_pure]
  intro opened hopened
  have htotal : countGlobalActiveControllers (v.cold.clearInUse).clearQuarantine = 0 := by
    simp [countGlobalActiveControllers, clearInUse, clearQuarantine, hnone]
  rw [htotal]
  simpa using hQ opened hopened

theorem wp_closeAllSessions {reason : CloseReason} (h : Settled B v) :
    (topoMachine B).wp (closeAllSessions reason)
      (fun _ v' => Completed B v v' ∧ v'.cold.connections = []) v := by
  have hacq := h.acquire
  unfold closeAllSessions
  rw [wp_bind']
  refine wp_locked h.unlocked ?_
  rw [wp_bind', wp_cold (by rfl), wp_bind']
  refine wp_mono (wp_forEach (fun _ t => t = { v with locked := true }) rfl ?_) ?_
  · rintro done k rest t hl rfl
    have hk : k ∈ v.cold.connections := by
      rw [hl]
      simp
    exact (wp_sendEncryptedPacket hacq hk).2 rfl
  rintro _ t rfl
  refine wp_retireAll hacq fun v₁ retired h₁ hnone₁ => ⟨⟨_, h₁⟩, ?_⟩
  rw [wp_bind']
  have hrun : Running B v₁.release (retiring retired ++ []) := by simpa using h₁.release
  refine wp_unplugRetired hrun fun calls retired' h₂ _ => ?_
  rw [wp_bind']
  refine wp_locked_published h₂.unlocked ?_
  rw [wp_bind']
  refine wp_settleRetired h₂.acquire fun v₃ h₃ hpool _ => ?_
  have hnone₃ : v₃.cold.connections = [] := hpool.connections.trans hnone₁
  refine wp_resetPool h₃ hnone₃ fun opened hopened => ?_
  have hsee : Held.Consistent (({ v₃ with
      cold := (v₃.cold.clearInUse).clearQuarantine } : Topo).seenCold ++ v₃.held) := by
    have hnil : ({ v₃ with cold := (v₃.cold.clearInUse).clearQuarantine } : Topo).seenCold = [] :=
      congrArg (List.map Connection.held) hnone₃
    rw [hnil, nil_append]
    exact h₃.sound.held_inj
  have htoken : ∀ k ∈ v₃.cold.connections, k.token ≠ 0 := by
    rw [hnone₃]
    exact nofun
  refine ⟨⟨h₃.locked, h₃.closed, { h₃.sound.published with }, htoken, hsee⟩, ?_⟩
  have hidle : v₃.Idle := by
    intro r i
    rw [pad_eq, conn?, hnone₃]
    rfl
  have hin : v₃.cold.clearInUse = v₃.cold := by
    have hfree : (fun _ => false) = v₃.cold.serialInUse := by
      funext s
      exact (h₃.sound.ledger.not_inUse.2 ⟨not_holds_of_idle hidle s, by simp⟩).symm
    rw [clearInUse, hfree]
  have hrel : ({ v₃ with cold := (v₃.cold.clearInUse).clearQuarantine } : Topo).release =
      { v₃ with cold := v₃.cold.clearQuarantine, locked := false } := by
    rw [hin]
    simp [Topo.release, Topo.seenCold, clearQuarantine, hnone₃]
  rw [hrel]
  cases opened with
  | true =>
    refine wp_closeIdleBus rfl h₃.closed (by exact hidle.noneActive h₃.sound.rows)
      (fun bus _ => ?_)
      fun v' hv' hconn hbus => ⟨⟨hv', .inr fun _ hcl _ => hbus hcl⟩, hconn.trans hnone₃⟩
    exact { h₃.sound with ledger := h₃.sound.ledger.close (not_holds_of_idle hidle) bus }
  | false =>
    -- The bus reports itself closed: a steady backend then has no unplug in doubt.
    have hlift := h₃.sound.ledger.lift fun hsteady s =>
      (h₃.sound.ledger.closed hsteady (hsteady _ _ hopened).symm s).2.1
    refine ⟨⟨⟨rfl, h₃.closed, ?_⟩, .inr fun hsteady _ _ => (hsteady _ _ hopened).symm⟩, hnone₃⟩
    have hclear : Sound B { v₃ with cold := v₃.cold.clearQuarantine } [] none [] :=
      h₃.sound.pool rfl rfl hlift
    exact { hclear with }

end SessionService

end Satellite
