import Satellite.Topology.Sections

/-!
# Taking sessions down

Retiring a record hands its serials to the operation and clears its slot; the
devices are then unplugged without `mtx_`, and each serial goes back to the pool
or into quarantine by the answer. The bus is closed when no pad is left.
-/

namespace Satellite

open List Connection

namespace SessionService

variable {B : Backend} {v : Topo} {row : Nat} {k : Connection} {carried : Carried}
  {dead : List Nat}

/-! ## Retiring a record -/

/-- The pads of the record at the indices `done` have handed over their serials. -/
structure Retiring (B : Backend) (v : Topo) (row : Nat) (k : Connection) (carried : Carried)
    (dead : List Nat) (done : List Nat) (new : List RetiredSerial) (t : Topo) (k' : Connection) :
    Prop where
  eq : t = { v with cold := t.cold }
  sound : Sound B t (retiring new ++ carried) (some row) dead
  chain : v.cold.Chain t.cold row k k'
  same : k' = { k with controllers := k'.controllers }
  gone : ∀ i ∈ done, (k'.controllers i).active = false ∧ (k'.controllers i).serialNo = 0
  rest : ∀ i, i ∉ done → k'.controllers i = k.controllers i

theorem Retiring.start (h : Sound B v carried none dead) (hk : v.cold.conn? row = some k) :
    Retiring B v row k carried dead [] [] v k where
  eq := rfl
  sound := h.edit_row row
  chain := .refl h.rows hk
  same := rfl
  gone := nofun
  rest _ _ := rfl

variable {new : List RetiredSerial}

variable {done : List Nat} {k' : Connection}

/-- An index without a pad has nothing to hand over. -/
theorem Retiring.skip {t : Topo}
    {i : Nat} (h : Retiring B v row k carried dead done new t k') (hi : i ∉ done)
    (ha : (k.controllers i).active = false) (hs : (k.controllers i).serialNo = 0) :
    Retiring B v row k carried dead (done ++ [i]) new t k' := by
  refine { h with gone := ?_, rest := ?_ }
  · intro j hj
    rcases mem_append.1 hj with hj | hj
    · exact h.gone j hj
    · rw [mem_singleton.1 hj, h.rest i hi]
      exact ⟨ha, hs⟩
  · intro j hj
    exact h.rest j fun hd => hj (mem_append_left _ hd)

/-- A pad hands over its serial, its device still plugged. -/
theorem Retiring.vacate {t : Topo}
    {i s stamp : Nat} {c' : Cold} (h : Retiring B v row k carried dead done new t k')
    (ha : k'.Active i s)
    (hc : t.cold.Chain c' row k' (k'.setPad i ((k'.controllers i).vacated stamp) 0 0)) :
    Retiring B v row k carried dead (done ++ [i]) (new ++ [{ serial := s }])
      { t with cold := c' } (k'.setPad i ((k'.controllers i).vacated stamp) 0 0) := by
  have hpad : t.ledger.pad row i = some s := by
    show t.cold.pad row i = some s
    rw [Cold.pad_eq, h.chain.conn']
    exact pad_eq_some.2 ha
  have hledger : ({ t with cold := c' } : Topo).ledger.Balanced B.Steady
      (retiring (new ++ [{ serial := s }]) ++ carried) := by
    rw [Editing.ledger_setPad ha.1 h.chain.conn' hc.edit]
    refine (h.sound.ledger.retire hpad).perm ?_
    simp only [retiring, map_append, map_cons, map_nil]
    rw [append_assoc]
    exact perm_middle.symm
  refine ⟨?_, ?_, h.chain.trans hc, ?_, ?_, ?_⟩
  · rw [h.eq]
  · exact h.sound.edit h.chain.conn' hc.edit rfl (.inl rfl) rfl rfl rfl
      (show t.activePads = _ by simp [setPad]) hledger
  · rw [h.same]
    simp [setPad]
  · intro j hj
    by_cases hji : j = i
    · rw [hji, setPad_controllers_self]
      exact ⟨rfl, rfl⟩
    · rw [setPad_controllers_ne _ hji]
      refine h.gone j ?_
      simpa [hji] using hj
  · intro j hj
    simp only [mem_append, mem_singleton, not_or] at hj
    rw [setPad_controllers_ne _ hj.2]
    exact h.rest j hj.1

variable {Q : List RetiredSerial → Topo → Prop}

/-- The loop over the controllers of a record that goes away. -/
theorem wp_retireLoop (hl : v.locked = true) (h : Sound B v carried none dead)
    (hk : v.cold.conn? row = some k) {retired : List RetiredSerial}
    (hQ : ∀ t new k', Retiring B v row k carried dead ctrlIndices new t k' →
      Q (retired ++ new) t) :
    (topoMachine B).wp (Prog.foldEach ctrlIndices retired fun retired i => do
      let k ← conn row
      let ctrl := k.controllers i
      if ctrl.active = true ∧ ctrl.serialNo ≠ 0 then do
        releasePointerLocked row i
        modify fun c => c.clearPad row i
        pure (retired ++ [{ serial := ctrl.serialNo }])
      else pure retired) Q v := by
  have hok := h.ok k (Cold.mem_of_conn? hk) nofun
  refine Machine.wp_mono (Machine.wp_foldEach (fun done out t => ∃ new k',
    out = retired ++ new ∧ Retiring B v row k carried dead done new t k')
    ⟨[], k, by simp, .start h hk⟩ ?_) ?_
  · rintro done i rest out t hxs ⟨new, k', rfl, hr⟩
    have hi : i < 16 := mem_ctrlIndices.1 (by rw [hxs]; simp)
    have hnot : i ∉ done := by
      have hnd : ctrlIndices.Nodup := nodup_range
      rw [hxs] at hnd
      exact fun hd => (nodup_append.1 hnd).2.2 i hd i (by simp) rfl
    have hlt : t.locked = true := by
      rw [hr.eq]
      exact hl
    rw [wp_bind', wp_conn hlt, Cold.conn_eq hr.chain.conn', wp_ite]
    split
    next hact =>
      have hactive : k'.Active i (k'.controllers i).serialNo := ⟨hi, hact.1, rfl⟩
      have hrange := hr.sound.active_range (Cold.mem_of_conn? hr.chain.conn') hactive
      rw [wp_bind', wp_releasePointer hlt hr.chain.conn' hrange, wp_bind', wp_modify (by exact hlt),
        wp_pure]
      have hchain : t.cold.Chain t.cold row k' (k'.setPad i (k'.controllers i) 0 0) := by
        rw [setPad_refl]
        exact .refl (hr.chain.edit.rowsNodup hr.chain.row_eq h.rows) hr.chain.conn'
      have hclear := chain_setPad (chain_stampPad hchain) fun p =>
        { p with active := false, serialNo := 0 }
      exact ⟨new ++ [{ serial := (k'.controllers i).serialNo }], _, by simp,
        hr.vacate hactive hclear⟩
    next hidle =>
      rw [hr.rest i hnot] at hidle
      have hact : (k.controllers i).active = false := by
        rw [← Bool.not_eq_true]
        intro hact
        have hrange := h.active_range (Cold.mem_of_conn? hk) ⟨hi, hact, rfl⟩
        exact hidle ⟨hact, by omega⟩
      exact ⟨new, k', rfl, hr.skip hnot hact (hok.inactive i hi hact)⟩
  · rintro out t ⟨new, k', rfl, hr⟩
    exact hQ t new k' hr

/-- A record whose pads are all gone, with its counter taken back. -/
theorem Retiring.ok {t : Topo}
    (h : Retiring B v row k carried dead ctrlIndices new t k') :
    ({ k' with activeControllerCount := 0 } : Connection).Ok ∧ ∀ i, k'.pad i = none := by
  have hgone : ∀ i < 16, (k'.controllers i).active = false ∧ (k'.controllers i).serialNo = 0 :=
    fun i hi => h.gone i (mem_ctrlIndices.2 hi)
  have hpad : ∀ i, k'.pad i = none := by
    intro i
    by_cases hi : i < 16
    · simp [Connection.pad, (hgone i hi).1]
    · simp [Connection.pad, hi]
  refine ⟨⟨?_, fun i hi _ => (hgone i hi).2, (activeCount_eq_zero hpad).symm⟩, hpad⟩
  intro i hi ha
  rw [(hgone i hi).1] at ha
  cases ha

/-- The counter of a record whose pads are gone is taken back. -/
theorem Retiring.uncount {t : Topo}
    (h : Retiring B v row k carried dead done new t k') :
    t.cold.Chain (t.cold.adjustActiveCount row (-k'.activeControllerCount)) row k'
      { k' with activeControllerCount := 0 } ∧
    Sound B { t with cold := t.cold.adjustActiveCount row (-k'.activeControllerCount)
                     activePads := t.activePads + -k'.activeControllerCount }
      (retiring new ++ carried) (some row) dead := by
  have hchain : t.cold.Chain (t.cold.adjustActiveCount row (-k'.activeControllerCount)) row k'
      { k' with activeControllerCount := 0 } := by
    have hset := (Cold.Chain.refl h.sound.rows h.chain.conn').setConn (f := fun a =>
      { a with activeControllerCount := a.activeControllerCount + -k'.activeControllerCount }) rfl
    have hzero : k'.activeControllerCount + -k'.activeControllerCount = 0 := by omega
    simp only [hzero] at hset
    exact hset
  refine ⟨hchain, h.sound.edit h.chain.conn' hchain.edit rfl (.inl rfl) rfl rfl rfl ?_ ?_⟩
  · show t.activePads + -k'.activeControllerCount = t.activePads + (0 - k'.activeControllerCount)
    omega
  · have hpad : (t.cold.adjustActiveCount row (-k'.activeControllerCount)).pad = t.cold.pad := by
      funext r i
      rw [Cold.pad_eq, Cold.pad_eq, hchain.edit.conn? hchain.row_eq h.chain.conn' r]
      by_cases hrr : r = row
      · rw [if_pos hrr, hrr, h.chain.conn']
        rfl
      · rw [if_neg hrr]
    have hledger : ({ t with cold := t.cold.adjustActiveCount row (-k'.activeControllerCount) } :
        Topo).ledger = t.ledger := by
      simp only [Topo.ledger, hpad]
      rfl
    rw [hledger]
    exact h.sound.ledger

/-- The key and token of a slot are cleared. -/
def clearKeyMem (slot : Nat) (mem : Loc → Nat) : Loc → Nat :=
  setKey slot (fun _ => 0) (Function.update mem (.token slot) 0)

/-- Clearing the slot of a record whose pads are gone. -/
theorem wp_clearSlot (hl : v.locked = true) (hw : v.writing = none)
    (h : Sound B v carried (some row) dead) (hk : v.cold.conn? row = some k) (hok : k.Ok)
    (hpads : ∀ i, k.pad i = none) {Q : Unit → Topo → Prop}
    (hQ : ∀ mem', Sound B { v with mem := mem' } carried none (row :: dead) →
      Q () { v with mem := mem' }) :
    (topoMachine B).wp (do
      store (.packed k.slot) 0
      connectionWrite row do
        store (.token k.slot) 0
        storeKey k.slot fun _ => 0) Q v := by
  rw [wp_bind']
  refine (wp_store_packed hl hw).2 ?_
  have hunseen : ∀ mem', Written k (clearKeyMem k.slot (v.setMem (.packed k.slot) 0).mem) mem' →
      ({ v.setMem (.packed k.slot) 0 with mem := mem' } : Topo).seenSlot k.slot = [] := by
    intro mem' hwritten
    refine eq_nil_iff_forall_not_mem.2 fun x hx => ?_
    obtain ⟨-, -, -, htok, -⟩ := Topo.mem_seenSlot hx
    apply htok
    show mem' (.token k.slot) = 0
    rw [hwritten.frame _ rfl]
    simp [clearKeyMem, setKey]
  refine wp_write (f := clearKeyMem k.slot) (by exact hl) (by exact hw) (h.setPacked hk 0) hk
    ?_ ?_ ?_ (.inl (by simp [clearKeyMem, setKey])) ?_
    fun mem' hwritten hsound => ?_
  · intro w Q' hlw hww _ hq
    rw [wp_bind']
    refine (wp_store_guarded hlw hww rfl rfl).2 ?_
    exact wp_storeKey (by exact hlw) (by exact hww) hq
  · intro w
    funext l
    cases l <;> simp [clearKeyMem, setKey, Function.update]
  · intro l hg
    cases l <;> simp [Loc.guard] at hg <;> simp [clearKeyMem, setKey, Function.update, hg]
  · intro mem' hwritten hsound
    rw [hunseen mem' hwritten, nil_append]
    exact hsound.held_inj
  · have hclear : SlotClear mem' k.slot := by
      refine ⟨?_, ?_, fun w => ?_, fun i hi => ?_⟩
      · rw [hwritten.frame _ rfl]
        simp [clearKeyMem, setKey, Topo.setMem]
      · rw [hwritten.frame _ rfl]
        simp [clearKeyMem, setKey]
      · rw [hwritten.frame _ rfl]
        simp [clearKeyMem, setKey]
      · have hpad := hpads i
        have hact : (k.controllers i).active = false := by
          simpa [Connection.pad, hi] using hpad
        rw [hwritten.ctrl i hi, Controller.ctrlWord, hact, hotCtrlWord_false]
    rw [hunseen mem' hwritten, nil_append]
    exact hQ mem' (hsound.bury hk hok hclear fun s hs i hi => hwritten.owner_iff hs hi)

/-- Retiring a record: its serials are carried, its slot is clear, its pads are gone. -/
theorem wp_retireConnection (hl : v.locked = true) (hw : v.writing = none)
    (h : Sound B v carried none dead) (hk : v.cold.conn? row = some k)
    {retired : List RetiredSerial}
    (hQ : ∀ v' new k', v'.locked = true → v'.writing = none →
      Sound B v' (retiring new ++ carried) none (row :: dead) → v.cold.Chain v'.cold row k k' →
      (∀ i, k'.pad i = none) → Q (retired ++ new) v') :
    (topoMachine B).wp (retireConnectionLocked row retired) Q v := by
  unfold retireConnectionLocked
  rw [wp_bind']
  refine wp_retireLoop hl h hk fun t new k₁ hr => ?_
  obtain ⟨hok, hpads⟩ := hr.ok
  obtain ⟨hchain, hsound⟩ := hr.uncount
  have hlt : t.locked = true := by
    rw [hr.eq]
    exact hl
  have hwt : t.writing = none := by
    rw [hr.eq]
    exact hw
  rw [wp_bind', wp_conn hlt, Cold.conn_eq hr.chain.conn']
  simp only [adjustActivePadsLocked, wp_bind']
  refine (wp_modify hlt).2 ((wp_addActivePads (by exact hlt)).2 ?_)
  have hclear := wp_clearSlot (B := B) (by exact hlt) (by exact hwt) hsound hchain.conn' hok hpads
    (Q := fun _ t' => Q (retired ++ new) t') fun mem' hburied =>
      hQ _ new _ hlt hwt hburied (hr.chain.trans hchain) hpads
  rw [wp_bind'] at hclear
  exact hclear

end SessionService

/-! ## Calls and moves of the pool -/

variable {v : Topo} {carried : Carried}

variable {B : Backend}

/-- The slot of a record that was retired is free once the record is dropped. -/
theorem Sound.erase_retired {row : Nat}
    {k' : Connection} (h : Sound B v carried none [row]) (hk : v.cold.conn? row = some k')
    (hpads : ∀ i, k'.pad i = none) : Sound B { v with cold := v.cold.erase row } carried none [] := by
  refine h.discard (fun a => a.row != row) ?_ ?_
  · intro a _ ha
    simpa using ha
  · intro a ha hrow
    have hrow' : a.row = row := by simpa using hrow
    have hak := Cold.conn?_of_mem h.rows ha
    rw [hrow', hk] at hak
    refine ⟨by simp [hrow'], ?_⟩
    rw [← Option.some.inj hak]
    exact hpads

/-- A lifecycle call touches the ledger only. -/
theorem Sound.call {carried' : Carried} {stale : Option Nat}
    {dead : List Nat} {calls : List Call} {bus : Bool} (h : Sound B v carried stale dead)
    (hledger : ({ v with calls := calls, bus := bus } : Topo).ledger.Balanced B.Steady carried') :
    Sound B { v with calls := calls, bus := bus } carried' stale dead :=
  { h with ledger := hledger }

theorem Running.perm {carried' : Carried}
    (h : Running B v carried) (hp : carried.Perm carried') : Running B v carried' :=
  { h with sound := { h.sound with ledger := h.sound.ledger.perm hp } }

/-- Only the serial pool differs. -/
def Topo.PoolOnly (v v' : Topo) : Prop :=
  v' = { v with cold := { v.cold with serialInUse := v'.cold.serialInUse
                                      serialQuarantined := v'.cold.serialQuarantined
                                      serialScanStart := v'.cold.serialScanStart } }

theorem Topo.PoolOnly.refl (v : Topo) : v.PoolOnly v := rfl

theorem Topo.PoolOnly.trans {v' v'' : Topo} (h : v.PoolOnly v') (h' : v'.PoolOnly v'') :
    v.PoolOnly v'' := by
  unfold Topo.PoolOnly at h h' ⊢
  rw [h', h]

theorem Topo.PoolOnly.connections {v' : Topo} (h : v.PoolOnly v') :
    v'.cold.connections = v.cold.connections := by
  rw [h]

/-- The pads of no session are active. -/
def Topo.Idle (v : Topo) : Prop := ∀ r i, v.cold.pad r i = none

theorem Topo.Idle.noneActive (h : v.Idle) (hrows : v.cold.RowsNodup) :
    v.cold.NoneActive := by
  intro k hk i hi
  have hpad := h k.row i
  rw [Cold.pad_eq, Cold.conn?_of_mem hrows hk] at hpad
  simpa [Connection.pad, hi] using hpad

theorem Cold.NoneActive.idle (h : v.cold.NoneActive) : v.Idle := by
  intro r i
  rw [Cold.pad_eq]
  cases hr : v.cold.conn? r with
  | none => rfl
  | some k =>
    have hk := h k (Cold.mem_of_conn? hr) i
    simpa [Connection.pad] using hk

/-- A serial that the operation carries is published nowhere. -/
theorem Sound.unpublished {s : Nat}
    (h : Sound B v carried none []) (hs : s ∈ carried.serials) : v.Unpublished s := by
  have hrange := h.ledger.range s ((h.ledger.inUse_iff s).2 (.inr hs))
  intro slot hslot i hi hword
  by_cases hused : ∃ k ∈ v.cold.connections, k.slot = slot
  · obtain ⟨k, hk, rfl⟩ := hused
    rw [(h.shows k hk nofun not_mem_nil).ctrl i hi] at hword
    have hactive := (ctrlWord_eq_iff (fun _ _ ha => h.active_range hk ha) hi hrange).1 hword
    refine h.ledger.apart s ⟨k.row, i, ?_⟩ hs
    show v.cold.pad k.row i = some s
    rw [Cold.pad_eq, Cold.conn?_of_mem h.rows hk]
    exact pad_eq_some.2 hactive
  · have hclear := h.clear slot hslot fun k hk he => hused ⟨k, hk, he⟩
    rw [hclear.ctrl i hi, hotCtrlWord_true] at hword
    omega

/-- The counters are all 0 exactly when no pad is active. -/
theorem Sound.idle_iff
    (h : Sound B v carried none []) : v.cold.activeTotal = 0 ↔ v.Idle := by
  have hcount : ∀ k ∈ v.cold.connections, 0 ≤ k.activeControllerCount := by
    intro k hk
    rw [(h.ok k hk nofun).count]
    exact Int.natCast_nonneg _
  constructor
  · intro hzero r i
    rw [Cold.pad_eq]
    cases hc : v.cold.conn? r with
    | none => rfl
    | some k =>
      have hk := Cold.mem_of_conn? hc
      have hk0 : k.activeControllerCount = 0 := by
        have hle := single_le_sum (l := v.cold.connections.map activeControllerCount)
          (fun x hx => by
            obtain ⟨a, ha, rfl⟩ := mem_map.1 hx
            exact hcount a ha) _ (mem_map_of_mem hk)
        have hge := hcount k hk
        rw [Cold.activeTotal] at hzero
        omega
      rw [(h.ok k hk nofun).count] at hk0
      have hnone := countP_eq_zero.1 (Int.ofNat_eq_zero.1 hk0)
      rw [Option.bind_some]
      cases hp : k.pad i with
      | none => rfl
      | some s =>
        obtain ⟨hi, ha, -⟩ := pad_eq_some.1 hp
        exact absurd ha (hnone i (mem_ctrlIndices.2 hi))
  · intro hidle
    refine sum_eq_zero fun x hx => ?_
    obtain ⟨k, hk, rfl⟩ := mem_map.1 hx
    rw [(h.ok k hk nofun).count]
    refine activeCount_eq_zero fun i => ?_
    have hpad := hidle k.row i
    rwa [Cold.pad_eq, Cold.conn?_of_mem h.rows hk] at hpad

namespace SessionService

variable {B : Backend} {v : Topo} {carried : Carried}

/-! ## Unplugging and settling -/

/-- The serials of retired pads once their devices were told to go. -/
def unplugged (retired : List RetiredSerial) : Carried :=
  retired.map fun r => (r.serial, if r.unplugged then .empty else .zombie)

variable {retired : List RetiredSerial}

theorem wp_unplugRetired
    (h : Running B v (retiring retired ++ carried)) {Q : List RetiredSerial → Topo → Prop}
    (hQ : ∀ calls retired', Running B { v with calls := calls } (unplugged retired' ++ carried) →
      (∀ r ∈ retired', B.unplugDevice r.serial r.unplugged) → Q retired' { v with calls := calls }) :
    (topoMachine B).wp (unplugRetired retired) Q v := by
  unfold unplugRetired
  induction retired generalizing v carried Q with
  | nil => exact hQ v.calls [] h nofun
  | cons r rest ih =>
    have hpre : Topo.pre B (.unplugDevice r.serial) v := by
      refine ⟨h.unlocked, h.closed, h.sound.unpublished (by simp [retiring]), ?_⟩
      exact (h.sound.ledger.outstanding_iff r.serial).2 (.inr (by simp [retiring]))
    simp only [Prog.mapEach, Machine.wp_bind, Machine.wp_ret, wp_bind', wp_pure]
    refine (wp_unplugDevice hpre).2 fun answer hanswer => ?_
    have hcall : Running B { v with calls := .unplugDevice r.serial answer :: v.calls }
        (retiring rest ++ ((r.serial, if answer then .empty else .zombie) :: carried)) := by
      refine ⟨h.unlocked, h.closed, h.sound.call ?_⟩
      exact (h.sound.ledger.unplug answer).perm perm_middle.symm
    refine ih hcall fun calls retired' hrun hallowed => ?_
    exact hQ calls ({ r with unplugged := answer } :: retired') (hrun.perm perm_middle)
      (forall_mem_cons.2 ⟨hanswer, hallowed⟩)

variable {Q : Unit → Topo → Prop}

theorem wp_settleRetired
    (h : Holding B v (unplugged retired ++ carried))
    (hQ : ∀ v', Holding B v' carried → v.PoolOnly v' →
      ((∀ r ∈ retired, r.unplugged = true) →
        v'.cold.serialQuarantined = v.cold.serialQuarantined) → Q () v') :
    (topoMachine B).wp (settleRetiredLocked retired) Q v := by
  unfold settleRetiredLocked
  induction retired generalizing v with
  | nil => exact hQ v h (.refl v) fun _ => rfl
  | cons r rest ih =>
    have hrange := h.sound.ledger.range r.serial
      ((h.sound.ledger.inUse_iff r.serial).2 (.inr (by simp [unplugged])))
    simp only [Prog.forEach, Machine.wp_bind]
    cases hr : r.unplugged with
    | true =>
      have hled : v.ledger.Balanced B.Steady
          ((r.serial, .empty) :: (unplugged rest ++ carried)) := by
        simpa [unplugged, hr] using h.sound.ledger
      rw [if_pos rfl, wp_releaseSerial h.locked hrange]
      refine ih ⟨h.locked, h.closed, h.sound.pool rfl rfl hled.release⟩ fun v' hv' hp hq => ?_
      have hdrop : v.PoolOnly { v with cold := v.cold.dropSerial r.serial } := rfl
      refine hQ v' hv' (hdrop.trans hp) ?_
      exact fun hall => hq fun r' hr' => hall r' (mem_cons_of_mem _ hr')
    | false =>
      have hled : v.ledger.Balanced B.Steady
          ((r.serial, .zombie) :: (unplugged rest ++ carried)) := by
        simpa [unplugged, hr] using h.sound.ledger
      rw [if_neg (by simp), wp_quarantineSerial h.locked hrange]
      refine ih ⟨h.locked, h.closed, h.sound.pool rfl rfl hled.setAside⟩ fun v' hv' hp _ => ?_
      have hquar : v.PoolOnly { v with cold := v.cold.quarantine r.serial } := rfl
      refine hQ v' hv' (hquar.trans hp) ?_
      intro hall
      have hr' := hall r (by simp)
      rw [hr] at hr'
      cases hr'

/-- Whether the bus may be closed: it is open and no pad is active. -/
theorem wp_busIdle (h : Holding B v carried) {Q : Bool → Topo → Prop}
    (hQ : ∀ idle, (idle = true → v.Idle) → (idle = false → v.Idle → B.Steady → v.bus = false) →
      Q idle v) : (topoMachine B).wp busIdleLocked Q v := by
  simp only [busIdleLocked, wp_bind', wp_isBusOpen, wp_cold h.locked, wp_pure]
  intro opened hopened
  have hidle := h.sound.idle_iff
  have htotal : countGlobalActiveControllers v.cold = v.cold.activeTotal := rfl
  refine hQ _ ?_ ?_
  · intro hyes
    simp only [Bool.and_eq_true, beq_iff_eq] at hyes
    exact hidle.1 (htotal ▸ hyes.2)
  · intro hno hv hsteady
    rw [← hsteady _ _ hopened]
    simpa [htotal, hidle.2 hv] using hno

/-- No serial is held when no pad is active. -/
theorem not_holds_of_idle (h : v.Idle) (s : Nat) : ¬ v.ledger.Holds s := by
  rintro ⟨r, i, hs⟩
  rw [show v.ledger.pad r i = v.cold.pad r i from rfl, h r i] at hs
  cases hs

/-- Closing the bus, where lifting the quarantine then restores the invariant. -/
theorem wp_closeIdleBus (hl : v.locked = false) (hw : v.writing = none)
    (hidle : v.cold.NoneActive)
    (hsound : ∀ bus, B.closeBus v.bus bus → Sound B { v with
      cold := v.cold.clearQuarantine, bus := bus, calls := .closeBus :: v.calls } [] none [])
    (hQ : ∀ v', Settled B v' → v'.cold.connections = v.cold.connections →
      (B.Closes → v'.bus = false) → Q () v') :
    (topoMachine B).wp (closeBusIfIdle true) Q v := by
  simp only [closeBusIfIdle, if_true, wp_bind']
  refine (wp_closeBus hl hidle).2 fun bus hbus => ?_
  refine wp_locked hl ((wp_modify rfl).2 ?_)
  have hhold : Holding B { v with
      cold := v.cold.clearQuarantine, bus := bus, calls := .closeBus :: v.calls
      locked := true } [] := ⟨rfl, hw, { hsound bus hbus with }⟩
  exact ⟨⟨[], hhold⟩, hQ _ hhold.release rfl fun hcl => hcl _ _ hbus⟩

/-- Closing the bus lifts the quarantine. -/
theorem wp_closeBusIfIdle {idle : Bool} (h : Settled B v) (hidle : idle = true → v.Idle)
    (hQ : ∀ v', Settled B v' → v'.cold.connections = v.cold.connections →
      (idle = true → B.Closes → v'.bus = false) → (idle = false → v' = v) → Q () v') :
    (topoMachine B).wp (closeBusIfIdle idle) Q v := by
  cases idle with
  | false => exact hQ v h rfl nofun fun _ => rfl
  | true =>
    refine wp_closeIdleBus h.unlocked h.closed ((hidle rfl).noneActive h.sound.rows) (fun bus _ => ?_)
      fun v' hv' hconn hbus => hQ v' hv' hconn (fun _ => hbus) nofun
    exact { h.sound with ledger := h.sound.ledger.close (not_holds_of_idle (hidle rfl)) bus }

/-- An operation that looked at its bus last leaves it closed when no pad is left. -/
def Recovered (B : Backend) (v : Topo) : Prop := B.Steady → B.Closes → v.Idle → v.bus = false

/-- The end of an operation: the bus is closed if the section before found it idle. -/
theorem wp_closeAfter {idle : Bool} (h : Settled B v) (hidle : idle = true → v.Idle)
    (hbusy : idle = false → v.Idle → B.Steady → v.bus = false)
    (hQ : ∀ v', Settled B v' → v'.cold.connections = v.cold.connections → Recovered B v' →
      Q () v') : (topoMachine B).wp (closeBusIfIdle idle) Q v := by
  refine wp_closeBusIfIdle h hidle fun v' hv' hconn hclosed hsame => ?_
  refine hQ v' hv' hconn fun hsteady hcloses hv => ?_
  cases idle with
  | true => exact hclosed rfl hcloses
  | false =>
    rw [hsame rfl] at hv ⊢
    exact hbusy rfl hv hsteady

theorem wp_finishTeardown (h : Running B v (retiring retired))
    (hQ : ∀ v', Settled B v' → Recovered B v' → Q () v') :
    (topoMachine B).wp (finishTeardown retired) Q v := by
  unfold finishTeardown
  rw [wp_bind']
  have hrun : Running B v (retiring retired ++ []) := by simpa using h
  refine wp_unplugRetired hrun fun calls retired' h₁ _ => ?_
  rw [wp_bind']
  refine wp_locked h₁.unlocked ?_
  rw [wp_bind']
  refine wp_settleRetired h₁.acquire fun v₂ h₂ _ _ => ?_
  refine wp_busIdle h₂ fun idle hidle hbusy => ⟨⟨[], h₂⟩, ?_⟩
  exact wp_closeAfter h₂.release hidle hbusy fun v' hv' _ hrec => hQ v' hv' hrec

end SessionService

end Satellite
