import Satellite.Topology.Fitting
import Satellite.Topology.Closing

/-!
# A session PUT

`upsertSession` from end to end: the plan, the calls of its first round, the
section that commits and publishes it, the second round, and the response. What
the response says of a pad agrees with the record it was read from.
-/

namespace Satellite

open List Connection

namespace SessionService

variable {B : Backend} {v : Topo} {row : Nat} {k k' : Connection} {carried : Carried}

/-! ## The plan -/

/-- A PUT that was planned: the record it is for, the key drawn for it and its pads. -/
structure UpsertPlanned (B : Backend) (v v' : Topo) (req : UpsertRequest) (plan : UpsertPlan) :
    Prop where
  holding : Holding B v' (padsCarried false plan.change.pads)
  existing : plan.existing = v.cold.findByDeviceId req.deviceId
  device : plan.mint.row.deviceId = req.deviceId
  minted : Minted v' plan.existing plan.mint
  pads : SessionPlan B v v' plan.mint.row (dedupDescriptors req.descriptors) plan.change.pads
  retired : plan.change.retired = []
  reopened : plan.change.busReopened = false
  connections : v'.cold.connections = v.cold.connections
  quarantined : v'.cold.serialQuarantined = v.cold.serialQuarantined
  bus : v'.bus = v.bus

/-- A plan knows of the state it was made in only whether the bus was open. -/
theorem SessionPlan.of_bus {v₀ v' : Topo} {desired : List ControllerDescriptor}
    {pads : List PadChange} (h : SessionPlan B v₀ v' k desired pads) (hbus : v₀.bus = v.bus) :
    SessionPlan B v v' k desired pads :=
  { h with
    valid := hbus ▸ h.valid }

variable {derive : Key → Salt → Nat → Key} {req : UpsertRequest}

/-- Drawing a key for a record and planning its pads. -/
theorem wp_mintAndPlan {v₀ : Topo}
    {existing : Option Connection} (h : Holding B v [])
    (hex : existing = v₀.cold.findByDeviceId req.deviceId) (hdev : k.deviceId = req.deviceId)
    (hrep : ∀ a, existing = some a → a ∈ v.cold.connections ∧ k = a)
    (hfresh : existing = none → Fresh v k) (hconn : v.cold.connections = v₀.cold.connections)
    (hquar : v.cold.serialQuarantined = v₀.cold.serialQuarantined) (hbus : v.bus = v₀.bus)
    {Q : Option UpsertPlan → Topo → Prop}
    (hQ : ∀ v' plan, UpsertPlanned B v₀ v' req plan → Q (some plan) v') :
    (topoMachine B).wp (do
      let mint ← mintSessionKeyLocked derive req.pairingKey k
      let change ← planSessionPadsLocked k (dedupDescriptors req.descriptors)
      pure (some { existing := existing, mint := mint, change := change })) Q v := by
  rw [wp_bind']
  refine wp_mintSessionKey h fun mint htok hrow _ => ?_
  rw [wp_bind']
  refine wp_planSession h (dedupDescriptors_spec req.descriptors).1 fun v' pads hhold hres hplan => ?_
  have hminted : Minted v existing mint := ⟨htok, hrow ▸ hrep, hrow ▸ hfresh⟩
  have hkeep : v'.cold.nextRow = v.cold.nextRow ∧ v'.held = v.held ∧ v'.bus = v.bus := by
    rw [hres.pool]
    exact ⟨rfl, rfl, rfl⟩
  rw [append_nil] at hhold
  refine hQ v' _ ⟨hhold, hex, hrow ▸ hdev, ?_, ?_, rfl, rfl, ?_, ?_, ?_⟩
  · refine hminted.later hres.pool.connections hkeep.1 fun x hx => .inl ?_
    rwa [hkeep.2.1] at hx
  · rw [hrow]
    exact hplan.of_bus hbus
  · exact hres.pool.connections.trans hconn
  · exact hres.quarantined.trans hquar
  · exact hkeep.2.2.trans hbus

theorem wp_planUpsert
    (h : Holding B v []) {Q : Option UpsertPlan → Topo → Prop}
    (hnone : (∀ k ∈ v.cold.connections, k.deviceId ≠ req.deviceId) → (∀ slot, ¬ SlotFree v slot) →
      Q none v)
    (hQ : ∀ v' plan, UpsertPlanned B v v' req plan → Q (some plan) v') :
    (topoMachine B).wp (planUpsertLocked derive req) Q v := by
  rw [planUpsertLocked, wp_bind', wp_cold h.locked]
  cases hex : v.cold.findByDeviceId req.deviceId with
  | some k =>
    have hdev : k.deviceId = req.deviceId := by simpa using find?_some hex
    have hk : k ∈ v.cold.connections := mem_of_find?_eq_some hex
    rw [wp_bind', findOrReserveLocked, wp_pure]
    refine wp_mintAndPlan h hex.symm hdev ?_ nofun rfl rfl rfl hQ
    intro a ha
    cases ha
    exact ⟨hk, rfl⟩
  | none =>
    have hdev : ∀ a ∈ v.cold.connections, a.deviceId ≠ req.deviceId := by
      intro a ha
      simpa using find?_eq_none.1 hex a ha
    rw [wp_bind', findOrReserveLocked]
    refine wp_reserveSession h hdev (hnone hdev) fun k hfresh hkdev => ?_
    exact wp_mintAndPlan (holding_rowTaken h) hex.symm hkdev nofun (fun _ => hfresh) rfl rfl rfl hQ

/-! ## The response -/

/-- What a response says of one index agrees with the applied types of a record. -/
def ControllerApplyResult.Agrees (out : ControllerApplyResult) (types : Nat → Option Nat) : Prop :=
  match out.result with
  | .ok | .replugFail => types out.ctrlIdx = some out.appliedType
  | .invalidType => ∀ type, types out.ctrlIdx = some type → type = out.appliedType
  | .noSlots | .pluginFail | .backendUnavail | .invalidIndex => types out.ctrlIdx = none

/-- The entry of a response for a pad. -/
structure Reports (pad : PadChange) (out : ControllerApplyResult) : Prop where
  ctrlIdx : out.ctrlIdx = pad.desc.ctrlIdx
  result : out.result = pad.result
  appliedType : out.appliedType = pad.appliedType

theorem wp_applyResult {pad : PadChange} {Q : ControllerApplyResult → Topo → Prop}
    (hQ : ∀ out, Reports pad out → Q out v) : (topoMachine B).wp (applyResultLocked k pad) Q v := by
  rw [applyResultLocked, wp_ite]
  split
  · simp only [wp_bind', wp_supportsMotionForType, wp_motionBackendOk, wp_backendIdForSerial,
      wp_pure]
    exact fun sink motionOk backendId => hQ _ ⟨rfl, rfl, rfl⟩
  · exact hQ _ ⟨rfl, rfl, rfl⟩

/-- A pad that ended its change reports what its record has. -/
theorem Reports.agrees {pad pad' : PadChange} {p : Controller} {out : ControllerApplyResult}
    (h : Reports pad' out) (hends : Ends pad pad') (hplanned : pad.Planned p)
    (hremove : pad.kind ≠ .remove) (hmatch : pad'.Matches (k.controllers pad'.desc.ctrlIdx)) :
    out.Agrees k.types := by
  have hrange : pad'.result ≠ .invalidIndex → pad'.desc.ctrlIdx < 16 := by
    intro hne
    rw [hends.desc]
    cases hkind : pad.kind with
    | refuse =>
      simp only [PadChange.Planned, hkind] at hplanned
      rw [hends.refuse hkind hplanned.1] at hne
      rcases hplanned.2 with ⟨hres, -⟩ | ⟨-, hlt, -⟩
      · exact absurd hres hne
      · exact hlt
    | remove => exact absurd hkind hremove
    | update | replug | replugInPlace =>
      simp only [PadChange.Planned, hkind] at hplanned
      exact hplanned.2.1.index
    | add =>
      simp only [PadChange.Planned, hkind] at hplanned
      exact hplanned.1.index
  rw [ControllerApplyResult.Agrees, h.ctrlIdx, h.result, h.appliedType]
  rw [PadChange.Matches] at hmatch
  have hkind : ¬ pad'.kind = .remove := by
    rw [hends.kind]
    exact hremove
  cases hres : pad'.result with
  | ok =>
    simp only [hres, if_neg hkind] at hmatch
    rw [hmatch.2]
    simp [types, hrange (by simp [hres]), hmatch.1.active, hmatch.1.type]
  | replugFail =>
    simp only [hres] at hmatch
    simp [types, hrange (by simp [hres]), hmatch.1, hmatch.2]
  | noSlots | pluginFail | backendUnavail =>
    simp only [hres] at hmatch
    simp [types, hmatch]
  | invalidType =>
    simp only [hres] at hmatch
    intro type htype
    rw [types] at htype
    split at htype
    next hact =>
      rw [← hmatch hact.2]
      exact (Option.some.inj htype).symm
    · cases htype
  | invalidIndex =>
    simp only [hres] at hmatch
    simp [types, Nat.not_lt.2 hmatch]

/-- The last section of a PUT reads the response from the record. -/
theorem wp_upsertResult {change : TopologyChange} (h : Holding B v carried)
    (hk : v.cold.conn? row = some k) {Q : SessionUpsertResult × Bool → Topo → Prop}
    (hQ : ∀ result idle, result.connectionId = k.connectionId → result.epoch = k.epoch % 2 ^ 16 →
      List.Forall₂ Reports (change.pads.filter fun pad => pad.kind != .remove) result.controllers →
      (idle = true → v.Idle) → (idle = false → v.Idle → B.Steady → v.bus = false) →
      Q (result, idle) v) :
    (topoMachine B).wp (upsertResultLocked req row change) Q v := by
  rw [upsertResultLocked, wp_bind', wp_conn h.locked, Cold.conn_eq hk, wp_bind']
  refine Machine.wp_mono (Machine.wp_mapEach (fun done out t => t = v ∧
    List.Forall₂ Reports done out) ⟨rfl, .nil⟩ ?_) ?_
  · rintro done out pad rest t - ⟨rfl, hall⟩
    exact wp_applyResult fun r hr => ⟨rfl, rel_append hall (.cons hr .nil)⟩
  · rintro out t ⟨rfl, hall⟩
    rw [wp_bind']
    exact wp_busIdle h fun idle hidle hbusy => hQ _ idle rfl rfl hall hidle hbusy

/-- The end of an operation that answered from its last section: the records it could read are
seen, and the bus is closed if the section found it idle. -/
theorem wp_closeAfterResponse {idle : Bool} (h : Settled B v) (hidle : idle = true → v.Idle)
    (hbusy : idle = false → v.Idle → B.Steady → v.bus = false) {Q : Unit → Topo → Prop}
    (hQ : ∀ v', Settled B v' → Recovered B v' → v'.cold.connections = v.cold.connections →
      (∀ k ∈ v.cold.connections, k.held ∈ v'.held) → Q () v') :
    (topoMachine B).wp (closeBusIfIdle idle) Q ({ v with locked := true } : Topo).release := by
  refine Machine.wp_mono (wp_later (wp_closeAfter (Q := fun _ v' => Settled B v' ∧
    v'.cold.connections = v.cold.connections ∧ Recovered B v') h.acquire.release hidle hbusy
    fun v' hs hconn hrec => ⟨hs, hconn, hrec⟩)) ?_
  rintro _ v' ⟨⟨hs, hconn, hrec⟩, hlater⟩
  refine hQ v' hs hrec hconn fun k hk => hlater.held ?_
  exact mem_append_left _ (mem_map.2 ⟨k, hk, rfl⟩)

/-! ## The operation -/

/-- The device's record before a PUT; without one, nothing is active. -/
def ownRecord (v : Topo) (req : UpsertRequest) : Connection :=
  (v.cold.findByDeviceId req.deviceId).getD {}

/-- The pads agree on everything but their pointer stamps. -/
def SamePads (k k' : Connection) : Prop := ∀ i, k'.controllers i =
  { k.controllers i with pointerStamp := (k'.controllers i).pointerStamp }

/-- The pads a PUT asks for fit beside those of the other sessions. -/
def Fits (supported : GamepadIdentity → Bool) (v : Topo) (req : UpsertRequest) : Prop :=
  (ctrlIndices.countP (wanted supported req.descriptors) : Int) +
    ctrlIndices.countP (kept supported req.descriptors (ownRecord v req)) +
    (v.cold.activeTotal - (ownRecord v req).activeCount) + v.cold.quarantinedCount ≤ 16

/-- What a PUT answers and leaves behind. -/
structure Upserted (B : Backend) (v v' : Topo) (req : UpsertRequest) (result : SessionUpsertResult)
    (k' : Connection) : Prop where
  completed : Completed B v v'
  mem : k' ∈ v'.cold.connections
  id : k'.connectionId = result.connectionId
  device : k'.deviceId = req.deviceId
  seen : k'.held ∈ v'.held
  epoch : result.epoch = k'.epoch % 2 ^ 16
  listed : result.controllers.map (·.ctrlIdx) = (dedupDescriptors req.descriptors).map (·.ctrlIdx)
  agrees : ∀ out ∈ result.controllers, out.Agrees k'.types
  unlisted : ∀ i, (∀ out ∈ result.controllers, out.ctrlIdx ≠ i) → k'.types i = none
  converges : ∀ supported, B.Cooperates supported → Fits supported v req →
    (∃ k₀, SamePads (ownRecord v req) k₀ ∧ Converged supported req.descriptors k₀ k') ∧
    ∀ out ∈ result.controllers, ∀ d, lastDescriptor req.descriptors out.ctrlIdx = some d →
      Valid supported d → out.result = .ok

/-- The record a PUT is planned for has the pads of the device's record. -/
theorem UpsertPlanned.own {v' : Topo} {plan : UpsertPlan}
    (h : UpsertPlanned B v v' req plan) : plan.mint.row.controllers = (ownRecord v req).controllers ∧
      plan.mint.row.activeControllerCount = (ownRecord v req).activeControllerCount := by
  rw [ownRecord, ← h.existing]
  cases hex : plan.existing with
  | none =>
    have hfresh := h.minted.fresh hex
    exact ⟨hfresh.pads, hfresh.count⟩
  | some k =>
    rw [(h.minted.replaced k hex).2]
    exact ⟨rfl, rfl⟩

/-- The device's record is well formed, also when there is none. -/
theorem ownRecord_count (h : Sound B v carried none []) :
    (ownRecord v req).activeControllerCount = (ownRecord v req).activeCount := by
  rw [ownRecord]
  cases hex : v.cold.findByDeviceId req.deviceId with
  | none => rfl
  | some k => exact (h.ok k (mem_of_find?_eq_some hex) nofun).count

namespace UpsertPlanned

variable {v' : Topo} {req : UpsertRequest} {plan : UpsertPlan} {supported : GamepadIdentity → Bool}

theorem asked (h : UpsertPlanned B v v' req plan) (hv : Sound B v carried none [])
    (hB : B.Cooperates supported) :
    Asked supported req.descriptors plan.mint.row plan.change.pads := by
  refine h.pads.asked hB fun i hi ha => ?_
  rw [h.own.1, ownRecord] at ha
  cases hex : v.cold.findByDeviceId req.deviceId with
  | none =>
    rw [hex] at ha
    cases ha
  | some k =>
    rw [hex] at ha
    exact hv.bus_of_active hB.steady (mem_of_find?_eq_some hex) ⟨hi, ha, rfl⟩

/-- The count of a PUT that fits, in the state its plan was made in. -/
theorem fits (h : UpsertPlanned B v v' req plan) (hfits : Fits supported v req) :
    (ctrlIndices.countP (wanted supported req.descriptors) : Int) +
      ctrlIndices.countP (kept supported req.descriptors plan.mint.row) +
      (v'.cold.activeTotal - plan.mint.row.activeCount) + v'.cold.quarantinedCount ≤ 16 := by
  have hkept : kept supported req.descriptors plan.mint.row =
      kept supported req.descriptors (ownRecord v req) := by
    funext i
    rw [kept, kept, h.own.1]
  rw [hkept, Cold.activeTotal, h.connections, Cold.quarantinedCount, h.quarantined,
    activeCount, h.own.1]
  exact hfits

/-- What waits for the second round fits once the first one is committed. -/
theorem fits_second (h : UpsertPlanned B v v' req plan) (hv : Sound B v carried none [])
    (hfits : Fits supported v req) {k₀ : Connection} {pads : List PadChange} {v₃ : Topo}
    (hadopt : Adopts plan.mint.row k₀) (hasked : Asked supported req.descriptors k₀ pads)
    (hcom : Committed false pads k₀ k) (hok : k.Ok)
    (htotal : v₃.cold.activeTotal = v'.cold.activeTotal +
      (k.activeControllerCount - plan.mint.row.activeControllerCount))
    (hquar : ∀ s, v₃.cold.serialQuarantined s = true → v'.cold.serialQuarantined s = true) :
    v₃.cold.activeTotal + (pads.map fun pad =>
        roundOutcome false pad (k₀.controllers pad.desc.ctrlIdx)).countP PadChange.waits +
      v₃.cold.quarantinedCount ≤ 16 := by
  have hcap := h.fits hfits
  have hround := hasked.first_round_le hcom
  have hkept : kept supported req.descriptors k₀ =
      kept supported req.descriptors plan.mint.row := by
    funext i
    rw [kept, kept, hadopt.pads i]
  have hcount : plan.mint.row.activeControllerCount = plan.mint.row.activeCount := by
    rw [h.own.2, ownRecord_count hv, activeCount, activeCount, h.own.1]
  have hle : v₃.cold.quarantinedCount ≤ v'.cold.quarantinedCount :=
    countP_mono_left fun s _ => hquar s
  rw [hkept] at hround
  rw [htotal, hok.count, hcount]
  omega

end UpsertPlanned

/-- The pads that are no removals, before and after a change. -/
theorem filter_of_ends {pads pads' : List PadChange} (h : List.Forall₂ Ends pads pads') :
    (pads'.filter fun pad => pad.kind != .remove).map (·.desc) =
      (pads.filter fun pad => pad.kind != .remove).map (·.desc) := by
  induction h with
  | nil => rfl
  | cons hend _ ih =>
    rw [filter_cons, filter_cons, hend.kind]
    split
    · rw [map_cons, map_cons, ih, hend.desc]
    · exact ih

theorem wp_upsertSession (h : Settled B v)
    {Q : Option SessionUpsertResult → Topo → Prop}
    (hnone : ∀ v', (∀ k ∈ v.cold.connections, k.deviceId ≠ req.deviceId) →
      (∀ slot, ¬ SlotFree v slot) → Completed B v v' → Q none v')
    (hQ : ∀ v' result k', Upserted B v v' req result k' → Q (some result) v') :
    (topoMachine B).wp (upsertSession derive req) Q v := by
  rw [upsertSession, wp_bind']
  refine wp_locked h.unlocked (wp_planUpsert h.acquire ?_ ?_)
  · intro hdev hslot
    exact ⟨⟨[], h.acquire⟩, hnone _ hdev hslot (Completed.unchanged h)⟩
  intro v₁ plan hplan
  refine ⟨⟨_, hplan.holding⟩, ?_⟩
  rw [wp_bind']
  have h₁ : Running B v₁.release (padsCarried false plan.change.pads ++ []) := by
    simpa using hplan.holding.release
  refine wp_plugPads h₁ (fun pad hpad _ => hplan.pads.plugged pad hpad) hplan.reopened
    fun bus calls pads₂ reopened h₂ hall hlift hplugged => ?_
  obtain ⟨hplanned, hdesc⟩ := hplan.pads.plugged_round hall
  have hidx : (pads₂.map (·.desc.ctrlIdx)).Nodup := by
    have hmap := congrArg (List.map (·.ctrlIdx)) hdesc
    rw [map_map, map_map] at hmap
    exact hmap ▸ hplan.pads.indices
  rw [append_nil] at h₂
  rw [wp_bind']
  refine wp_locked h₂.unlocked ?_
  refine wp_commitUpsert (by exact h₂.acquire) ?_ (by exact hplanned) (by exact hidx)
    (by exact hplan.retired) (by exact hlift) fun v₃ k₀ k₃ new h₃ hk₃ hadopt hcom htotal hquar => ?_
  · refine hplan.minted.later rfl rfl fun x hx => ?_
    exact (mem_append.1 hx).symm
  have hplanned₀ : ∀ pad ∈ pads₂, pad.Planned (k₀.controllers pad.desc.ctrlIdx) :=
    fun pad hpad => (hplanned pad hpad).adopts hadopt
  refine ⟨⟨_, h₃⟩, ?_⟩
  rw [wp_bind']
  refine wp_settlePadChange (by exact h₃.release) (by exact hk₃)
    (fun pad hpad => (hcom.first_round hplanned₀ hpad).1)
    (fun pad hpad => (hcom.first_round hplanned₀ hpad).2) ?_ (by rfl)
    fun v₄ k₄ change₄ h₄ hk₄ hset => ?_
  · simpa [map_map, Function.comp_def] using hidx
  have hends := ends_of_rounds hall hset.follows
  rw [wp_bind']
  refine wp_locked h₄.unlocked (wp_upsertResult h₄.acquire hk₄
    fun result idle hid hepoch hreports hidle hbusy => ⟨⟨_, h₄.acquire⟩, ?_⟩)
  rw [wp_bind']
  have hk₄mem : k₄ ∈ v₄.cold.connections := Cold.mem_of_conn? hk₄
  have hlisted : result.controllers.map (·.ctrlIdx) =
      (dedupDescriptors req.descriptors).map (·.ctrlIdx) := by
    rw [map_eq_of_forall₂ (fun _ _ hr => Reports.ctrlIdx hr) hreports, ← hplan.pads.responses,
      ← filter_of_ends hends, map_map]
    rfl
  refine wp_closeAfterResponse h₄ hidle hbusy fun v' hs hrec hconn hseen => ?_
  refine hQ v' result k₄
    ⟨⟨hs, .inr hrec⟩, ?_, hid.symm, ?_, hseen k₄ hk₄mem, hepoch, hlisted, ?_, ?_, ?_⟩
  · rw [hconn]
    exact hk₄mem
  · rw [hset.same, hcom.same]
    exact hadopt.deviceId.trans hplan.device
  · intro out hout
    obtain ⟨pad', hpad', hreport⟩ := mem_of_forall₂ hreports hout
    obtain ⟨hpad', hremove⟩ := mem_filter.1 hpad'
    obtain ⟨pad, hpad, hend⟩ := mem_of_forall₂ hends hpad'
    refine hreport.agrees hend (hplan.pads.planned pad hpad) ?_ (hset.reports pad' hpad')
    rw [← hend.kind]
    simpa using hremove
  · intro i hi
    have hwant : ∀ d ∈ dedupDescriptors req.descriptors, d.ctrlIdx ≠ i := by
      intro d hd hidx'
      have hmem : i ∈ result.controllers.map (·.ctrlIdx) := by
        rw [hlisted]
        exact mem_map.2 ⟨d, hd, hidx'⟩
      obtain ⟨out, hout, rfl⟩ := mem_map.1 hmem
      exact hi out hout rfl
    simp only [types, ite_eq_right_iff, reduceCtorEq, imp_false, not_and,
      Bool.not_eq_true]
    intro hlt
    refine inactive_of_removed hplanned₀ hcom hset (fun pad hpad hidx' => ?_) fun ha => ?_
    · by_contra hne
      obtain ⟨q, hq, hplugs⟩ := mem_of_forall₂ hall hpad
      have hdesc' : pad.desc = q.desc := by rw [hplugs.eq]
      have hkind' : q.kind ≠ .remove := by
        rw [hplugs.eq] at hne
        exact hne
      have hin : q.desc ∈ dedupDescriptors req.descriptors := by
        rw [← hplan.pads.responses]
        exact mem_map.2 ⟨q, mem_filter.2 ⟨hq, by simpa using hkind'⟩, rfl⟩
      exact hwant _ hin (hdesc' ▸ hidx')
    · rw [hadopt.pads i] at ha
      obtain ⟨pad, hpad, -, rfl⟩ := hplan.pads.dropped i hlt ha hwant
      have hmap := congrArg (List.map (·.ctrlIdx)) hdesc
      rw [map_map, map_map] at hmap
      exact hmap ▸ mem_map.2 ⟨pad, hpad, rfl⟩
  · intro supported hB hfits
    have hsound : Sound B { v with locked := true } [] none [] := h.acquire.sound
    have hasked := hplan.asked hsound hB
    have hasked₂ := (hasked.plugs hall).adopts hadopt
    have hserved : ∀ pad ∈ pads₂, pad.kind = .add → pad.waits = false → pad.serial ≠ 0 := by
      intro pad hpad hkind hwaits
      obtain ⟨q, hq, hplugs⟩ := mem_of_forall₂ hall hpad
      have hadd := hasked.served hplan.holding hplan.pads.unserved (hplan.fits hfits) hq
      rw [hplugs.eq] at hkind hwaits ⊢
      exact hadd hkind hwaits
    have hok₃ := h₃.sound.ok k₃ (Cold.mem_of_conn? hk₃) (by simp)
    have hsecond := hset.served supported hB
      (hplan.fits_second hsound hfits hadopt hasked₂ hcom hok₃ htotal hquar)
    have hok := hasked₂.results hserved (hplugged supported hB) hset.follows hsecond
    refine ⟨⟨k₀, fun i => ?_, hasked₂.converged hcom hset hok⟩, ?_⟩
    · rw [hadopt.pads i, hplan.own.1]
      rfl
    · intro out hout d hlast hvalid
      obtain ⟨pad', hpad', hreport⟩ := mem_of_forall₂ hreports hout
      obtain ⟨hpad', hremove⟩ := mem_filter.1 hpad'
      have hremove : pad'.kind ≠ .remove := by simpa using hremove
      obtain ⟨pad, hpad, hend⟩ := mem_of_forall₂ hends hpad'
      have hdesc := hasked.descriptor pad hpad (hend.kind ▸ hremove)
      rw [← hend.desc, ← hreport.ctrlIdx, hlast] at hdesc
      cases hdesc
      rw [hreport.result]
      exact hok pad' hpad' hremove hvalid

end SessionService

end Satellite
