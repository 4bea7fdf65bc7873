import Satellite.Topology.Minting

/-!
# A record takes a new key

The second section of a PUT: the device's record, or a new one, takes the minted
token and key, has the first round of its change committed and is published. Its
pads keep everything but their pointer stamps until they are committed.
-/

namespace Satellite

open List Cold

/-! ## Counting over one changed record -/

theorem Cold.connections_eq_map {c : Cold} (hc : c.RowsNodup) :
    c.connections = (c.connections.map Connection.row).map c.conn := by
  rw [map_map]
  refine ((map_congr_left fun a ha => ?_).trans (map_id _)).symm
  exact conn_eq (conn?_of_mem hc ha)

theorem Cold.Beside.activeTotal {c c' : Cold} {row : Nat} {k k' : Connection} (h : c.Beside c' row)
    (hc : c.RowsNodup) (hk : c.conn? row = some k) (hk' : c'.conn? row = some k') :
    c'.activeTotal = c.activeTotal + (k'.activeControllerCount - k.activeControllerCount) := by
  have hc' : c'.RowsNodup := by
    rw [RowsNodup, h.rows]
    exact hc
  have hconn : c'.connections = c.connections.map fun a => if a.row == row then k' else a := by
    rw [connections_eq_map hc', h.rows, map_map]
    refine map_congr_left fun a ha => ?_
    by_cases hrow : a.row = row
    · simp [hrow, conn_eq hk']
    · have hsame := h.others a.row hrow
      rw [conn?_of_mem hc ha] at hsame
      simp [hrow, conn_eq hsame]
  have hedit : c.Edit { c with connections := c'.connections } row k' :=
    ⟨hconn, rfl, rfl, rfl, rfl⟩
  exact hedit.activeTotal hc hk

namespace SessionService

variable {B : Backend} {v : Topo} {row : Nat} {k k' : Connection} {carried : Carried}

/-! ## The pointers of a record -/

/-- Only pointer stamps of the pads differ. -/
structure Restamped (k k' : Connection) : Prop where
  same : k' = { k with controllers := k'.controllers }
  pads : ∀ i, k'.controllers i =
    { k.controllers i with pointerStamp := (k'.controllers i).pointerStamp }

theorem Restamped.refl (k : Connection) : Restamped k k := ⟨rfl, fun _ => rfl⟩

theorem Restamped.setPad {i stamp : Nat} (h : Restamped k k') :
    Restamped k (k'.setPad i { k'.controllers i with pointerStamp := stamp } 0 0) where
  same := by
    rw [h.same]
    simp [Connection.setPad]
  pads j := by
    by_cases hj : j = i
    · subst hj
      rw [Connection.setPad_controllers_self, h.pads j]
    · rw [Connection.setPad_controllers_ne _ hj]
      exact h.pads j

theorem Editing.stampPad {i s : Nat} (h : Editing B v row k carried) (ha : k.Active i s) :
    Editing B { v with cold := v.cold.stampPad row i } row (k.setPad i
      { k.controllers i with pointerStamp := nextStamp v.cold.nextPointerStamp } 0 0)
      carried := by
  have hactive := ha
  obtain ⟨hi, hact, hser⟩ := ha
  have hpad : Controller.pad { k.controllers i with
      pointerStamp := nextStamp v.cold.nextPointerStamp } = v.ledger.pad row i := by
    rw [h.pad_of_active hactive]
    simp [Controller.pad, hact, hser]
  have hed := h.setPad hi (chain_stampPad (h.chain i)).edit
    ⟨h.ok.identity i hi, h.ok.inactive i hi⟩ (by simp [Controller.weight]) (.inr rfl)
    (by rw [hpad, Ledger.setPad_self]; exact h.sound.ledger)
  simpa only [add_zero] using hed

/-- Releasing the pointers of all pads moves their stamps only. -/
theorem wp_releaseConnectionPointer (h : Editing B v row k carried) {Q : Unit → Topo → Prop}
    (hQ : ∀ v' k', v' = { v with cold := v'.cold } → v'.cold.serialQuarantined =
        v.cold.serialQuarantined → v'.cold.connections.map Connection.token =
        v.cold.connections.map Connection.token → Editing B v' row k' carried → Restamped k k' →
      Q () v') :
    (topoMachine B).wp (releaseConnectionPointerLocked row) Q v := by
  refine Machine.wp_mono (Machine.wp_forEach (fun _ t => ∃ k', t = { v with cold := t.cold } ∧
    t.cold.serialQuarantined = v.cold.serialQuarantined ∧ t.cold.connections.map Connection.token =
      v.cold.connections.map Connection.token ∧ Editing B t row k' carried ∧ Restamped k k')
    ⟨k, rfl, rfl, rfl, h, .refl k⟩ ?_) ?_
  · rintro done i rest t hsplit ⟨k₁, heq, hquar, htok, hed, hstamp⟩
    have hi : i < 16 := by
      apply mem_ctrlIndices.1
      rw [hsplit]
      simp
    rw [wp_bind', wp_conn hed.locked, conn_eq hed.conn, wp_ite]
    split
    next hact =>
      have hactive : k₁.Active i (k₁.controllers i).serialNo := ⟨hi, hact, rfl⟩
      rw [wp_releasePointer hed.locked hed.conn (hed.serial_range hactive)]
      refine ⟨_, ?_, ?_, ?_, Editing.stampPad hed hactive, hstamp.setPad⟩
      · rw [heq]
      · exact hquar
      · rw [← htok]
        exact (chain_stampPad (hed.chain i)).edit.map_eq hed.sound.rows hed.conn _ rfl
    · exact ⟨k₁, heq, hquar, htok, hed, hstamp⟩
  · rintro _ t ⟨k', heq, hquar, htok, hed, hstamp⟩
    exact hQ t k' heq hquar htok hed hstamp

/-! ## The record that takes the key -/

/-- The records are one session with the same pads: only the key material, what the request
granted and the pointer stamps differ. -/
structure Adopts (k k' : Connection) : Prop where
  row : k'.row = k.row
  slot : k'.slot = k.slot
  connectionId : k'.connectionId = k.connectionId
  deviceId : k'.deviceId = k.deviceId
  epoch : k'.epoch = k.epoch
  count : k'.activeControllerCount = k.activeControllerCount
  pads : ∀ i, k'.controllers i =
    { k.controllers i with pointerStamp := (k'.controllers i).pointerStamp }

namespace Adopts

variable {k'' : Connection}

theorem trans (h : Adopts k k') (h' : Adopts k' k'') : Adopts k k'' where
  row := h'.row.trans h.row
  slot := h'.slot.trans h.slot
  connectionId := h'.connectionId.trans h.connectionId
  deviceId := h'.deviceId.trans h.deviceId
  epoch := h'.epoch.trans h.epoch
  count := h'.count.trans h.count
  pads i := by
    rw [h'.pads i, h.pads i]

theorem of_restamped (h : Restamped k k') : Adopts k k' where
  row := by rw [h.same]
  slot := by rw [h.same]
  connectionId := by rw [h.same]
  deviceId := by rw [h.same]
  epoch := by rw [h.same]
  count := by rw [h.same]
  pads := h.pads

theorem pad (h : Adopts k k') (i : Nat) : k'.pad i = k.pad i := by
  rw [Connection.pad, Connection.pad, h.pads i]

theorem held (h : Adopts k k') : k'.held = k.held := by
  have htypes : k'.types = k.types := by
    funext i
    rw [Connection.types, Connection.types, h.pads i]
  rw [Connection.held, Connection.held, h.row, h.epoch, htypes]

theorem ok (h : Adopts k k') (hok : k.Ok) : k'.Ok where
  identity i hi ha := by
    rw [h.pads i] at ha ⊢
    exact hok.identity i hi ha
  inactive i hi ha := by
    rw [h.pads i] at ha ⊢
    exact hok.inactive i hi ha
  count := by
    rw [h.count, hok.count, Connection.activeCount, Connection.activeCount]
    congr 2
    funext i
    rw [h.pads i]

theorem agrees {held : List Held} (h : Adopts k k') (ha : k.Agrees held) : k'.Agrees held := by
  have hh := Held.mk.inj h.held
  rw [Connection.Agrees, hh.1, hh.2.1, hh.2.2]
  exact ha

end Adopts

/-- Whether a pad fits its plan does not depend on pointer stamps. -/
theorem PadChange.Planned.adopts {pad : PadChange} (h : Adopts k k')
    (hp : pad.Planned (k.controllers pad.desc.ctrlIdx)) :
    pad.Planned (k'.controllers pad.desc.ctrlIdx) := by
  rw [h.pads]
  exact hp

/-- The record being edited may take another key and a token that no record carries. -/
theorem Editing.adopt (h : Editing B v row k carried) {f : Connection → Connection}
    (hf : ∀ a, (f a).row = a.row) (ha : Adopts k (f k))
    (htok : (f k).token = k.token ∨ TokenFree v (f k).token) :
    Editing B { v with cold := v.cold.setConn row f } row (f k) carried := by
  have hledger : ({ v with cold := v.cold.setConn row f } : Topo).ledger = v.ledger := by
    have hpad : (v.cold.setConn row f).pad = v.cold.pad := by
      funext r i
      rw [pad_eq, pad_eq, conn?_setConn _ _ _ hf]
      by_cases hr : r = row
      · subst hr
        simp [h.conn, ha.pad]
      · rw [if_neg hr]
    simp only [Topo.ledger, hpad]
    rfl
  refine ⟨h.locked, h.closed, ?_, ?_, ha.ok h.ok, ha.agrees h.agrees⟩
  · refine h.sound.edit h.conn
      (.of_setConn h.sound.rows h.conn f) ha.row htok ha.connectionId ha.deviceId ha.slot ?_ ?_
    · rw [ha.count]
      omega
    · rw [hledger]
      exact h.sound.ledger
  · rw [conn?_setConn _ _ _ hf, if_pos rfl, h.conn]
    rfl

/-- The key material was drawn for the device's record, or for a new one. -/
structure Minted (v : Topo) (existing : Option Connection) (mint : SessionMint) : Prop where
  token : TokenFree v mint.token
  replaced : ∀ k, existing = some k → k ∈ v.cold.connections ∧ mint.row = k
  fresh : existing = none → Fresh v mint.row

/-- What was drawn stays good while the map does not change and observers see only what is in it. -/
theorem Minted.later {v' : Topo} {existing : Option Connection} {mint : SessionMint}
    (h : Minted v existing mint) (hconn : v'.cold.connections = v.cold.connections)
    (hrow : v'.cold.nextRow = v.cold.nextRow)
    (hheld : ∀ x ∈ v'.held, x ∈ v.held ∨ x ∈ v.seenCold) : Minted v' existing mint where
  token := by
    rw [TokenFree, hconn]
    exact h.token
  replaced := by
    rw [hconn]
    exact h.replaced
  fresh hnone := (h.fresh hnone).later hconn hrow hheld

/-- The device's record, or a new one, takes the minted token; its pads stay as they were. -/
theorem wp_adoptSession {existing : Option Connection} {mint : SessionMint}
    (h : Holding B v carried) (hm : Minted v existing mint) {Q : Nat → Topo → Prop}
    (hQ : ∀ v' k', v' = { v with cold := v'.cold } →
      v'.cold.serialQuarantined = v.cold.serialQuarantined →
      Editing B v' mint.row.row k' carried → Adopts mint.row k' → Q mint.row.row v') :
    (topoMachine B).wp (adoptSessionLocked existing mint) Q v := by
  cases existing with
  | none =>
    have hfresh := hm.fresh rfl
    have hnew : Fresh v { mint.row with token := mint.token } :=
      { hfresh with }
    have hed := editing_joined h hnew hm.token
    rw [adoptSessionLocked, wp_bind', wp_modify h.locked, wp_pure]
    exact hQ _ _ rfl rfl hed ⟨rfl, rfl, rfl, rfl, rfl, rfl, fun _ => rfl⟩
  | some k =>
    obtain ⟨hk, hrow⟩ := hm.replaced k rfl
    rw [hrow] at hQ
    rw [adoptSessionLocked, wp_bind', sendSessionClose, wp_sendEncryptedPacket h hk, wp_bind']
    refine wp_releaseConnectionPointer (h.editing (conn?_of_mem h.sound.rows hk))
      fun v₁ k₁ heq hquar htok hed hstamp => ?_
    have hfree : TokenFree v₁ mint.token := by
      refine ⟨hm.token.1, fun a ha => ?_⟩
      obtain ⟨b, hb, hba⟩ := mem_map.1 (htok ▸ mem_map.2 ⟨a, ha, rfl⟩)
      rw [← hba]
      exact hm.token.2 b hb
    rw [wp_bind', wp_modify hed.locked, wp_pure]
    refine hQ _ { k₁ with token := mint.token } ?_ hquar (Editing.adopt hed (fun _ => rfl)
      ⟨rfl, rfl, rfl, rfl, rfl, rfl, fun _ => rfl⟩ (.inr hfree)) ?_
    · rw [heq]
    · exact (Adopts.of_restamped hstamp).trans ⟨rfl, rfl, rfl, rfl, rfl, rfl, fun _ => rfl⟩

theorem wp_grantMouse {requested : Bool} {Q : Bool → Topo → Prop} (hQ : ∀ granted, Q granted v) :
    (topoMachine B).wp (grantMouse requested) Q v := by
  rw [grantMouse, wp_ite]
  split
  · rw [wp_supportsRelativeMouse]
    exact hQ
  · exact hQ false

/-- What the second section of a PUT writes to the record beside its token. -/
def takeKey (req : UpsertRequest) (mint : SessionMint) (time : Nat) (mouse : Bool)
    (k : Connection) : Connection :=
  { k with sessionSalt := mint.salt, sessionKey := mint.key
           graceUntil := time + seconds restLivenessGraceSec
           protocolVersion := req.protocolVersion, mouseControlGranted := mouse }

theorem adopts_takeKey {req : UpsertRequest} {mint : SessionMint} {time : Nat} {mouse : Bool}
    (k : Connection) : Adopts k (takeKey req mint time mouse k) :=
  ⟨rfl, rfl, rfl, rfl, rfl, rfl, fun _ => rfl⟩

/-- The second section of a PUT: the record has its key, the first round and its publication. -/
theorem wp_commitUpsert {req : UpsertRequest} {plan : UpsertPlan}
    (h : Holding B v (padsCarried false plan.change.pads)) (hm : Minted v plan.existing plan.mint)
    (hp : ∀ pad ∈ plan.change.pads, pad.Planned (plan.mint.row.controllers pad.desc.ctrlIdx))
    (hidx : (plan.change.pads.map (·.desc.ctrlIdx)).Nodup) (hret : plan.change.retired = [])
    (hlift : plan.change.busReopened = true → B.Steady → ∀ s, unconfirmed v.calls s = false)
    {Q : Nat × TopologyChange → Topo → Prop}
    (hQ : ∀ v' k₀ k' new, Holding B v' (retiring new) →
      v'.cold.conn? plan.mint.row.row = some k' → Adopts plan.mint.row k₀ →
      Committed false plan.change.pads k₀ k' →
      v'.cold.activeTotal = v.cold.activeTotal +
        (k'.activeControllerCount - plan.mint.row.activeControllerCount) →
      (∀ s, v'.cold.serialQuarantined s = true → v.cold.serialQuarantined s = true) →
      Q (plan.mint.row.row,
        { pads := plan.change.pads.map fun pad =>
            roundOutcome false pad (k₀.controllers pad.desc.ctrlIdx)
          retired := new }) v') :
    (topoMachine B).wp (commitUpsertLocked req plan) Q v := by
  rw [commitUpsertLocked, wp_bind', wp_now]
  intro time
  rw [wp_bind']
  refine wp_adoptSession h hm fun v₁ k₁ heq₁ hquar₁ hed₁ hadopt₁ => ?_
  rw [wp_bind']
  refine wp_grantMouse fun mouse => ?_
  rw [wp_bind', wp_modify hed₁.locked]
  have hed₂ := Editing.adopt (f := takeKey req plan.mint time mouse) hed₁ (fun _ => rfl)
    (adopts_takeKey k₁) (.inl rfl)
  have hadopt : Adopts plan.mint.row (takeKey req plan.mint time mouse k₁) :=
    hadopt₁.trans (adopts_takeKey k₁)
  have htotal : (v₁.cold.setConn plan.mint.row.row (takeKey req plan.mint time mouse)).activeTotal =
      v.cold.activeTotal := by
    rw [← hed₂.sound.total, ← h.sound.total, heq₁]
  rw [wp_bind']
  rw [← append_nil (padsCarried false plan.change.pads)] at hed₂
  refine wp_commitPads hed₂ (fun pad hpad => (hp pad hpad).adopts hadopt) hidx ?_
    fun v₂ k' new hb hed hcom _ => ?_
  · intro hre hst s
    have := hlift hre hst s
    rw [heq₁]
    exact this
  rw [wp_bind']
  refine wp_publishSession hed fun mem' held' hhold => ?_
  have hcount : ∀ c : Cold, c.connections = (v₁.cold.setConn plan.mint.row.row
      (takeKey req plan.mint time mouse)).connections → c.Beside v₂.cold plan.mint.row.row →
      v₂.cold.activeTotal = v.cold.activeTotal +
        (k'.activeControllerCount - plan.mint.row.activeControllerCount) := by
    intro c hc hcb
    rw [hcb.activeTotal (by rw [RowsNodup, hc]; exact hed₂.sound.rows)
      (by rw [conn?, hc]; exact hed₂.conn) hed.conn, activeTotal, hc, ← activeTotal,
      htotal, hadopt.count]
  rw [wp_pure, hret, nil_append]
  rw [append_nil] at hhold
  refine hQ _ _ k' new hhold hed.conn hadopt hcom ?_ ?_
  · refine hcount _ ?_ hb.cold
    split <;> rfl
  · intro s hs
    have hs' : v₂.cold.serialQuarantined s = true := hs
    rw [hb.cold.serialQuarantined, ← hquar₁] at *
    split at hs'
    · cases hs'
    · exact hs'

end SessionService

end Satellite
