import Satellite.Topology.Controllers

/-!
# Histories of topology operations

The operations in any order, with any arguments and any answers of the backend.
Every operation keeps `Settled`, and a PUT whose pads fit gives its session
exactly the pads it asked for.
-/

namespace Satellite

open SessionService List

/-- The topology operations with their arguments. -/
inductive Operation
  | upsertSession (derive : Key → Salt → Nat → Key) (req : UpsertRequest)
  | applyController (connectionId deviceId : String) (desc : ControllerDescriptor)
  | removeController (connectionId deviceId : String) (ctrlIdx : Nat)
  | closeSessionById (connectionId deviceId : String) (reason : CloseReason) (notify : Bool)
  | closeSessionsForDevice (deviceId : String) (reason : CloseReason)
  | closeAllSessions (reason : CloseReason)
  | reapTimedOut

/-- What an operation runs; its response is dropped. -/
def Operation.body : Operation → TProg Unit
  | .upsertSession derive req => do
    let _ ← SessionService.upsertSession derive req
  | .applyController connectionId deviceId desc => do
    let _ ← SessionService.applyController connectionId deviceId desc
  | .removeController connectionId deviceId ctrlIdx => do
    let _ ← SessionService.removeController connectionId deviceId ctrlIdx
  | .closeSessionById connectionId deviceId reason notify => do
    let _ ← SessionService.closeSessionById connectionId deviceId reason notify
  | .closeSessionsForDevice deviceId reason => do
    let _ ← SessionService.closeSessionsForDevice deviceId reason
  | .closeAllSessions reason => SessionService.closeAllSessions reason
  | .reapTimedOut => do
    let _ ← SessionService.reapTimedOut

/-- The states between two operations. No session exists at first; the bus may be open. -/
inductive History (B : Backend) : Topo → Prop
  | init (bus : Bool) : History B { bus := bus }
  | step {v v' : Topo} (op : Operation) :
      History B v → (topoMachine B).Exec op.body v () v' → History B v'

variable {B : Backend} {v v' : Topo}

theorem settled_init (bus : Bool) : Settled B { bus := bus } where
  unlocked := rfl
  closed := rfl
  sound :=
    { ledger :=
        { nodup := nodup_nil
          inUse_iff := fun s => ⟨nofun, by rintro (⟨r, i, h⟩ | h) <;> cases h⟩
          apart := by rintro s ⟨r, i, h⟩; cases h
          single := nofun
          range := nofun
          disjoint := nofun
          outstanding_iff := fun s => ⟨nofun, by rintro (⟨r, i, h⟩ | h) <;> cases h⟩
          zombie := nofun
          unconfirmed := nofun
          closed := fun _ _ _ => ⟨rfl, rfl, rfl⟩ }
      rows := nodup_nil
      row_le := nofun
      tokens := nodup_nil
      token_range := nofun
      ids := nodup_nil
      devices := nodup_nil
      slot_lt := nofun
      slot_inj := nofun
      total := rfl
      ok := nofun
      shows := nofun
      dead_clear := nofun
      clear := fun _ _ _ => ⟨rfl, rfl, fun _ => rfl, fun _ _ => rfl⟩
      owner_form := fun _ _ => .inl rfl
      owner_free := fun _ _ _ _ hi h =>
        absurd h.symm (hotPadOwner_ne_zero (Nat.lt_trans hi (by decide)))
      owner_iff := nofun
      gen := fun _ => rfl
      held_row := nofun
      held_inj := nofun
      agrees := nofun }

theorem wp_operation (op : Operation) (h : Settled B v) :
    (topoMachine B).wp op.body (fun _ v' => Completed B v v') v := by
  cases op with
  | upsertSession derive req =>
    rw [Operation.body, wp_bind']
    exact wp_upsertSession h (fun _ _ _ hc => hc) fun _ _ _ hu => hu.completed
  | applyController connectionId deviceId desc =>
    rw [Operation.body, wp_bind']
    exact wp_applyController h (fun _ hc => hc) fun _ _ _ _ hc _ => hc.completed
  | removeController connectionId deviceId ctrlIdx =>
    rw [Operation.body, wp_bind']
    exact wp_removeController h (fun _ hc => hc) fun _ _ _ hc => hc.completed
  | closeSessionById connectionId deviceId reason notify =>
    rw [Operation.body, wp_bind']
    exact wp_closeSessionById h
  | closeSessionsForDevice deviceId reason =>
    rw [Operation.body, wp_bind']
    exact wp_closeSessionsForDevice h
  | closeAllSessions reason => exact Machine.wp_mono (wp_closeAllSessions h) fun _ _ hc => hc.1
  | reapTimedOut =>
    rw [Operation.body, wp_bind']
    exact wp_reapTimedOut h

/-- Between two operations nothing is half done. -/
theorem History.settled (h : History B v) : Settled B v := by
  induction h with
  | init bus => exact settled_init bus
  | step op _ hrun ih => exact (Machine.wp_sound hrun (wp_operation op ih)).settled

/-! ## Convergence of a PUT -/

/-- What is settled for one steady backend is settled for another. -/
theorem Settled.of_steady {B₀ : Backend} (h : Settled B₀ v) (hB₀ : B₀.Steady) : Settled B v where
  unlocked := h.unlocked
  closed := h.closed
  sound :=
    { h.sound with
      ledger :=
        { h.sound.ledger with
          unconfirmed := fun _ => h.sound.ledger.unconfirmed hB₀
          closed := fun _ => h.sound.ledger.closed hB₀ } }

variable {supported : GamepadIdentity → Bool}

/-- A cooperating backend answers every call. -/
theorem Backend.Cooperates.total (hB : B.Cooperates supported)
    (i : TInstr) (v : Topo) : ∃ r v', Topo.step B i v r v' := by
  cases i with
  | lock | unlock | modify | store | addActivePads | beginWrite | waitOut | endWrite | sendSealed
  | postRelease => exact ⟨(), _, rfl⟩
  | cold => exact ⟨v.cold, v, rfl, rfl⟩
  | load l => exact ⟨v.mem l, v, fun _ => rfl, rfl⟩
  | now => exact ⟨0, v, rfl⟩
  | random => exact ⟨1, v, ⟨by decide, by decide⟩, rfl⟩
  | isBusOpen => exact ⟨v.bus, v, (hB.isBusOpen _ _).2 rfl, rfl⟩
  | supportsIdentity g => exact ⟨supported g, v, (hB.supportsIdentity _ _).2 rfl, rfl⟩
  | supportsRelativeMouse | supportsMotionForType | motionBackendOk => exact ⟨false, v, rfl⟩
  | backendIdForSerial => exact ⟨"", v, rfl⟩
  | seededRumble => exact ⟨none, v, rfl⟩
  | ensureBusOpen => exact ⟨true, _, true, (hB.ensureBusOpen _ _ _).2 ⟨rfl, rfl⟩, rfl⟩
  | closeBus =>
    obtain ⟨bus, hbus⟩ := hB.closeBus v.bus
    exact ⟨(), _, bus, hbus, rfl⟩
  | pluginDevicePreferring s g preferred =>
    exact ⟨true, _, (hB.pluginDevice _ _ _ _).2 rfl, rfl⟩
  | unplugDevice s => exact ⟨true, _, (hB.unplugDevice _ _).2 rfl, rfl⟩

/-- The active controllers of the other devices' sessions. -/
def othersActive (c : Cold) (deviceId : String) : Int :=
  ((c.connections.filter fun k => k.deviceId != deviceId).map Connection.activeCount).sum

/-- The sum over all records is that of one device's record and that of the others. -/
theorem sum_eq_own_add_others {f : Connection → Int} (hf : f {} = 0) {l : List Connection}
    (hnd : (l.map Connection.deviceId).Nodup) (deviceId : String) :
    (l.map f).sum = f ((l.find? fun k => k.deviceId == deviceId).getD {}) +
      ((l.filter fun k => k.deviceId != deviceId).map f).sum := by
  induction l with
  | nil => simp [hf]
  | cons k l ih =>
    obtain ⟨hk, hl⟩ := nodup_cons.1 hnd
    by_cases hdev : k.deviceId = deviceId
    · have hkeep : (l.filter fun a => a.deviceId != deviceId) = l := by
        apply filter_eq_self.2
        intro a ha
        have hne : a.deviceId ≠ deviceId := by
          intro heq
          exact hk (mem_map.2 ⟨a, ha, heq.trans hdev.symm⟩)
        simpa using hne
      simp [hdev, hkeep]
    · have hfind : ((k :: l).find? fun a => a.deviceId == deviceId) =
          l.find? fun a => a.deviceId == deviceId := find?_cons_of_neg (by simpa using hdev)
      have hfilter : ((k :: l).filter fun a => a.deviceId != deviceId) =
          k :: l.filter fun a => a.deviceId != deviceId := filter_cons_of_pos (by simpa using hdev)
      rw [hfind, hfilter, map_cons, sum_cons, map_cons, sum_cons, ih hl]
      omega

/-- Counting the other sessions by their records or by what is left of the total. -/
theorem Sound.fits_iff {carried : Carried} (h : Sound B v carried none [])
    {req : UpsertRequest} : Fits supported v req ↔
      (ctrlIndices.countP (wanted supported req.descriptors) : Int) +
        ctrlIndices.countP (kept supported req.descriptors (ownRecord v req)) +
        othersActive v.cold req.deviceId + v.cold.quarantinedCount ≤ 16 := by
  have htotal : v.cold.activeTotal = (v.cold.connections.map Connection.activeCount).sum := by
    rw [Cold.activeTotal]
    congr 1
    exact map_congr_left fun k hk => (h.ok k hk (by simp)).count
  have hsum := sum_eq_own_add_others (f := Connection.activeCount) rfl h.devices req.deviceId
  have hothers : v.cold.activeTotal - (ownRecord v req).activeCount =
      othersActive v.cold req.deviceId := by
    rw [htotal, hsum, ownRecord, othersActive, Cold.findByDeviceId]
    omega
  rw [Fits, hothers]

/-- A session has exactly the pads its PUT asked for, and the response says so. -/
structure PutConverged (supported : GamepadIdentity → Bool) (v : Topo) (req : UpsertRequest)
    (result : SessionUpsertResult) (k' : Connection) : Prop where
  active : ∀ i < 16, (k'.controllers i).active = true ↔
    wanted supported req.descriptors i = true ∨
      kept supported req.descriptors (ownRecord v req) i = true
  taken : ∀ i d, lastDescriptor req.descriptors i = some d → Valid supported d →
    (k'.controllers i).Takes d
  unchanged : ∀ i < 16, kept supported req.descriptors (ownRecord v req) i = true →
    k'.controllers i = { (ownRecord v req).controllers i with
      pointerStamp := (k'.controllers i).pointerStamp }
  reports : ∀ i d, lastDescriptor req.descriptors i = some d →
    ∃ out ∈ result.controllers, out.ctrlIdx = i
  ok : ∀ out ∈ result.controllers, ∀ d, lastDescriptor req.descriptors out.ctrlIdx = some d →
    Valid supported d → out.result = .ok

theorem SessionService.Upserted.putConverged
    {req : UpsertRequest} {result : SessionUpsertResult} {k' : Connection}
    (h : Upserted B v v' req result k') (hB : B.Cooperates supported)
    (hfits : Fits supported v req) : PutConverged supported v req result k' := by
  obtain ⟨⟨k₀, hpads, hconv⟩, hok⟩ := h.converges supported hB hfits
  have hkept : ∀ i, kept supported req.descriptors (ownRecord v req) i = true →
      (k₀.controllers i).active = true ∧
        ∃ d, lastDescriptor req.descriptors i = some d ∧ ¬ Valid supported d := by
    intro i hi
    obtain ⟨hact, hlast⟩ := Bool.and_eq_true_iff.1 hi
    obtain ⟨d, hd, hv⟩ := (Option.any_eq_true ..).1 hlast
    rw [hpads i]
    exact ⟨hact, d, hd, by simpa using hv⟩
  refine ⟨?_, hconv.valid, ?_, ?_, hok⟩
  · intro i hi
    cases hlast : lastDescriptor req.descriptors i with
    | none => simp [wanted, kept, hlast, hconv.rest i hi hlast]
    | some d =>
      by_cases hv : Valid supported d
      · simp [wanted, hlast, hv, (hconv.valid i d hlast hv).active]
      · rw [hconv.invalid i hi d hlast hv, hpads i]
        simp [wanted, kept, hlast, hv]
  · intro i hi hk
    obtain ⟨-, d, hlast, hv⟩ := hkept i hk
    have hsame := hconv.invalid i hi d hlast hv
    rw [hsame]
    exact hpads i
  · intro i d hlast
    have hmem : i ∈ (dedupDescriptors req.descriptors).map (·.ctrlIdx) := by
      refine mem_map.2 ⟨d, ?_, lastDescriptor_idx hlast⟩
      rw [(dedupDescriptors_spec req.descriptors).2, lastDescriptor_idx hlast]
      exact hlast
    rw [← h.listed] at hmem
    exact mem_map.1 hmem

/-- A PUT with a slot to use completes, and whenever it does it has its response. -/
theorem put_completes (hB : B.Cooperates supported)
    (h : Settled B v) (derive : Key → Salt → Nat → Key) (req : UpsertRequest)
    (hslot : (∃ k ∈ v.cold.connections, k.deviceId = req.deviceId) ∨ ∃ slot, SlotFree v slot) :
    (∃ r v', (topoMachine B).Exec (upsertSession derive req) v r v') ∧
      ∀ r v', (topoMachine B).Exec (upsertSession derive req) v r v' →
        ∃ result k', r = some result ∧ Upserted B v v' req result k' := by
  have hwp : (topoMachine B).wp (upsertSession derive req) (fun r v' =>
      ∃ result k', r = some result ∧ Upserted B v v' req result k') v := by
    refine wp_upsertSession h ?_ fun v' result k' hu => ⟨result, k', rfl, hu⟩
    intro v' hdev hnone
    rcases hslot with ⟨k, hk, heq⟩ | ⟨slot, hfree⟩
    · exact absurd heq (hdev k hk)
    · exact absurd hfree (hnone slot)
  exact ⟨Machine.wp_exec trivial (fun i u _ => hB.total i u) hwp,
    fun r v' hrun => Machine.wp_sound hrun hwp⟩

/-- A backend that does what it is asked. -/
def obliging : Backend where
  isBusOpen bus answer := answer = bus
  ensureBusOpen _ answer bus' := answer = true ∧ bus' = true
  closeBus _ bus' := bus' = false
  pluginDevice _ _ _ answer := answer = true
  unplugDevice _ answer := answer = true
  supportsIdentity _ answer := answer = true

theorem obliging_cooperates : obliging.Cooperates fun _ => true where
  isBusOpen _ _ := Iff.rfl
  ensureBusOpen _ _ _ := Iff.rfl
  closeBus _ := ⟨false, rfl⟩
  pluginDevice _ _ _ _ := Iff.rfl
  unplugDevice _ _ := Iff.rfl
  supportsIdentity _ _ := Iff.rfl

/-- A PUT for as many pads as there are serials. -/
def sixteenPads : UpsertRequest where
  deviceId := "device"
  pairingKey := fun _ => 1
  descriptors := ctrlIndices.map fun i => { ctrlIdx := i }
  requestMouseControl := false
  protocolVersion := 1

/-- A PUT that fits its slot and the pool completes, and the session converges to it. -/
theorem put_converges {B₀ : Backend} {supported : GamepadIdentity → Bool} (hB₀ : B₀.Steady)
    (hB : B.Cooperates supported) (h : History B₀ v) (derive : Key → Salt → Nat → Key)
    (req : UpsertRequest)
    (hslot : (∃ k ∈ v.cold.connections, k.deviceId = req.deviceId) ∨ ∃ slot, SlotFree v slot)
    (hcap : (ctrlIndices.countP (wanted supported req.descriptors) : Int) +
      ctrlIndices.countP (kept supported req.descriptors (ownRecord v req)) +
      othersActive v.cold req.deviceId + v.cold.quarantinedCount ≤ 16) :
    (∃ r v', (topoMachine B).Exec (upsertSession derive req) v r v') ∧
      ∀ r v', (topoMachine B).Exec (upsertSession derive req) v r v' →
        ∃ result k', r = some result ∧ k' ∈ v'.cold.connections ∧ k'.deviceId = req.deviceId ∧
          PutConverged supported v req result k' := by
  have hsettled : Settled B v := h.settled.of_steady hB₀
  obtain ⟨hexec, hall⟩ := put_completes hB hsettled derive req hslot
  refine ⟨hexec, fun r v' hrun => ?_⟩
  obtain ⟨result, k', hr, hu⟩ := hall r v' hrun
  exact ⟨result, k', hr, hu.mem, hu.device,
    hu.putConverged hB (hsettled.sound.fits_iff.2 hcap)⟩

/-- A history after which every serial is taken. -/
theorem exists_sixteen_pads : ∃ v, History obliging v ∧
    ∃ k ∈ v.cold.connections, k.deviceId = "device" ∧ ∀ i < 16, (k.controllers i).active = true := by
  have hfits : Fits (fun _ => true) ({} : Topo) sixteenPads := by
    rw [Fits]
    decide
  have hwanted : ∀ i ∈ ctrlIndices, wanted (fun _ => true) sixteenPads.descriptors i = true := by
    decide
  obtain ⟨⟨r, v', hrun⟩, hall⟩ := put_completes obliging_cooperates (settled_init false)
    (fun key _ _ => key) sixteenPads (.inr ⟨0, by decide, nofun⟩)
  obtain ⟨result, k', -, hu⟩ := hall r v' hrun
  have hconv := hu.putConverged obliging_cooperates hfits
  refine ⟨v', .step (.upsertSession (fun key _ _ => key) sixteenPads) (.init false)
    (hrun.bind (.ret () v')), k', hu.mem, hu.device, fun i hi => ?_⟩
  exact (hconv.active i hi).2 (.inl (hwanted i (mem_ctrlIndices.2 hi)))

/-- One pad of another type, and no other: with every serial taken it is swapped in place. -/
def onePad : UpsertRequest := { sixteenPads with descriptors := [{ ctrlIdx := 0, type := 1 }] }

theorem ownRecord_eq {req : UpsertRequest} {k : Connection}
    (hnd : (v.cold.connections.map Connection.deviceId).Nodup) (hk : k ∈ v.cold.connections)
    (hdevice : k.deviceId = req.deviceId) : ownRecord v req = k := by
  unfold ownRecord Cold.findByDeviceId
  cases hfind : v.cold.connections.find? fun k => k.deviceId == req.deviceId with
  | none => exact absurd (find?_eq_none.1 hfind k hk) (by simp [hdevice])
  | some k' =>
    have hown : k'.deviceId = req.deviceId := by simpa using find?_some hfind
    exact inj_on_of_nodup_map hnd (mem_of_find?_eq_some hfind) hk (hown.trans hdevice.symm)

/-- A PUT that swaps one of sixteen pads and unplugs the others. -/
theorem put_converges_sixteen : ∃ v, History obliging v ∧
    (∃ k ∈ v.cold.connections, ∀ i < 16, (k.controllers i).active = true) ∧
    ∃ r v', (topoMachine obliging).Exec (upsertSession (fun key _ _ => key) onePad) v r v' ∧
      ∃ result k', r = some result ∧ k' ∈ v'.cold.connections ∧ k'.deviceId = "device" ∧
        PutConverged (fun _ => true) v onePad result k' := by
  obtain ⟨v, hv, k, hk, hdevice, hactive⟩ := exists_sixteen_pads
  have hsound := hv.settled.sound
  have hfits : Fits (fun _ => true) v onePad := by
    have hown : 0 < (ownRecord v onePad).activeCount := by
      rw [ownRecord_eq hsound.devices hk hdevice]
      have hpos : 0 < ctrlIndices.countP fun i => (k.controllers i).active :=
        countP_pos_iff.2 ⟨0, by decide, hactive 0 (by decide)⟩
      exact Int.natCast_pos.2 hpos
    have hkept : ctrlIndices.countP
        (kept (fun _ => true) onePad.descriptors (ownRecord v onePad)) = 0 := by
      refine countP_eq_zero.2 fun i hi => ?_
      have hnone : ∀ i ∈ ctrlIndices, ((lastDescriptor onePad.descriptors i).any fun d =>
          !decide (Valid (fun _ => true) d)) = false := by decide
      simp [kept, hnone i hi]
    have hwanted : ctrlIndices.countP (wanted (fun _ => true) onePad.descriptors) = 1 := by decide
    have htotal := hsound.total_le
    rw [Fits, hkept, hwanted]
    simp only [length_nil] at htotal
    omega
  obtain ⟨⟨r, v', hrun⟩, hall⟩ := put_converges obliging_cooperates.steady obliging_cooperates
    hv (fun key _ _ => key) onePad (.inl ⟨k, hk, hdevice⟩) (hsound.fits_iff.1 hfits)
  exact ⟨v, hv, ⟨k, hk, hactive⟩, r, v', hrun, hall r v' hrun⟩

end Satellite
