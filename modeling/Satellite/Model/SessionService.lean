import Satellite.Model.Topology

/-!
# The topology operations of `SessionService`

The functions of `core/session_service.cpp` that change which pads exist, as
programs over the instructions of `Satellite.Model.Topology`. A helper that the
source marks as called with `mtx_` held is a program without `lock`; references to
a `Connection` are its row. The operations themselves are at the end.
-/

namespace Satellite.SessionService

open Prog (forEach mapEach firstOf foldEach loop)

/-! ## Instructions -/

def issue (i : TInstr) : TProg i.Res := Prog.call i

def lock : TProg Unit := issue .lock
def unlock : TProg Unit := issue .unlock
def cold : TProg Cold := issue .cold
def modify (f : Cold → Cold) : TProg Unit := issue (.modify f)
def load (l : Loc) : TProg Nat := issue (.load l)
def store (l : Loc) (w : Nat) : TProg Unit := issue (.store l w)
def addActivePads (delta : Int) : TProg Unit := issue (.addActivePads delta)
def beginWrite (slot : Nat) : TProg Unit := issue (.beginWrite slot)
def waitOut (participant : Nat) : TProg Unit := issue (.waitOut participant)
def endWrite (slot : Nat) : TProg Unit := issue (.endWrite slot)
def random : TProg Nat := issue .random
def now : TProg Nat := issue .now
def isBusOpen : TProg Bool := issue .isBusOpen
def supportsIdentity (g : GamepadIdentity) : TProg Bool := issue (.supportsIdentity g)
def supportsRelativeMouse : TProg Bool := issue .supportsRelativeMouse
def supportsMotionForType (type : Nat) : TProg Bool := issue (.supportsMotionForType type)
def motionBackendOk (serial : Nat) : TProg Bool := issue (.motionBackendOk serial)
def backendIdForSerial (serial : Nat) : TProg String := issue (.backendIdForSerial serial)
def ensureBusOpen : TProg Bool := issue .ensureBusOpen
def closeBus : TProg Unit := issue .closeBus
def unplugDevice (serial : Nat) : TProg Bool := issue (.unplugDevice serial)
def seededRumble (slot i : Nat) : TProg (Option RumbleReport) := issue (.seededRumble slot i)
def postRelease (serial stamp : Nat) : TProg Unit := issue (.postRelease serial stamp)

def pluginDevicePreferring (serial : Nat) (g : GamepadIdentity) (preferred : String) : TProg Bool :=
  issue (.pluginDevicePreferring serial g preferred)

def sendSealed (token : Nat) (key : Key) (slot : Nat) (inner : List UInt8) : TProg Unit :=
  issue (.sendSealed token key slot inner)

/-- Read through a `Connection*`. -/
def conn (row : Nat) : TProg Connection := do
  let c ← cold
  pure (c.conn row)

/-- A scope that holds `mtx_`. -/
def locked {α : Type} (body : TProg α) : TProg α := do
  lock
  let a ← body
  unlock
  pure a

/-! ## Messages to a client -/

/-- Big-endian bytes of a 16-bit value. -/
def be16 (n : Nat) : List UInt8 := [UInt8.ofNat (n / 256), UInt8.ofNat n]

def msgRumble : Nat := 0x0009
def msgSessionClose : Nat := 0x000F
def rumbleWireDurationMs : UInt16 := 500

/-- Why a session is closed. -/
inductive CloseReason
  | shutdown
  | kicked
  | replaced
  | unpaired
  deriving DecidableEq

def CloseReason.code : CloseReason → UInt8
  | .shutdown => 0
  | .kicked => 1
  | .replaced => 2
  | .unpaired => 3

/-- `ClientAdapter::sendEncryptedPacket`. -/
def sendEncryptedPacket (k : Connection) (inner : List UInt8) : TProg Unit :=
  sendSealed k.token k.sessionKey k.slot inner

def sendSessionClose (k : Connection) (reason : CloseReason) : TProg Unit :=
  sendEncryptedPacket k (be16 msgSessionClose ++ be16 1 ++ [reason.code])

def sendRumble (k : Connection) (ctrlIdx : Nat) (report : RumbleReport) : TProg Unit :=
  sendEncryptedPacket k (be16 msgRumble ++ be16 7 ++ [UInt8.ofNat ctrlIdx] ++
    be16 report.strongMagnitude.toNat ++ be16 report.weakMagnitude.toNat ++
    be16 report.durationMs.toNat)

/-! ## Publication -/

def publishControllers (row : Nat) : TProg Unit := do
  let k ← conn row
  forEach serials fun serial => do
    let owner ← load (.padOwner serial)
    if owner = 0 ∨ hotOwnerSlot owner ≠ k.slot then pure ()
    else
      let ctrl := k.controllers (hotOwnerIndex owner)
      if ctrl.active = false ∨ ctrl.serialNo ≠ serial then store (.padOwner serial) 0 else pure ()
  forEach ctrlIndices fun i =>
    let ctrl := k.controllers i
    if ctrl.active = false ∨ ctrl.serialNo = 0 ∨ ctrl.serialNo > maxBackendControllers then pure ()
    else store (.padOwner ctrl.serialNo) (hotPadOwner k.slot i)
  forEach ctrlIndices fun i => do
    let ctrl := k.controllers i
    store (.ctrl k.slot i) ctrl.ctrlWord
    store (.padInfo k.slot i) ctrl.padInfoWord
    store (.padGen k.slot i) ctrl.padGenWord
    store (.padStamp k.slot i) ctrl.padStampWord
  store (.session k.slot) k.sessionWord

def wordIs (l : Loc) (w : Nat) : TProg Bool := do
  let seen ← load l
  pure (seen == w)

def controllersPublished (row : Nat) : TProg Bool := do
  let k ← conn row
  let differs ← firstOf ctrlIndices fun i => do
    let ctrl := k.controllers i
    firstOf [(Loc.ctrl k.slot i, ctrl.ctrlWord), (Loc.padInfo k.slot i, ctrl.padInfoWord),
        (Loc.padGen k.slot i, ctrl.padGenWord), (Loc.padStamp k.slot i, ctrl.padStampWord)]
      fun (l, w) => do
        let same ← wordIs l w
        pure (if same then none else some ())
  match differs with
  | some () => pure false
  | none => wordIs (.session k.slot) k.sessionWord

def waitQuiescent : TProg Unit :=
  forEach (List.range rxParticipants) fun p => waitOut p

/-- `ConnectionWrite`: open the slot, run `body`, publish the controllers, close the slot. -/
def connectionWrite (row : Nat) (body : TProg Unit) : TProg Unit := do
  let k ← conn row
  beginWrite k.slot
  waitQuiescent
  body
  publishControllers row
  endWrite k.slot

def storeKey (slot : Nat) (key : Key) : TProg Unit :=
  forEach (List.finRange 4) fun w => store (.key slot w) (key w)

def sendSeededRumbleLocked (row : Nat) : TProg Unit := do
  let k ← conn row
  forEach ctrlIndices fun i => do
    if (k.controllers i).active then
      let report ← seededRumble k.slot i
      match report with
      | some r => sendRumble k (k.controllers i).index { r with durationMs := rumbleWireDurationMs }
      | none => pure ()
    else pure ()

def publishControllersLocked (row : Nat) : TProg Unit := do
  let same ← controllersPublished row
  if same then pure ()
  else do
    connectionWrite row (pure ())
    sendSeededRumbleLocked row

def publishSessionKeyLocked (row : Nat) (now : Nat) : TProg Unit := do
  let k ← conn row
  store (.token k.slot) k.token
  let keyEpoch ← load (.keyEpoch k.slot)
  store (.keyEpoch k.slot) ((keyEpoch + 1) % 2 ^ 32)
  storeKey k.slot k.sessionKey
  store (.txCounter k.slot) 0
  store (.clientAddr k.slot) 0
  store (.feedbackPending k.slot) 0
  store (.lastPacketTicks k.slot) now
  store (.row k.slot) (k.row % 2 ^ 32)

def publishSessionLocked (row : Nat) (now : Nat) : TProg Unit := do
  connectionWrite row (publishSessionKeyLocked row now)
  let k ← conn row
  store (.packed k.slot) k.token
  sendSeededRumbleLocked row

/-! ## The serial pool -/

/-- The serial taken, or 0 when none is free. -/
def allocateSerial : TProg Nat := do
  let c ← cold
  match c.freeSerial with
  | none => pure 0
  | some s => do
    store (.hidMotors s) 0
    modify fun c => c.takeSerial s
    pure s

def releaseSerial (s : Nat) : TProg Unit :=
  if Cold.serialInRange s then do
    store (.hidMotors s) 0
    modify fun c => c.dropSerial s
  else pure ()

def quarantineSerial (s : Nat) : TProg Unit :=
  if Cold.serialInRange s then do
    store (.hidMotors s) 0
    modify fun c => c.quarantine s
  else pure ()

def claimSerialLocked (s : Nat) : TProg Bool :=
  if Cold.serialInRange s then do
    let c ← cold
    if c.serialInUse s || c.serialQuarantined s then pure false
    else do
      store (.hidMotors s) 0
      modify fun c => c.claim s
      pure true
  else pure false

/-- A serial that no pad holds any more, and whether its device is known to be gone. -/
structure RetiredSerial where
  serial : Nat
  unplugged : Bool := false
  deriving DecidableEq

def adjustActivePadsLocked (row : Nat) (delta : Int) : TProg Unit := do
  modify fun c => c.adjustActiveCount row delta
  addActivePads delta

/-- A new stamp for the controller's pointer, posted to the pointer worker. -/
def releasePointerLocked (row i : Nat) : TProg Unit := do
  let k ← conn row
  let serial := (k.controllers i).serialNo
  if serial = 0 ∨ serial > maxBackendControllers then pure ()
  else do
    modify fun c => c.stampPad row i
    let k ← conn row
    postRelease serial (k.controllers i).pointerStamp

def releaseConnectionPointerLocked (row : Nat) : TProg Unit :=
  forEach ctrlIndices fun i => do
    let k ← conn row
    if (k.controllers i).active then releasePointerLocked row i else pure ()

def retireConnectionLocked (row : Nat) (retired : List RetiredSerial) :
    TProg (List RetiredSerial) := do
  let retired ← foldEach ctrlIndices retired fun retired i => do
    let k ← conn row
    let ctrl := k.controllers i
    if ctrl.active = true ∧ ctrl.serialNo ≠ 0 then do
      releasePointerLocked row i
      modify fun c => c.clearPad row i
      pure (retired ++ [{ serial := ctrl.serialNo }])
    else pure retired
  let k ← conn row
  adjustActivePadsLocked row (-k.activeControllerCount)
  store (.packed k.slot) 0
  connectionWrite row do
    store (.token k.slot) 0
    storeKey k.slot fun _ => 0
  pure retired

def unplugRetired (retired : List RetiredSerial) : TProg (List RetiredSerial) :=
  mapEach retired fun r => do
    let unplugged ← unplugDevice r.serial
    pure { r with unplugged := unplugged }

def settleRetiredLocked (retired : List RetiredSerial) : TProg Unit :=
  forEach retired fun r =>
    if r.unplugged then releaseSerial r.serial else quarantineSerial r.serial

def countGlobalActiveControllers (c : Cold) : Int :=
  (c.connections.map Connection.activeControllerCount).sum

def busIdleLocked : TProg Bool := do
  let opened ← isBusOpen
  let c ← cold
  pure (opened && countGlobalActiveControllers c == 0)

def closeBusIfIdle (idle : Bool) : TProg Unit :=
  if idle then do
    closeBus
    locked (modify Cold.clearQuarantine)
  else pure ()

def finishTeardown (retired : List RetiredSerial) : TProg Unit := do
  let retired ← unplugRetired retired
  let idle ← locked do
    settleRetiredLocked retired
    busIdleLocked
  closeBusIfIdle idle

/-! ## Planning a change -/

/-- What a change does at one controller index. -/
inductive PadKind
  | refuse
  | update
  | add
  | replug
  | replugInPlace
  | remove
  deriving DecidableEq

/-- One pad of a change, with what the rounds learn about it. -/
structure PadChange where
  kind : PadKind := .refuse
  desc : ControllerDescriptor := {}
  result : ApplyResult := .ok
  appliedType : Nat := 0
  serial : Nat := 0
  retiring : Nat := 0
  waits : Bool := false
  busDown : Bool := false
  plugged : Bool := false
  deriving DecidableEq

structure TopologyChange where
  pads : List PadChange := []
  retired : List RetiredSerial := []
  busReopened : Bool := false
  deriving DecidableEq

/-- Whether a wire type is known and the backend offers its identity. -/
def typeSupported (type : Nat) : TProg Bool :=
  if type ≥ controllerTypeCount then pure false else supportsIdentity (controllerIdentity type)

def planPadLocked (k : Connection) (desc : ControllerDescriptor) : TProg PadChange :=
  if desc.ctrlIdx ≥ maxControllersPerConn then
    pure { desc := desc, result := .invalidIndex }
  else do
    let ctrl := k.controllers desc.ctrlIdx
    let supported ← typeSupported desc.type
    if supported = false then
      pure { desc := desc, result := .invalidType
             appliedType := if ctrl.active then ctrl.controllerType else 0 }
    else if ctrl.active = false then do
      let serial ← allocateSerial
      pure { kind := .add, desc := desc, appliedType := desc.type, serial := serial }
    else if controllerIdentity desc.type = ctrl.identity then
      pure { kind := .update, desc := desc, appliedType := desc.type }
    else do
      let opened ← isBusOpen
      if opened = false then
        pure { kind := .replug, desc := desc, appliedType := desc.type }
      else do
        let serial ← allocateSerial
        if serial ≠ 0 then
          pure { kind := .replug, desc := desc, appliedType := desc.type, serial := serial }
        else
          pure { kind := .replugInPlace, desc := desc, appliedType := desc.type
                 retiring := ctrl.serialNo, waits := true }

def planRemoval (ctrlIdx : Nat) : PadChange :=
  { kind := .remove, desc := { ctrlIdx := ctrlIdx } }

/-- Whether committing the pad frees a serial. -/
def PadChange.retires (pad : PadChange) : Bool :=
  (pad.kind == .replug && pad.serial != 0) || pad.kind == .replugInPlace || pad.kind == .remove

/-- Adds without a serial wait for the second round if the first one frees any. -/
def deferUnservedAdds (pads : List PadChange) : List PadChange :=
  pads.map fun pad =>
    if pad.kind = .add ∧ pad.serial = 0 then { pad with waits := pads.any PadChange.retires }
    else pad

/-- Put a descriptor in the place of the one with its index, or at the end. -/
def replaceDescriptor (d : ControllerDescriptor) :
    List ControllerDescriptor → List ControllerDescriptor
  | [] => [d]
  | e :: es => if e.ctrlIdx = d.ctrlIdx then d :: es else e :: replaceDescriptor d es

def dedupDescriptors (descriptors : List ControllerDescriptor) : List ControllerDescriptor :=
  descriptors.foldl (fun deduped d => replaceDescriptor d deduped) []

def planSessionPadsLocked (k : Connection) (desired : List ControllerDescriptor) :
    TProg TopologyChange := do
  let dropped := ctrlIndices.filter fun i =>
    (k.controllers i).active && !(desired.any fun d => d.ctrlIdx == i)
  let planned ← mapEach desired (planPadLocked k)
  pure { pads := deferUnservedAdds (dropped.map planRemoval ++ planned) }

/-! ## Plugging and committing -/

def plugsInRound (pad : PadChange) (secondRound : Bool) : Bool :=
  (pad.kind == .add || pad.kind == .replug || pad.kind == .replugInPlace) &&
    pad.serial != 0 && pad.waits == secondRound

/-- Whether a closed bus was opened. -/
def reopenBus : TProg Bool := do
  let opened ← isBusOpen
  if opened then pure false else ensureBusOpen

/-- A device for a pad that needs one in this round. -/
def plugPad (secondRound busOpen : Bool) (pad : PadChange) : TProg PadChange :=
  if plugsInRound pad secondRound then
    if busOpen then do
      let plugged ← pluginDevicePreferring pad.serial
        (controllerIdentity pad.desc.type) pad.desc.preferredBackend
      pure { pad with busDown := false, plugged := plugged }
    else pure { pad with busDown := true }
  else pure pad

def plugPads (change : TopologyChange) (secondRound : Bool) : TProg TopologyChange :=
  if change.pads.any (plugsInRound · secondRound) then do
    let reopened ← reopenBus
    let busOpen ← isBusOpen
    let pads ← mapEach change.pads (plugPad secondRound busOpen)
    pure { change with pads := pads, busReopened := change.busReopened || reopened }
  else pure change

def vacatePadLocked (row i : Nat) (retired : List RetiredSerial) :
    TProg (List RetiredSerial) := do
  let k ← conn row
  let serial := (k.controllers i).serialNo
  let retired ←
    if serial ≠ 0 then do
      releasePointerLocked row i
      pure (retired ++ [{ serial := serial }])
    else pure retired
  modify fun c => c.clearPad row i
  adjustActivePadsLocked row (-1)
  modify fun c => c.bumpEpoch row
  pure retired

def updatePadLocked (row : Nat) (desc : ControllerDescriptor) : TProg Unit := do
  let k ← conn row
  if safeTouchpadMode desc.touchpadMode ≠ (k.controllers desc.ctrlIdx).touchpadMode then
    releasePointerLocked row desc.ctrlIdx
  else pure ()
  modify fun c => c.setPad row desc.ctrlIdx fun p => p.update desc

/-- The motor level read here seeds the rumble state, which is not modelled. -/
def seedRumbleLocked (row i : Nat) : TProg Unit := do
  let k ← conn row
  let _ ← load (.hidMotors (k.controllers i).serialNo)

def bindPadLocked (row : Nat) (pad : PadChange) : TProg Unit := do
  modify fun c => c.setPad row pad.desc.ctrlIdx fun p =>
    { p with index := pad.desc.ctrlIdx, serialNo := pad.serial, active := true }
  modify fun c => c.takeDescriptor row pad.desc.ctrlIdx pad.desc
  seedRumbleLocked row pad.desc.ctrlIdx
  adjustActivePadsLocked row 1
  modify fun c => c.bumpEpoch row

def addPadLocked (row : Nat) (pad : PadChange) : TProg PadChange :=
  if pad.plugged then do
    bindPadLocked row pad
    pure pad
  else do
    releaseSerial pad.serial
    pure { pad with result :=
      if pad.serial = 0 then .noSlots else if pad.busDown then .backendUnavail else .pluginFail }

def replugPadLocked (row : Nat) (pad : PadChange) (retired : List RetiredSerial) :
    TProg (PadChange × List RetiredSerial) := do
  modify fun c => c.bumpEpoch row
  let k ← conn row
  let ctrl := k.controllers pad.desc.ctrlIdx
  if pad.plugged = false then do
    if pad.serial = 0 then pure () else releaseSerial pad.serial
    pure ({ pad with result := .replugFail, appliedType := ctrl.controllerType }, retired)
  else do
    releasePointerLocked row pad.desc.ctrlIdx
    modify fun c => c.setPad row pad.desc.ctrlIdx fun p => { p with serialNo := pad.serial }
    modify fun c => c.takeDescriptor row pad.desc.ctrlIdx pad.desc
    seedRumbleLocked row pad.desc.ctrlIdx
    pure (pad, retired ++ [{ serial := ctrl.serialNo }])

def refitPadLocked (row : Nat) (pad : PadChange) : TProg PadChange :=
  if pad.plugged then do
    bindPadLocked row pad
    pure pad
  else do
    releaseSerial pad.serial
    pure { pad with result := .pluginFail }

def commitPadLocked (row : Nat) (pad : PadChange) (retired : List RetiredSerial)
    (secondRound : Bool) : TProg (PadChange × List RetiredSerial) :=
  match pad.kind with
  | .refuse => pure (pad, retired)
  | .update => do
    updatePadLocked row pad.desc
    pure (pad, retired)
  | .remove => do
    let retired ← vacatePadLocked row pad.desc.ctrlIdx retired
    pure (pad, retired)
  | .replug => replugPadLocked row pad retired
  | .replugInPlace =>
    if secondRound then do
      let pad ← refitPadLocked row pad
      pure (pad, retired)
    else do
      let retired ← vacatePadLocked row pad.desc.ctrlIdx retired
      pure (pad, retired)
  | .add =>
    if secondRound || !pad.waits then do
      let pad ← addPadLocked row pad
      pure (pad, retired)
    else pure (pad, retired)

def commitPadsLocked (row : Nat) (change : TopologyChange) (secondRound : Bool) :
    TProg TopologyChange := do
  if change.busReopened then modify Cold.clearQuarantine else pure ()
  let (pads, retired) ← foldEach change.pads ([], change.retired) fun (pads, retired) pad =>
    if secondRound && !pad.waits then pure (pads ++ [pad], retired)
    else do
      let (pad, retired) ← commitPadLocked row pad retired secondRound
      pure (pads ++ [pad], retired)
  pure { pads := pads, retired := retired, busReopened := false }

/-- The serial itself if it is free again, or another one. -/
def claimOrAllocate (serial : Nat) : TProg Nat := do
  let claimed ← claimSerialLocked serial
  if claimed then pure serial else allocateSerial

/-- Serials for the pads of the second round, if there are any. -/
def allocateWaitingLocked (change : TopologyChange) : TProg (TopologyChange × Bool) := do
  let pads ← mapEach change.pads fun pad =>
    if pad.kind = .replugInPlace then do
      let serial ← claimOrAllocate pad.retiring
      pure { pad with serial := serial }
    else pure pad
  let pads ← mapEach pads fun pad =>
    if pad.kind = .add ∧ pad.waits = true then do
      let serial ← allocateSerial
      pure { pad with serial := serial }
    else pure pad
  pure ({ change with pads := pads },
    change.pads.any fun pad => pad.kind == .replugInPlace || (pad.kind == .add && pad.waits))

def settlePadChange (row : Nat) (change : TopologyChange) : TProg TopologyChange := do
  let retired ← unplugRetired change.retired
  let (change, waiting) ← locked do
    settleRetiredLocked retired
    allocateWaitingLocked { change with retired := [] }
  if waiting then do
    let change ← plugPads change true
    locked do
      let change ← commitPadsLocked row change true
      publishControllersLocked row
      pure change
  else pure change

def convergePads (row : Nat) (change : TopologyChange) : TProg TopologyChange := do
  let change ← plugPads change false
  let change ← locked do
    let change ← commitPadsLocked row change false
    publishControllersLocked row
    pure change
  settlePadChange row change

/-! ## Results -/

/-- The outcome at one controller index in a response. -/
structure ControllerApplyResult where
  ctrlIdx : Nat := 0
  result : ApplyResult := .ok
  appliedType : Nat := 0
  motionSinkSupportedForType : Bool := false
  motionBackendOk : Bool := false
  backendId : String := ""
  deriving DecidableEq

def applyResultLocked (k : Connection) (pad : PadChange) : TProg ControllerApplyResult :=
  let out : ControllerApplyResult :=
    { ctrlIdx := pad.desc.ctrlIdx, result := pad.result, appliedType := pad.appliedType }
  let ctrl := k.controllers pad.desc.ctrlIdx
  if pad.desc.ctrlIdx < maxControllersPerConn ∧ ctrl.active = true then do
    let sink ← supportsMotionForType ctrl.controllerType
    let motionOk ← motionBackendOk ctrl.serialNo
    let backendId ← backendIdForSerial ctrl.serialNo
    pure { out with
      motionSinkSupportedForType := sink, motionBackendOk := motionOk, backendId := backendId }
  else pure out

/-- The body of a session PUT response. -/
structure SessionUpsertResult where
  connectionId : String
  token : Nat
  sessionSalt : Salt
  epoch : Nat
  maxControllers : Nat
  protocolVersion : Nat
  mouseControlGranted : Bool
  mouseControlDenied : Bool
  controllers : List ControllerApplyResult

/-! ## Minting a session -/

/-- A record that is not in the map yet and the key material of the session. -/
structure SessionMint where
  row : Connection := {}
  token : Nat := 0
  salt : Salt := (0, 0)
  key : Key := fun _ => 0

/-- The first slot whose packed token is 0 and that is not being written. -/
def findFree : TProg (Option Nat) :=
  firstOf (List.range maxSessions) fun i => do
    let token ← load (.packed i)
    if token = 0 then do
      let gen ← load (.gen i)
      pure (if gen % 2 = 0 then some i else none)
    else pure none

def hexDigits : List Char := "0123456789abcdef".toList

/-- Eight lower-case hexadecimal digits, most significant first. -/
def hexEncodeBE32 (n : Nat) : String :=
  String.ofList ((List.range 8).reverse.map fun d => hexDigits.getD (n / 16 ^ d % 16) '0')

def generateUniqueToken : TProg Nat :=
  loop do
    let token ← random
    let c ← cold
    pure (if c.connections.any fun k => k.token == token then none else some token)

/-- A fresh record with a slot, or nothing when every slot is taken. -/
def reserveSessionLocked (deviceId : String) : TProg (Option Connection) := do
  let slot ← findFree
  match slot with
  | none => pure none
  | some slot => do
    let connectionId ← loop do
      let n ← random
      let c ← cold
      let id := "conn_" ++ hexEncodeBE32 n
      pure (if (c.findByConnectionId id).isSome then none else some id)
    modify fun c => { c with nextRow := c.nextRow + 1 }
    let c ← cold
    let connectedAt ← now
    pure (some { connectionId := connectionId, deviceId := deviceId, slot := slot
                 row := c.nextRow, connectedAt := connectedAt })

/-- `derive` is the injected `KeyDeriver`; without one the key is the pairing key. -/
def mintSessionKeyLocked (derive : Key → Salt → Nat → Key) (pairingKey : Key) (row : Connection) :
    TProg SessionMint := do
  let token ← generateUniqueToken
  let salt0 ← random
  let salt1 ← random
  pure { row := row, token := token, salt := (salt0, salt1)
         key := derive pairingKey (salt0, salt1) token }

/-- The row of the record that now carries the minted token. -/
def adoptSessionLocked (existing : Option Connection) (mint : SessionMint) : TProg Nat :=
  match existing with
  | none => do
    modify fun c => { c with connections := c.connections ++ [{ mint.row with token := mint.token }] }
    pure mint.row.row
  | some k => do
    sendSessionClose k .replaced
    releaseConnectionPointerLocked k.row
    modify fun c => c.setConn k.row fun k => { k with token := mint.token }
    pure k.row

/-! ## The operations -/

/-- The arguments of a session PUT. -/
structure UpsertRequest where
  deviceId : String
  pairingKey : Key
  descriptors : List ControllerDescriptor
  requestMouseControl : Bool
  protocolVersion : Nat

/-- What the first section of a PUT hands to the next ones. -/
structure UpsertPlan where
  existing : Option Connection
  mint : SessionMint
  change : TopologyChange

/-- The record to plan for: the device's own, or a new one. -/
def findOrReserveLocked (existing : Option Connection) (deviceId : String) :
    TProg (Option Connection) :=
  match existing with
  | some k => pure (some k)
  | none => reserveSessionLocked deviceId

/-- The first section of `upsertSession`. -/
def planUpsertLocked (derive : Key → Salt → Nat → Key) (req : UpsertRequest) :
    TProg (Option UpsertPlan) := do
  let c ← cold
  let existing := c.findByDeviceId req.deviceId
  let row ← findOrReserveLocked existing req.deviceId
  match row with
  | none => pure none
  | some row => do
    let mint ← mintSessionKeyLocked derive req.pairingKey row
    let change ← planSessionPadsLocked row (dedupDescriptors req.descriptors)
    pure (some { existing := existing, mint := mint, change := change })

def grantMouse (requested : Bool) : TProg Bool :=
  if requested then supportsRelativeMouse else pure false

/-- The second section of `upsertSession`: the record takes the minted key and the first round. -/
def commitUpsertLocked (req : UpsertRequest) (plan : UpsertPlan) : TProg (Nat × TopologyChange) := do
  let time ← now
  let row ← adoptSessionLocked plan.existing plan.mint
  let mouse ← grantMouse req.requestMouseControl
  modify fun c => c.setConn row fun k =>
    { k with sessionSalt := plan.mint.salt, sessionKey := plan.mint.key
             graceUntil := time + seconds restLivenessGraceSec
             protocolVersion := req.protocolVersion, mouseControlGranted := mouse }
  let change ← commitPadsLocked row plan.change false
  publishSessionLocked row time
  pure (row, change)

/-- The last section of `upsertSession`: the response, and whether the bus is idle. -/
def upsertResultLocked (req : UpsertRequest) (row : Nat) (change : TopologyChange) :
    TProg (SessionUpsertResult × Bool) := do
  let k ← conn row
  let controllers ← mapEach (change.pads.filter fun pad => pad.kind != .remove)
    (applyResultLocked k)
  let idle ← busIdleLocked
  pure ({ connectionId := k.connectionId, token := k.token, sessionSalt := k.sessionSalt
          epoch := k.epoch % 2 ^ 16, maxControllers := maxBackendControllers
          protocolVersion := k.protocolVersion, mouseControlGranted := k.mouseControlGranted
          mouseControlDenied := req.requestMouseControl && !k.mouseControlGranted
          controllers := controllers }, idle)

/-- Nothing when every session slot is taken. -/
def upsertSession (derive : Key → Salt → Nat → Key) (req : UpsertRequest) :
    TProg (Option SessionUpsertResult) := do
  let planned ← locked (planUpsertLocked derive req)
  match planned with
  | none => pure none
  | some plan => do
    let change ← plugPads plan.change false
    let (row, change) ← locked (commitUpsertLocked req { plan with change := change })
    let change ← settlePadChange row change
    let (result, idle) ← locked (upsertResultLocked req row change)
    closeBusIfIdle idle
    pure (some result)

/-- The record with this id, if the device owns it. -/
def findOwned (c : Cold) (connectionId deviceId : String) : Option Connection :=
  (c.findByConnectionId connectionId).filter fun k => k.deviceId == deviceId

/-- The outcome and the epoch, or nothing when the device owns no such session. -/
def applyController (connectionId deviceId : String) (desc : ControllerDescriptor) :
    TProg (Option (ControllerApplyResult × Nat)) := do
  let planned ← locked do
    let c ← cold
    match findOwned c connectionId deviceId with
    | none => pure none
    | some k => do
      let pad ← planPadLocked k desc
      pure (some (k.row, ({ pads := deferUnservedAdds [pad] } : TopologyChange)))
  match planned with
  | none => pure none
  | some (row, change) => do
    let change ← convergePads row change
    let (result, epoch, idle) ← locked do
      let k ← conn row
      let result ← applyResultLocked k (change.pads.headD {})
      let idle ← busIdleLocked
      pure (result, k.epoch % 2 ^ 16, idle)
    closeBusIfIdle idle
    pure (some (result, epoch))

/-- The epoch, or nothing when the device owns no such session. -/
def removeController (connectionId deviceId : String) (ctrlIdx : Nat) : TProg (Option Nat) := do
  let planned ← locked do
    let c ← cold
    match findOwned c connectionId deviceId with
    | none => pure none
    | some k =>
      let present := decide (ctrlIdx < maxControllersPerConn) && (k.controllers ctrlIdx).active
      pure (some (k.row,
        ({ pads := if present then [planRemoval ctrlIdx] else [] } : TopologyChange)))
  match planned with
  | none => pure none
  | some (row, change) => do
    let _ ← convergePads row change
    let (epoch, idle) ← locked do
      let k ← conn row
      let idle ← busIdleLocked
      pure (k.epoch % 2 ^ 16, idle)
    closeBusIfIdle idle
    pure (some epoch)

/-- The number of controllers removed, or nothing when there is no such session. -/
def closeSessionById (connectionId deviceId : String) (reason : CloseReason) (notify : Bool) :
    TProg (Option Int) := do
  let closed ← locked do
    let c ← cold
    match c.findByConnectionId connectionId with
    | none => pure none
    | some k =>
      if deviceId ≠ "" ∧ k.deviceId ≠ deviceId then pure none
      else do
        if notify then sendSessionClose k reason else pure ()
        let retired ← retireConnectionLocked k.row []
        modify fun c => c.erase k.row
        pure (some (k.activeControllerCount, retired))
  match closed with
  | none => pure none
  | some (removed, retired) => do
    finishTeardown retired
    pure (some removed)

/-- The number of sessions closed. -/
def closeSessionsForDevice (deviceId : String) (reason : CloseReason) : TProg Nat := do
  let (retired, closed) ← locked do
    let c ← cold
    foldEach c.connections ([], 0) fun (retired, closed) k =>
      if k.deviceId = deviceId then do
        sendSessionClose k reason
        let retired ← retireConnectionLocked k.row retired
        modify fun c => c.erase k.row
        pure (retired, closed + 1)
      else pure (retired, closed)
  if closed > 0 then finishTeardown retired else pure ()
  pure closed

def closeAllSessions (reason : CloseReason) : TProg Unit := do
  let retired ← locked do
    let c ← cold
    forEach c.connections fun k => sendSessionClose k reason
    let retired ← foldEach c.connections [] fun retired k => retireConnectionLocked k.row retired
    modify fun c => { c with connections := [] }
    pure retired
  let retired ← unplugRetired retired
  let idle ← locked do
    settleRetiredLocked retired
    modify Cold.clearInUse
    modify Cold.clearQuarantine
    busIdleLocked
  closeBusIfIdle idle

/-- Nothing was received for the whole timeout and the grace of the PUT is over. -/
def timedOut (k : Connection) (lastPacket now : Nat) : Bool :=
  decide (lastPacket + seconds (heartbeatIntervalSec * heartbeatMissMax) < now) &&
    decide (k.graceUntil < now)

/-- `DeviceLinkState::NotResponding`. -/
def notResponding (k : Connection) (lastPacket now : Nat) : Bool :=
  decide (k.graceUntil ≤ now) &&
    decide (lastPacket + seconds (heartbeatIntervalSec * heartbeatStallFactor) < now)

/-- The body of `reapTimedOut` once `topoMtx_` is held: the number of sessions reaped. -/
def reapTimedOut : TProg Nat := do
  let (retired, reaped) ← locked do
    let time ← now
    let c ← cold
    foldEach c.connections ([], 0) fun (retired, reaped) k => do
      let lastPacket ← load (.lastPacketTicks k.slot)
      if timedOut k lastPacket time then do
        let retired ← retireConnectionLocked k.row retired
        modify fun c => c.erase k.row
        pure (retired, reaped + 1)
      else do
        let lastPacket ← load (.lastPacketTicks k.slot)
        modify fun c => c.setConn k.row fun k =>
          { k with stallLogged := notResponding k lastPacket time }
        pure (retired, reaped)
  if reaped > 0 then finishTeardown retired else pure ()
  pure reaped

end Satellite.SessionService
