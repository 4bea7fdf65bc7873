import Satellite.Lib.Interleaving
import Satellite.Pairing.Pins
import Satellite.Pairing.Requests

/-!
# Requests against the paired devices

The client and admin routes that read or write the paired devices, the pairing
requests, the operator PIN or the session table, as programs whose instructions are
the critical sections they enter one after another. Any number of requests are
served at once. The session table is seen from outside: each topology operation runs
under `topoMtx_`, so it is one instruction here, and all that is kept of a session
is its device and the pairing key it was keyed from.

The type of the pairing keys is left open and a key is never made into a text, so the
keys a response holds can be read off it.
-/

namespace Satellite.Pairing

variable {κ : Type}

/-! ## The shared state -/

structure PairedDevice (κ : Type) where
  id : String
  name : String
  lastIP : String
  sharedKey : κ
  deriving DecidableEq

/-- A live session: whose it is and which pairing key its own key was derived from. -/
structure Session (κ : Type) where
  deviceId : String
  connectionId : String
  pairingKey : κ
  deriving DecidableEq

structure Server (κ : Type) where
  /-- The paired devices of the config snapshot. -/
  paired : List (PairedDevice κ) := []
  pending : List (PendingPair κ) := []
  /-- The calls of the PIN functions so far, the latest first; they determine the PINs. -/
  pinCalls : List PinCall := []
  sessions : List (Session κ) := []
  /-- No later than any clock reading to come. -/
  clock : Nat := 0

/-- Why a session is closed, as the close notification says it. -/
inductive CloseReason
  | replaced
  | unpaired
  deriving DecidableEq

/-! ## The config updates of `pairing_service.cpp` -/

def replaceDevice (devs : List (PairedDevice κ)) (dev : PairedDevice κ) : List (PairedDevice κ) :=
  (devs.filter fun d => d.id != dev.id) ++ [dev]

def removeDevice (devs : List (PairedDevice κ)) (deviceId : String) : List (PairedDevice κ) :=
  devs.filter fun d => d.id != deviceId

/-- Write to the first record of a device. -/
def writeDevice (deviceId : String) (f : PairedDevice κ → PairedDevice κ) :
    List (PairedDevice κ) → List (PairedDevice κ)
  | [] => []
  | d :: devs => if d.id == deviceId then f d :: devs else d :: writeDevice deviceId f devs

def rekeyDevice (deviceId clientIP : String) (key : κ) (devs : List (PairedDevice κ)) :
    List (PairedDevice κ) :=
  writeDevice deviceId (fun d => { d with sharedKey := key, lastIP := clientIP }) devs

def refreshDevice (deviceId clientIP deviceName : String) (devs : List (PairedDevice κ)) :
    List (PairedDevice κ) :=
  writeDevice deviceId (fun d => { d with lastIP := clientIP, name := deviceName }) devs

def findDevice (devs : List (PairedDevice κ)) (deviceId : String) : Option (PairedDevice κ) :=
  devs.find? fun d => d.id == deviceId

/-- The pairing key stored for a device. -/
def storedKey (devs : List (PairedDevice κ)) (deviceId : String) : Option κ :=
  (findDevice devs deviceId).map PairedDevice.sharedKey

/-! ## Requests and responses -/

/-- What `clientAuthed` reads. -/
structure ClientAuth where
  deviceId : String
  hmacProof : String
  deriving DecidableEq

/-- What one POST /api/pair carries. -/
structure PairRequest where
  deviceId : String
  deviceName : String
  pin : String
  clientPin : String
  clientPkHex : String
  hmacProof : String
  clientIP : String
  protocolVersion : Int
  deriving DecidableEq

/-- What a PUT /api/connections carries besides its proof. -/
structure UpsertBody where
  /-- The body is a JSON object. -/
  isObject : Bool
  protocolVersion : Int
  deviceName : String
  /-- Every entry of the controllers array has its index and its type. -/
  descriptorsOk : Bool
  remoteAddr : String
  deriving DecidableEq

/-- The other routes of `registerAdminRoutes` and `registerClientRoutes`. They look at the settings
other than the paired devices, at the update service, the backends, the log, the counters, the
snapshots of the sessions and files; `sharedKeyHex` and `keyHex` occur in none of them. -/
inductive OtherRoute
  | redirectToDashboard | serveIndex | webDirFile
  | backendStatus | installDriver | status | netinfo | allowPublic | config | version
  | updatesStatus | updatesCheck | updatesDownload | updatesRepair | updatesInstall | updatesRetry
  | updatesCancel | updatesSkip | updatesDismiss | updatesPreferences
  | capabilities | debug | connections | logs | catalog | catalogImage
  deriving DecidableEq

inductive Request
  /-- PUT /api/connections -/
  | upsertConnection (auth : ClientAuth) (body : UpsertBody)
  /-- POST /api/pair -/
  | pair (pr : PairRequest)
  /-- GET /api/pair/status -/
  | pairStatus (deviceId : String)
  /-- DELETE /api/pair -/
  | selfUnpair (auth : ClientAuth)
  /-- GET /api/connections/:id and the two controller routes: no session appears or goes. -/
  | ownSession (auth : ClientAuth) (connectionId : String)
  /-- DELETE /api/connections/:id -/
  | closeSession (auth : ClientAuth) (connectionId : String)
  /-- GET /api/pair/requests -/
  | pairRequests
  /-- POST /api/pair/respond -/
  | pairRespond (deviceId : String) (accept : Bool)
  /-- The native prompt accepts. -/
  | confirmPairing (deviceId : String)
  /-- The native prompt declines. -/
  | declinePairing (deviceId : String)
  /-- The native prompt shows a request. -/
  | promptSnapshot (deviceId : String)
  /-- GET /api/pin/status -/
  | pinStatus
  /-- GET /api/devices -/
  | devices
  /-- One tick of the stream GET /api/events -/
  | events
  /-- DELETE /api/devices/:id -/
  | unpairDevice (deviceId : String)
  /-- DELETE /api/connections/:id on the admin server -/
  | kickConnection (connectionId : String)
  /-- A route that enters none of the sections below -/
  | other (route : OtherRoute)
  /-- The maintenance thread closes sessions that went silent. -/
  | reapTimedOut
  /-- Shutdown. -/
  | closeAllSessions
  deriving DecidableEq

/-- A value in a JSON object. Nothing in the type keeps a key out of a response. -/
inductive Value (κ : Type)
  | text (text : String)
  | key (sharedKey : κ)

/-- A JSON object in a response. -/
abbrev Object (κ : Type) := List (String × Value κ)

/-- The keys in an object. -/
def Object.keys (o : Object κ) : List κ :=
  o.filterMap fun field => match field.2 with
    | .text _ => none
    | .key sharedKey => some sharedKey

inductive Response (κ : Type)
  | error (status : Nat) (error : String)
  | unauthorized (code : String)
  | versionUnsupported
  | pairError (error : String)
  | awaitingApproval
  | keyRotated (sharedKey : κ) (protocolVersion : Int)
  | paired (serverPublicKey : Option String) (sharedKey : Option κ) (protocolVersion : Int)
  | approved (sharedKey : κ)
  | pairState (status : PairRequestState)
  | ok
  | session (connectionId : String)
  | closed (controllersRemoved : Nat)
  | unpaired (sessionsClosed : Nat)
  | responded (accepted : Bool)
  | pairRequests (requests : List PairRequestView)
  | prompt (request : Option PairRequestView)
  | pinStatus (snapshot : Pins.PinSnapshot)
  | devices (devices : List (Object κ))
  | events (devices : List (Object κ)) (pin : Pins.PinSnapshot) (requests : List PairRequestView)
  | other (route : OtherRoute)

/-- The keys a response hands out. -/
def Response.keys : Response κ → List κ
  | .keyRotated sharedKey _ | .approved sharedKey => [sharedKey]
  | .paired _ sharedKey _ => sharedKey.toList
  | .devices devs | .events devs _ _ => devs.flatMap Object.keys
  | _ => []

/-! ## Instructions -/

/-- How `resolvePairingSharedKey` ends. -/
inductive PairingKeyOutcome (κ : Type)
  | invalidClientKey
  | derived (serverPkHex : String) (sharedKey : κ)
  | random (sharedKey : κ)

/-- One critical section of a request, or the draw of a random key. -/
inductive Instr (κ : Type)
  | receive (req : Request)
  | reply (res : Response κ)
  | appRunning
  | findPairedDevice (deviceId : String)
  | upsertPairedDevice (dev : PairedDevice κ)
  | rotatePairedDeviceKey (deviceId clientIP : String)
  | refreshPairedDeviceIdentity (deviceId clientIP deviceName : String)
  | forgetPairedDevice (deviceId : String)
  | mintPairingKeyHex
  | resolvePairingSharedKey (clientPkHex : String)
  | verifyPin (pin : String)
  | pinSnapshot
  | submitPairRequest (deviceId deviceName clientIP clientPin : String)
  | denyPairRequest (deviceId : String)
  | pollPairRequest (deviceId : String)
  | pendingPairRequests
  | pairRequestSnapshot (deviceId : String)
  | acceptPairRequestConfirmed (deviceId : String) (key : κ)
  | pairedDevices
  | upsertSession (deviceId : String) (pairingKey : κ)
  | closeSessionsForDevice (deviceId : String) (reason : CloseReason)
  | closeSessionById (connectionId deviceId : String)
  | findSession (connectionId deviceId : String)
  | reapTimedOut
  | closeAllSessions

/-- What an instruction answers. -/
@[reducible] def Instr.Answer : Instr κ → Type
  | .receive _ | .reply _ | .upsertPairedDevice _ | .refreshPairedDeviceIdentity _ _ _
  | .submitPairRequest _ _ _ _ | .reapTimedOut | .closeAllSessions => Unit
  | .appRunning | .forgetPairedDevice _ | .verifyPin _ | .denyPairRequest _ | .findSession _ _ => Bool
  | .findPairedDevice _ => Option (PairedDevice κ)
  | .rotatePairedDeviceKey _ _ => Option κ
  | .mintPairingKeyHex => κ
  | .resolvePairingSharedKey _ => PairingKeyOutcome κ
  | .pinSnapshot => Pins.PinSnapshot
  | .pollPairRequest _ => PairRequestState × Option κ
  | .pendingPairRequests => List PairRequestView
  | .pairRequestSnapshot _ => Option PairRequestView
  | .acceptPairRequestConfirmed _ _ => Option (String × String)
  | .pairedDevices => List (PairedDevice κ)
  -- The new session's id, or the error.
  | .upsertSession _ _ => Except String String
  | .closeSessionsForDevice _ _ => Nat
  -- The controllers removed; nothing where there is no such session.
  | .closeSessionById _ _ => Option Nat

abbrev Route (κ : Type) := Prog (Instr κ) Instr.Answer

abbrev ask (i : Instr κ) : Route κ i.Answer := Prog.call i

/-! ## The routes -/

def protocolVersionMin : Int := 1

def protocolVersion : Int := 3

def versionOk (pv : Int) : Bool := decide (protocolVersionMin ≤ pv ∧ pv ≤ protocolVersion)

def upsertErrorTooManySessions : String := "tooManySessions"

/-- The record that `upsertPairedDevice` stores. -/
def newDevice (deviceId deviceName clientIP : String) (sharedKey : κ) : PairedDevice κ :=
  { id := deviceId
    name := if deviceName = "" then "Device-" ++ String.ofList (deviceId.toList.take 8) else deviceName
    lastIP := clientIP, sharedKey := sharedKey }

section Routes

/- Whether a stored key decodes and a proof for the device verifies under it. -/
variable (proves : κ → String → String → Bool)

/-- The decision of `clientAuthed` on the record it found. -/
def authenticate (auth : ClientAuth) : Option (PairedDevice κ) → Except String (PairedDevice κ)
  | none => .error "NOT_PAIRED"
  | some dev =>
    if proves dev.sharedKey auth.deviceId auth.hmacProof then .ok dev else .error "BAD_PROOF"

/-- Run a route for an authenticated device. -/
def clientAuthed (auth : ClientAuth) (route : PairedDevice κ → Route κ (Response κ)) :
    Route κ (Response κ) :=
  if auth.deviceId = "" then return .unauthorized "NOT_PAIRED"
  else do
    let found ← ask (.findPairedDevice auth.deviceId)
    match authenticate proves auth found with
    | .error code => return .unauthorized code
    | .ok dev => route dev

def upsertConnectionRoute (auth : ClientAuth) (body : UpsertBody) : Route κ (Response κ) := do
  let running ← ask .appRunning
  if !running then return .error 503 "shutting down"
  else clientAuthed proves auth fun dev =>
    if !body.isObject then return .error 400 "body must be a JSON object"
    else if !versionOk body.protocolVersion then return .versionUnsupported
    else if !body.descriptorsOk then
      return .error 400 "controllers entries require ctrlIdx and type"
    else do
      let result ← ask (.upsertSession auth.deviceId dev.sharedKey)
      match result with
      | .error error =>
        return .error (if error = upsertErrorTooManySessions then 503 else 500) error
      | .ok connectionId => do
        let deviceName := if body.deviceName = "" then dev.name else body.deviceName
        ask (.refreshPairedDeviceIdentity auth.deviceId body.remoteAddr deviceName)
        return .session connectionId

/-- The proof of the current key; nothing where the caller falls through. -/
def tryRotateKey (pr : PairRequest) : Route κ (Option (Response κ)) := do
  let found ← ask (.findPairedDevice pr.deviceId)
  match found with
  | none => return none
  | some dev =>
    if proves dev.sharedKey pr.deviceId pr.hmacProof then do
      let rotated ← ask (.rotatePairedDeviceKey pr.deviceId pr.clientIP)
      match rotated with
      | none => return none
      | some newKey => do
        let _ ← ask (.closeSessionsForDevice pr.deviceId .replaced)
        return some (.keyRotated newKey pr.protocolVersion)
    else return none

/-- Compare the PIN and, where it is accepted, store the key that was resolved before. -/
def pairIfPinHolds (pr : PairRequest) (sharedKey : κ) (res : Response κ) :
    Route κ (Option (Response κ)) := do
  let held ← ask (.verifyPin pr.pin)
  if held then do
    ask (.upsertPairedDevice (newDevice pr.deviceId pr.deviceName pr.clientIP sharedKey))
    let _ ← ask (.closeSessionsForDevice pr.deviceId .replaced)
    return some res
  else return none

def pairWithServerPin (pr : PairRequest) : Route κ (Option (Response κ)) := do
  let outcome ← ask (.resolvePairingSharedKey pr.clientPkHex)
  match outcome with
  | .invalidClientKey => return some (.pairError "invalid public key")
  | .derived serverPkHex sharedKey =>
    pairIfPinHolds pr sharedKey (.paired (some serverPkHex) none pr.protocolVersion)
  | .random sharedKey =>
    pairIfPinHolds pr sharedKey (.paired none (some sharedKey) pr.protocolVersion)

def registerClientPinRequest (pr : PairRequest) : Route κ (Response κ) := do
  ask (.submitPairRequest pr.deviceId pr.deviceName pr.clientIP pr.clientPin)
  return .awaitingApproval

/-- The last of the three ways to pair. -/
def pairWithClientPin (pr : PairRequest) : Route κ (Response κ) :=
  if pr.clientPin = "" then return .pairError "invalid or expired PIN"
  else registerClientPinRequest pr

/-- Answer with the first way's response, or go on with the second. -/
def orElse (first : Route κ (Option (Response κ))) (second : Route κ (Response κ)) :
    Route κ (Response κ) := do
  let res ← first
  match res with
  | some res => return res
  | none => second

def pairRoute (pr : PairRequest) : Route κ (Response κ) :=
  if pr.deviceId = "" then return .pairError "missing deviceId"
  else if !versionOk pr.protocolVersion then return .versionUnsupported
  else
    orElse (if pr.hmacProof = "" then return none else tryRotateKey proves pr)
      (orElse (if pr.pin = "" then return none else pairWithServerPin pr) (pairWithClientPin pr))

def pairStatusRoute (deviceId : String) : Route κ (Response κ) :=
  if deviceId = "" then return .pairError "missing deviceId"
  else do
    let polled ← ask (.pollPairRequest deviceId)
    match polled with
    | (.approved, some key) => return .approved key
    | (status, _) => return .pairState status

def selfUnpairRoute (auth : ClientAuth) : Route κ (Response κ) :=
  clientAuthed proves auth fun _ => do
    let _ ← ask (.closeSessionsForDevice auth.deviceId .unpaired)
    let _ ← ask (.forgetPairedDevice auth.deviceId)
    return .ok

def ownSessionRoute (auth : ClientAuth) (connectionId : String) : Route κ (Response κ) :=
  clientAuthed proves auth fun _ => do
    let found ← ask (.findSession connectionId auth.deviceId)
    if found then return .session connectionId
    else return .error 404 "connection not found"

def closedResponse : Option Nat → Response κ
  | none => .error 404 "connection not found"
  | some removed => .closed removed

def closeSessionRoute (auth : ClientAuth) (connectionId : String) : Route κ (Response κ) :=
  clientAuthed proves auth fun _ => do
    let removed ← ask (.closeSessionById connectionId auth.deviceId)
    return closedResponse removed

def confirmPairing (deviceId : String) : Route κ Bool := do
  let key ← ask .mintPairingKeyHex
  let accepted ← ask (.acceptPairRequestConfirmed deviceId key)
  match accepted with
  | none => return false
  | some (name, ip) => do
    ask (.upsertPairedDevice (newDevice deviceId name ip key))
    return true

def declinePairing (deviceId : String) : Route κ Bool := ask (.denyPairRequest deviceId)

def pairRespondRoute (deviceId : String) (accept : Bool) : Route κ (Response κ) :=
  if deviceId = "" then return .pairError "missing deviceId"
  else if !accept then do
    let _ ← declinePairing deviceId
    return .responded false
  else do
    let confirmed ← confirmPairing deviceId
    if confirmed then return .responded true
    else return .pairError "no pending request"

def pairRequestsRoute : Route κ (Response κ) := do
  let views ← ask .pendingPairRequests
  return .pairRequests views

def pinStatusRoute : Route κ (Response κ) := do
  let snapshot ← ask .pinSnapshot
  return .pinStatus snapshot

/-- What `buildDevicesJson` writes of a paired device. -/
def PairedDevice.view (dev : PairedDevice κ) : Object κ :=
  [("id", .text dev.id), ("name", .text dev.name), ("lastIP", .text dev.lastIP)]

def devicesRoute : Route κ (Response κ) := do
  let devs ← ask .pairedDevices
  return .devices (devs.map PairedDevice.view)

/-- The events of one tick that read a table here, in their order. -/
def sseTick : Route κ (Response κ) := do
  let devs ← ask .pairedDevices
  let snapshot ← ask .pinSnapshot
  let requests ← ask .pendingPairRequests
  return .events (devs.map PairedDevice.view) snapshot requests

def unpairDeviceRoute (deviceId : String) : Route κ (Response κ) := do
  let closed ← ask (.closeSessionsForDevice deviceId .unpaired)
  let removed ← ask (.forgetPairedDevice deviceId)
  if removed then return .unpaired closed
  else return .error 404 "device not paired"

def kickConnectionRoute (connectionId : String) : Route κ (Response κ) := do
  let removed ← ask (.closeSessionById connectionId "")
  return closedResponse removed

def route : Request → Route κ (Response κ)
  | .upsertConnection auth body => upsertConnectionRoute proves auth body
  | .pair pr => pairRoute proves pr
  | .pairStatus deviceId => pairStatusRoute deviceId
  | .selfUnpair auth => selfUnpairRoute proves auth
  | .ownSession auth connectionId => ownSessionRoute proves auth connectionId
  | .closeSession auth connectionId => closeSessionRoute proves auth connectionId
  | .pairRequests => pairRequestsRoute
  | .pairRespond deviceId accept => pairRespondRoute deviceId accept
  | .confirmPairing deviceId => do
    let confirmed ← confirmPairing deviceId
    return .responded confirmed
  | .declinePairing deviceId => do
    let _ ← declinePairing deviceId
    return .responded false
  | .promptSnapshot deviceId => do
    let view ← ask (.pairRequestSnapshot deviceId)
    return .prompt view
  | .pinStatus => pinStatusRoute
  | .devices => devicesRoute
  | .events => sseTick
  | .unpairDevice deviceId => unpairDeviceRoute deviceId
  | .kickConnection connectionId => kickConnectionRoute connectionId
  | .other route => return .other route
  | .reapTimedOut => do
    ask .reapTimedOut
    return .ok
  | .closeAllSessions => do
    ask .closeAllSessions
    return .ok

/-- One request from its arrival to its response. -/
def serve (req : Request) : Route κ Unit := do
  ask (.receive req)
  let res ← route proves req
  ask (.reply res)

end Routes

/-! ## Steps -/

/-- The PIN state. -/
def Server.pins (s : Server κ) : Pins := pinsAfter s.pinCalls

/-- The instruction may answer `r` and leave the server as it says. -/
def Server.step (s : Server κ) : (i : Instr κ) → i.Answer → Server κ → Prop
  | .receive _, _, s' | .reply _, _, s' | .appRunning, _, s' | .mintPairingKeyHex, _, s'
  | .findSession _ _, _, s' => s' = s
  | .findPairedDevice deviceId, r, s' => r = findDevice s.paired deviceId ∧ s' = s
  | .pairedDevices, r, s' => r = s.paired ∧ s' = s
  | .upsertPairedDevice dev, _, s' => s' = { s with paired := replaceDevice s.paired dev }
  | .rotatePairedDeviceKey deviceId clientIP, r, s' =>
    -- The key is drawn under the config lock, once the record is found.
    (findDevice s.paired deviceId).isSome = r.isSome ∧
      s' = { s with paired := r.elim s.paired fun key => rekeyDevice deviceId clientIP key s.paired }
  | .refreshPairedDeviceIdentity deviceId clientIP deviceName, _, s' =>
    s' = { s with paired := refreshDevice deviceId clientIP deviceName s.paired }
  | .forgetPairedDevice deviceId, r, s' =>
    r = (findDevice s.paired deviceId).isSome ∧ s' = { s with paired := removeDevice s.paired deviceId }
  | .resolvePairingSharedKey clientPkHex, r, s' =>
    (clientPkHex = "" ↔ ∃ key, r = .random key) ∧ s' = s
  | .verifyPin pin, r, s' =>
    ∃ now rotated burnt, s.clock ≤ now ∧ r = (s.pins.verifyPin now rotated burnt pin).1 ∧
      s' = { s with pinCalls := ⟨some pin, now, rotated, burnt⟩ :: s.pinCalls, clock := now }
  | .pinSnapshot, r, s' =>
    ∃ now rotated burnt, s.clock ≤ now ∧ r = (s.pins.pinSnapshot now rotated).1 ∧
      s' = { s with pinCalls := ⟨none, now, rotated, burnt⟩ :: s.pinCalls, clock := now }
  | .submitPairRequest deviceId deviceName clientIP clientPin, _, s' =>
    ∃ now, s.clock ≤ now ∧ s' = { s with
      pending := submitPairRequest now deviceId deviceName clientIP clientPin s.pending, clock := now }
  | .denyPairRequest deviceId, r, s' =>
    r = (denyPairRequest deviceId s.pending).1 ∧
      s' = { s with pending := (denyPairRequest deviceId s.pending).2 }
  | .pollPairRequest deviceId, r, s' =>
    ∃ now, s.clock ≤ now ∧ r = (pollPairRequest now deviceId s.pending).1 ∧
      s' = { s with pending := (pollPairRequest now deviceId s.pending).2, clock := now }
  | .pendingPairRequests, r, s' =>
    ∃ now, s.clock ≤ now ∧ r = (pendingPairRequests now s.pending).1 ∧
      s' = { s with pending := (pendingPairRequests now s.pending).2, clock := now }
  | .pairRequestSnapshot deviceId, r, s' =>
    ∃ now, s.clock ≤ now ∧ r = (pairRequestSnapshot now deviceId s.pending).1 ∧
      s' = { s with pending := (pairRequestSnapshot now deviceId s.pending).2, clock := now }
  | .acceptPairRequestConfirmed deviceId key, r, s' =>
    ∃ now, s.clock ≤ now ∧ r = (acceptPairRequestConfirmed now deviceId key s.pending).1 ∧
      s' = { s with pending := (acceptPairRequestConfirmed now deviceId key s.pending).2, clock := now }
  | .upsertSession deviceId pairingKey, r, s' =>
    -- A device keeps one session; an upsert that fails leaves the table alone.
    s' = { s with sessions := match r with
      | .error _ => s.sessions
      | .ok connectionId =>
        s.sessions.filter (fun k => k.deviceId != deviceId) ++ [⟨deviceId, connectionId, pairingKey⟩] }
  | .closeSessionsForDevice deviceId _, r, s' =>
    r = s.sessions.countP (fun k => k.deviceId == deviceId) ∧
      s' = { s with sessions := s.sessions.filter fun k => k.deviceId != deviceId }
  | .closeSessionById connectionId deviceId, r, s' =>
    s' = { s with sessions := if r.isSome then s.sessions.filter fun k =>
      !(k.connectionId == connectionId && (deviceId == "" || k.deviceId == deviceId)) else s.sessions }
  | .reapTimedOut, _, s' =>
    -- Which sessions went silent is up to the network.
    s'.sessions.Sublist s.sessions ∧ s' = { s with sessions := s'.sessions }
  | .closeAllSessions, _, s' => s' = { s with sessions := [] }

end Satellite.Pairing
