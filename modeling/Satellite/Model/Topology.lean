import Satellite.Lib.Program
import Satellite.Model.Cold

/-!
# The machine a topology operation runs on

A topology operation holds `topoMtx_` from start to end, so it is the only writer
of the cold state and of the published words. This module gives the instructions
such an operation issues and their effect on what it owns: plain accesses to the
cold state, atomic accesses to published words, the stages of a publication, and
calls to the backend and the client. Words that other threads write too are not
tracked here and read as anything.
-/

namespace Satellite

/-! ## Memory -/

/-- The atomic words that the threads share. -/
inductive Loc
  | gen (slot : Nat)
  | token (slot : Nat)
  | keyEpoch (slot : Nat)
  | key (slot : Nat) (word : Fin 4)
  | ctrl (slot i : Nat)
  | padInfo (slot i : Nat)
  | padGen (slot i : Nat)
  | padStamp (slot i : Nat)
  | session (slot : Nat)
  | row (slot : Nat)
  /-- `HotTable::tokens`, the packed table the lookups scan. -/
  | packed (slot : Nat)
  | padOwner (serial : Nat)
  | hidMotors (serial : Nat)
  | replayKeyEpoch (slot : Nat)
  | lastCounter (slot : Nat)
  | lastPacketTicks (slot : Nat)
  | clientAddr (slot : Nat)
  | txCounter (slot : Nat)
  | feedbackPending (slot : Nat)
  | txGate (slot : Nat)
  | txDeferredAck (slot : Nat)
  /-- The epoch of one `RxEpoch` participant. -/
  | epoch (participant : Nat)
  deriving DecidableEq

/-- The slot whose generation guards a word. -/
def Loc.guard : Loc → Option Nat
  | .token i | .keyEpoch i | .key i _ | .ctrl i _ | .padInfo i _ | .padGen i _
  | .padStamp i _ | .session i | .row i => some i
  | _ => none

/-- Only topology operations write these words. -/
def Loc.owned : Loc → Bool
  | .gen _ | .packed _ | .padOwner _ => true
  | l => l.guard.isSome

/-- Words a publication resets although another thread writes them too. -/
def Loc.resetBy : Loc → Option Nat
  | .txCounter i | .clientAddr i | .feedbackPending i | .lastPacketTicks i => some i
  | _ => none

@[simp] def rxParticipants : Nat := 2 + 2 * maxBackendControllers

/-- A publication that stored a new token still owes its slot a new key epoch. -/
def Loc.phase (l : Loc) (w : Nat) (writing : Option (Nat × Nat)) : Option (Nat × Nat) :=
  match l with
  | .token slot => if w = 0 then writing else some (slot, rxParticipants + 1)
  | .keyEpoch slot => some (slot, rxParticipants)
  | _ => writing

/-! ## Calls -/

/-- The lifecycle calls of the backend, with their answers. -/
inductive Call
  | ensureBusOpen (answer : Bool)
  | closeBus
  | pluginDevice (serial : Nat) (answer : Bool)
  | unplugDevice (serial : Nat) (answer : Bool)
  deriving DecidableEq

/-- The latest lifecycle call on the serial was a successful plug. -/
def outstanding : List Call → Nat → Bool
  | [], _ => false
  | .pluginDevice s true :: cs, t => s == t || outstanding cs t
  | .unplugDevice s _ :: cs, t => s != t && outstanding cs t
  | _ :: cs, t => outstanding cs t

/-- Some unplug of the serial since the bus was last closed was not confirmed. -/
def unconfirmed : List Call → Nat → Bool
  | [], _ => false
  | .unplugDevice s false :: cs, t => s == t || unconfirmed cs t
  | .closeBus :: _, _ => false
  | _ :: cs, t => unconfirmed cs t

/-- What the backend may answer and how the calls move its bus. -/
structure Backend where
  isBusOpen : (bus answer : Bool) → Prop
  ensureBusOpen : (bus answer bus' : Bool) → Prop
  closeBus : (bus bus' : Bool) → Prop
  pluginDevice : (serial : Nat) → GamepadIdentity → (preferred : String) → (answer : Bool) → Prop
  unplugDevice : (serial : Nat) → (answer : Bool) → Prop
  supportsIdentity : GamepadIdentity → (answer : Bool) → Prop

/-- `isBusOpen` reports the bus as the lifecycle calls left it. -/
def Backend.Steady (B : Backend) : Prop := ∀ bus answer, B.isBusOpen bus answer → answer = bus

/-- `closeBus` always leaves the bus closed. -/
def Backend.Closes (B : Backend) : Prop := ∀ bus bus', B.closeBus bus bus' → bus' = false

/-- The bus opens, every plug and unplug succeeds, and the identities offered are fixed. -/
structure Backend.Cooperates (B : Backend) (supported : GamepadIdentity → Bool) : Prop where
  isBusOpen : ∀ bus answer, B.isBusOpen bus answer ↔ answer = bus
  ensureBusOpen : ∀ bus answer bus', B.ensureBusOpen bus answer bus' ↔ answer = true ∧ bus' = true
  closeBus : ∀ bus, ∃ bus', B.closeBus bus bus'
  pluginDevice : ∀ s g preferred answer, B.pluginDevice s g preferred answer ↔ answer = true
  unplugDevice : ∀ s answer, B.unplugDevice s answer ↔ answer = true
  supportsIdentity : ∀ g answer, B.supportsIdentity g answer ↔ answer = supported g

theorem Backend.Cooperates.steady {B : Backend} {supported : GamepadIdentity → Bool}
    (h : B.Cooperates supported) : B.Steady :=
  fun bus answer hb => (h.isBusOpen bus answer).1 hb

/-- A rumble level on its way to a client. -/
structure RumbleReport where
  strongMagnitude : UInt16 := 0
  weakMagnitude : UInt16 := 0
  durationMs : UInt16 := 0
  deriving DecidableEq

/-- The instructions of a topology operation. -/
inductive TInstr
  | lock
  | unlock
  | cold
  | modify (f : Cold → Cold)
  | load (l : Loc)
  | store (l : Loc) (w : Nat)
  | addActivePads (delta : Int)
  | beginWrite (slot : Nat)
  /-- `RxEpoch::waitOut` on one participant. -/
  | waitOut (participant : Nat)
  | endWrite (slot : Nat)
  | now
  /-- `makeRandomToken`. -/
  | random
  | isBusOpen
  | supportsIdentity (identity : GamepadIdentity)
  | supportsRelativeMouse
  | supportsMotionForType (type : Nat)
  | motionBackendOk (serial : Nat)
  | backendIdForSerial (serial : Nat)
  | ensureBusOpen
  | closeBus
  | pluginDevicePreferring (serial : Nat) (identity : GamepadIdentity) (preferred : String)
  | unplugDevice (serial : Nat)
  /-- `ClientAdapter::sendSealed`. -/
  | sendSealed (token : Nat) (key : Key) (slot : Nat) (inner : List UInt8)
  /-- The level a controller was seeded with and still owes its client, if any. -/
  | seededRumble (slot i : Nat)
  /-- `PointerWorker::post` of a release. -/
  | postRelease (serial stamp : Nat)

/-- What an instruction answers. -/
@[reducible] def TInstr.Res : TInstr → Type
  | .cold => Cold
  | .load _ | .now | .random => Nat
  | .isBusOpen | .supportsIdentity _ | .supportsRelativeMouse | .supportsMotionForType _
  | .motionBackendOk _ | .ensureBusOpen | .pluginDevicePreferring .. | .unplugDevice _ => Bool
  | .backendIdForSerial _ => String
  | .seededRumble .. => Option RumbleReport
  | _ => Unit

/-- Programs of topology operations. -/
abbrev TProg := Prog TInstr TInstr.Res

/-! ## State -/

/-- What one session looked like to an observer: its epoch and each active index's type. -/
structure Held where
  row : Nat
  epoch : Nat
  types : Nat → Option Nat

/-- What was seen of one row with one epoch is the same. -/
def Held.Consistent (held : List Held) : Prop :=
  ∀ h ∈ held, ∀ h' ∈ held, h.row = h'.row → h.epoch = h'.epoch → h.types = h'.types

/-- The applied types of a record, by controller index. -/
def Connection.types (k : Connection) (i : Nat) : Option Nat :=
  if i < 16 ∧ (k.controllers i).active then some (k.controllers i).controllerType else none

def Connection.held (k : Connection) : Held := ⟨k.row, k.epoch, k.types⟩

/-- The state a topology operation owns. The last four fields record the run. -/
structure Topo where
  cold : Cold := {}
  mem : Loc → Nat := fun _ => 0
  activePads : Int := 0
  /-- Whether the backend's bus is open. -/
  bus : Bool := false
  /-- The lifecycle calls so far, the latest first. -/
  calls : List Call := []
  /-- Whether the operation holds `mtx_`. -/
  locked : Bool := false
  /-- The slot being published and how many participants have been waited for; one more
  while its key epoch is behind its token. -/
  writing : Option (Nat × Nat) := none
  /-- What an observer could see of the sessions so far. -/
  held : List Held := []

namespace Topo

/-- What an observer sees once `mtx_` is free: every record. -/
def seenCold (v : Topo) : List Held := v.cold.connections.map Connection.held

/-- What an observer sees once a publication closes: the record whose token the slot carries. -/
def seenSlot (v : Topo) (slot : Nat) : List Held :=
  (v.cold.connections.filter fun k =>
    k.slot == slot && (v.mem (.token slot) != 0 && k.token == v.mem (.token slot))).map
      Connection.held

def setMem (v : Topo) (l : Loc) (w : Nat) : Topo := { v with mem := Function.update v.mem l w }

/-- The effect of each instruction over a backend `B`. -/
def step (B : Backend) : (i : TInstr) → Topo → i.Res → Topo → Prop
  | .lock, v, _, v' => v' = { v with locked := true }
  | .unlock, v, _, v' => v' = { v with locked := false, held := v.seenCold ++ v.held }
  | .cold, v, r, v' => r = v.cold ∧ v' = v
  | .modify f, v, _, v' => v' = { v with cold := f v.cold }
  | .load l, v, r, v' => (l.owned → r = v.mem l) ∧ v' = v
  | .store l w, v, _, v' =>
    v' = if l.owned then { v.setMem l w with writing := l.phase w v.writing } else v
  | .addActivePads delta, v, _, v' => v' = { v with activePads := v.activePads + delta }
  | .beginWrite slot, v, _, v' =>
    v' = { v.setMem (.gen slot) ((v.mem (.gen slot) + 1) % 2 ^ 32) with writing := some (slot, 0) }
  | .waitOut p, v, _, v' =>
    v' = { v with writing := v.writing.map fun w => (w.1, p + 1) }
  | .endWrite slot, v, _, v' =>
    v' = { v.setMem (.gen slot) ((v.mem (.gen slot) + 1) % 2 ^ 32) with
             writing := none, held := v.seenSlot slot ++ v.held }
  | .now, v, _, v' => v' = v
  | .random, v, r, v' => (1 ≤ r ∧ r < 2 ^ 32) ∧ v' = v
  | .isBusOpen, v, r, v' => B.isBusOpen v.bus r ∧ v' = v
  | .supportsIdentity g, v, r, v' => B.supportsIdentity g r ∧ v' = v
  | .supportsRelativeMouse, v, _, v' => v' = v
  | .supportsMotionForType _, v, _, v' => v' = v
  | .motionBackendOk _, v, _, v' => v' = v
  | .backendIdForSerial _, v, _, v' => v' = v
  | .ensureBusOpen, v, r, v' =>
    ∃ bus, B.ensureBusOpen v.bus r bus ∧
      v' = { v with bus := bus, calls := .ensureBusOpen r :: v.calls }
  | .closeBus, v, _, v' =>
    ∃ bus, B.closeBus v.bus bus ∧ v' = { v with bus := bus, calls := .closeBus :: v.calls }
  | .pluginDevicePreferring s g preferred, v, r, v' =>
    B.pluginDevice s g preferred r ∧ v' = { v with calls := .pluginDevice s r :: v.calls }
  | .unplugDevice s, v, r, v' =>
    B.unplugDevice s r ∧ v' = { v with calls := .unplugDevice s r :: v.calls }
  | .sendSealed .., v, _, v' => v' = v
  | .seededRumble .., v, _, v' => v' = v
  | .postRelease .., v, _, v' => v' = v

end Topo

/-! ## What is published -/

/-- The slot carries the record exactly. -/
structure SlotShows (mem : Loc → Nat) (k : Connection) : Prop where
  packed : mem (.packed k.slot) = k.token
  token : mem (.token k.slot) = k.token
  key : ∀ w, mem (.key k.slot w) = k.sessionKey w
  ctrl : ∀ i < 16, mem (.ctrl k.slot i) = (k.controllers i).ctrlWord
  padInfo : ∀ i < 16, mem (.padInfo k.slot i) = (k.controllers i).padInfoWord
  padGen : ∀ i < 16, mem (.padGen k.slot i) = (k.controllers i).padGenWord
  padStamp : ∀ i < 16, mem (.padStamp k.slot i) = (k.controllers i).padStampWord
  session : mem (.session k.slot) = k.sessionWord
  row : mem (.row k.slot) = k.row % 2 ^ 32

/-- The slot carries no session. -/
structure SlotClear (mem : Loc → Nat) (slot : Nat) : Prop where
  packed : mem (.packed slot) = 0
  token : mem (.token slot) = 0
  key : ∀ w, mem (.key slot w) = 0
  ctrl : ∀ i < 16, mem (.ctrl slot i) = 0

/-- Controller `i` of the record is active with serial `s`. -/
def Connection.Active (k : Connection) (i s : Nat) : Prop :=
  i < 16 ∧ (k.controllers i).active = true ∧ (k.controllers i).serialNo = s

namespace Topo

/-- The published words are the projection of the cold state. -/
structure Published (v : Topo) : Prop where
  slot_lt : ∀ k ∈ v.cold.connections, k.slot < maxSessions
  slot_inj : ∀ k ∈ v.cold.connections, ∀ k' ∈ v.cold.connections, k.slot = k'.slot → k.row = k'.row
  shows : ∀ k ∈ v.cold.connections, SlotShows v.mem k
  clear : ∀ slot < maxSessions, (∀ k ∈ v.cold.connections, k.slot ≠ slot) → SlotClear v.mem slot
  owner_iff : ∀ s ∈ serials, ∀ slot i, i < 16 → (v.mem (.padOwner s) = hotPadOwner slot i ↔
    ∃ k ∈ v.cold.connections, k.slot = slot ∧ k.Active i s)

/-- No published controller word is active with the serial. -/
def Unpublished (v : Topo) (s : Nat) : Prop :=
  ∀ slot < maxSessions, ∀ i < 16, v.mem (.ctrl slot i) ≠ hotCtrlWord true s

/-- The controller words of the slot are those of its one record, whose pads are plugged. -/
structure Projects (v : Topo) (slot : Nat) (k : Connection) : Prop where
  mem : k ∈ v.cold.connections
  slot_eq : k.slot = slot
  alone : ∀ a ∈ v.cold.connections, a.slot = slot → a = k
  token : v.mem (.token slot) = 0 ∨ v.mem (.token slot) = k.token
  ctrl : ∀ i < 16, v.mem (.ctrl slot i) = (k.controllers i).ctrlWord
  session : v.mem (.session slot) = k.sessionWord
  plugged : ∀ i s, k.Active i s → (1 ≤ s ∧ s ≤ 16) ∧ outstanding v.calls s = true

/-- What has to hold where an operation issues an instruction. -/
def pre (B : Backend) : TInstr → Topo → Prop
  | .lock, v => v.locked = false
  | .unlock, v => v.locked = true ∧ v.writing = none ∧ v.Published ∧
    (∀ k ∈ v.cold.connections, k.token ≠ 0) ∧ Held.Consistent (v.seenCold ++ v.held)
  | .cold, v | .modify _, v => v.locked = true
  | .store l w, v => v.locked = true ∧
    match l with
    | .padOwner _ => ∃ slot, v.writing = some (slot, rxParticipants)
    | .packed _ => v.writing = none
    | .hidMotors _ => True
    | .keyEpoch slot => v.writing = some (slot, rxParticipants + 1) ∧
        w = (v.mem (.keyEpoch slot) + 1) % 2 ^ 32
    | l => ∃ slot, (l.guard = some slot ∨ l.resetBy = some slot) ∧
        v.writing = some (slot, rxParticipants)
  | .addActivePads _, v => v.locked = true
  | .beginWrite slot, v => v.locked = true ∧ v.writing = none ∧ slot < maxSessions
  | .waitOut p, v => ∃ slot, v.writing = some (slot, p)
  | .endWrite slot, v => v.locked = true ∧ v.writing = some (slot, rxParticipants) ∧
    (∃ k, v.Projects slot k) ∧ Held.Consistent (v.seenSlot slot ++ v.held)
  | .ensureBusOpen, v => v.locked = false
  | .closeBus, v => v.locked = false ∧ v.cold.NoneActive
  | .pluginDevicePreferring s _ _, v => v.locked = false ∧ v.writing = none ∧ v.Unpublished s ∧
    outstanding v.calls s = false ∧ (B.Steady → unconfirmed v.calls s = false)
  | .unplugDevice s, v => v.locked = false ∧ v.writing = none ∧ v.Unpublished s ∧
    outstanding v.calls s = true
  | .sendSealed token key slot _, v => v.locked = true ∧ v.writing = none ∧ slot < maxSessions ∧
    token ≠ 0 ∧ v.mem (.token slot) = token ∧ ∀ w, v.mem (.key slot w) = key w
  | _, _ => True

end Topo

/-- The machine of topology operations over a backend. -/
def topoMachine (B : Backend) : Machine TInstr TInstr.Res Topo where
  pre := Topo.pre B
  step := Topo.step B
  ends := True

end Satellite
