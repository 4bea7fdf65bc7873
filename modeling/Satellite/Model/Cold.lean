import Satellite.Model.Types

/-!
# The cold state

What `mtx_` protects: the sessions, the serial pool and the three counters that
stamp plugs, records and pointer releases. The functions here are the plain data
changes that the locked helpers of `core/session_service.cpp` make between two
atomic accesses.
-/

namespace Satellite

open List

/-- The state behind `mtx_`. Serials are indexed from 1, as the backend counts them. -/
structure Cold where
  /-- The map from tokens; each record carries its own token. -/
  connections : List Connection := []
  serialInUse : Nat → Bool := fun _ => false
  serialQuarantined : Nat → Bool := fun _ => false
  serialScanStart : Nat := 0
  nextPlugGen : Nat := 0
  nextRow : Nat := 0
  nextPointerStamp : Nat := 0

/-- A controller takes a descriptor in place. -/
def Controller.update (p : Controller) (desc : ControllerDescriptor) : Controller :=
  { p with controllerType := desc.type, caps := desc.caps
           touchpadMode := safeTouchpadMode desc.touchpadMode
           preferredBackend := desc.preferredBackend }

namespace Cold

/-! ## Records -/

/-- The record a `Connection*` points to. -/
def conn? (c : Cold) (row : Nat) : Option Connection :=
  c.connections.find? fun k => k.row == row

/-- The record a valid `Connection*` points to. -/
def conn (c : Cold) (row : Nat) : Connection := (c.conn? row).getD {}

def findByDeviceId (c : Cold) (deviceId : String) : Option Connection :=
  c.connections.find? fun k => k.deviceId == deviceId

def findByConnectionId (c : Cold) (connectionId : String) : Option Connection :=
  c.connections.find? fun k => k.connectionId == connectionId

/-- Write through a `Connection*`. -/
def setConn (c : Cold) (row : Nat) (f : Connection → Connection) : Cold :=
  { c with connections := c.connections.map fun k => if k.row == row then f k else k }

/-- Drop a record from the map. -/
def erase (c : Cold) (row : Nat) : Cold :=
  { c with connections := c.connections.filter fun k => k.row != row }

/-- Write to one controller of a record. -/
def setPad (c : Cold) (row i : Nat) (f : Controller → Controller) : Cold :=
  c.setConn row fun k => { k with controllers := Function.update k.controllers i (f (k.controllers i)) }

/-- The serial controller `i` of record `row` is active with. -/
def pad (c : Cold) (row i : Nat) : Option Nat :=
  (c.conn? row).bind fun k =>
    if i < 16 ∧ (k.controllers i).active then some (k.controllers i).serialNo else none

/-- No controller of any record is active. -/
def NoneActive (c : Cold) : Prop :=
  ∀ k ∈ c.connections, ∀ i < 16, (k.controllers i).active = false

/-! ## Counters that skip zero -/

/-- The next value of a 32-bit counter that never takes the value 0. -/
def nextStamp (n : Nat) : Nat := if (n + 1) % 2 ^ 32 = 0 then 1 else (n + 1) % 2 ^ 32

/-! ## The serial pool -/

/-- The serial the round-robin scan stops at. -/
def freeSerial (c : Cold) : Option Nat :=
  ((List.range maxBackendControllers).map fun step =>
      (c.serialScanStart + step) % maxBackendControllers + 1).find? fun s =>
    !c.serialInUse s && !c.serialQuarantined s

def takeSerial (c : Cold) (s : Nat) : Cold :=
  { c with serialInUse := Function.update c.serialInUse s true
           serialScanStart := s % maxBackendControllers }

def dropSerial (c : Cold) (s : Nat) : Cold :=
  { c with serialInUse := Function.update c.serialInUse s false }

def quarantine (c : Cold) (s : Nat) : Cold :=
  { c with serialInUse := Function.update c.serialInUse s false
           serialQuarantined := Function.update c.serialQuarantined s true }

def claim (c : Cold) (s : Nat) : Cold :=
  { c with serialInUse := Function.update c.serialInUse s true }

def clearQuarantine (c : Cold) : Cold := { c with serialQuarantined := fun _ => false }

def clearInUse (c : Cold) : Cold := { c with serialInUse := fun _ => false }

/-- Serials outside the backend's range are never touched. -/
def serialInRange (s : Nat) : Bool := s != 0 && decide (s ≤ maxBackendControllers)

theorem serialInRange_iff {s : Nat} : serialInRange s = true ↔ 1 ≤ s ∧ s ≤ 16 := by
  rw [serialInRange, Bool.and_eq_true, bne_iff_ne, decide_eq_true_eq, maxBackendControllers,
    Nat.one_le_iff_ne_zero]

/-! ## Pads -/

/-- A new pointer stamp for one controller. -/
def stampPad (c : Cold) (row i : Nat) : Cold :=
  let stamp := nextStamp c.nextPointerStamp
  { c.setPad row i fun p => { p with pointerStamp := stamp } with nextPointerStamp := stamp }

/-- The controller gives up its serial. -/
def clearPad (c : Cold) (row i : Nat) : Cold :=
  c.setPad row i fun p => { p with active := false, serialNo := 0 }

def adjustActiveCount (c : Cold) (row : Nat) (delta : Int) : Cold :=
  c.setConn row fun k => { k with activeControllerCount := k.activeControllerCount + delta }

def bumpEpoch (c : Cold) (row : Nat) : Cold :=
  c.setConn row fun k => { k with epoch := k.epoch + 1 }

/-- A controller takes a descriptor with a fresh plug generation and pointer stamp. -/
def takeDescriptor (c : Cold) (row i : Nat) (desc : ControllerDescriptor) : Cold :=
  let plugGen := nextStamp c.nextPlugGen
  let stamp := nextStamp c.nextPointerStamp
  { c.setPad row i fun p =>
      { p with controllerType := desc.type, identity := controllerIdentity desc.type
               caps := desc.caps, touchpadMode := safeTouchpadMode desc.touchpadMode
               preferredBackend := desc.preferredBackend
               plugGen := plugGen, pointerStamp := stamp } with
    nextPlugGen := plugGen, nextPointerStamp := stamp }

/-! ## Reading records back -/

@[simp] theorem conn?_setConn (c : Cold) (row r : Nat) {f : Connection → Connection}
    (hf : ∀ k, (f k).row = k.row) :
    (c.setConn row f).conn? r = if r = row then (c.conn? r).map f else c.conn? r := by
  have hpred : ((fun k : Connection => k.row == r) ∘ fun k => if k.row == row then f k else k) =
      fun k => k.row == r := by
    funext k
    by_cases hk : k.row = row <;> simp [hk, hf]
  rw [conn?, setConn, find?_map, hpred]
  by_cases hr : r = row
  · subst hr
    rw [if_pos rfl, conn?]
    cases h : c.connections.find? (fun k => k.row == r) with
    | none => rfl
    | some k =>
      have hk : k.row = r := by simpa using find?_some h
      simp [hk]
  · rw [if_neg hr, conn?]
    cases h : c.connections.find? (fun k => k.row == r) with
    | none => rfl
    | some k =>
      have hk : k.row = r := by simpa using find?_some h
      simp [hk, hr]

variable {k : Connection}

variable {c : Cold} {row : Nat}

theorem conn?_row (h : c.conn? row = some k) :
    k.row = row := by
  simpa using find?_some h

theorem mem_of_conn? (h : c.conn? row = some k) :
    k ∈ c.connections :=
  mem_of_find?_eq_some h

theorem conn_eq (h : c.conn? row = some k) :
    c.conn row = k := by
  rw [conn, h, Option.getD_some]

/-- Rows tell the records apart. -/
def RowsNodup (c : Cold) : Prop := (c.connections.map Connection.row).Nodup

theorem conn?_of_mem (hc : c.RowsNodup) (hk : k ∈ c.connections) :
    c.conn? k.row = some k := by
  cases h : c.conn? k.row with
  | none =>
    have hnone := find?_eq_none.1 h k hk
    simp at hnone
  | some k' =>
    have hk' := mem_of_conn? h
    have hrow := conn?_row h
    rw [inj_on_of_nodup_map hc hk' hk hrow]

/-- The record of a row, however it is found. -/
theorem conn?_eq_some_iff (hc : c.RowsNodup) :
    c.conn? row = some k ↔ k ∈ c.connections ∧ k.row = row := by
  constructor
  · intro h
    exact ⟨mem_of_conn? h, conn?_row h⟩
  · rintro ⟨hk, rfl⟩
    exact conn?_of_mem hc hk

end Cold

end Satellite
