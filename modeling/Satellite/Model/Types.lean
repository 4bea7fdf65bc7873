import Mathlib

/-!
# Sessions, pads and their published words

The records of `core/types.h` that the topology reads, and the word encodings of
`core/hot_table.h` through which the lock-free threads see them. Arrays are
functions from `Nat`; their bounds are the constants below. Device names, the
feedback caches of a controller and all log texts are left out.
-/

namespace Satellite

open List

/-! ## Limits -/

@[simp] def maxControllersPerConn : Nat := 16
@[simp] def maxBackendControllers : Nat := 16
@[simp] def maxSessions : Nat := 32
@[simp] def controllerTypeCount : Nat := 4
@[simp] def touchpadModeMouse : Nat := 1
@[simp] def touchpadModeOff : Nat := 2
@[simp] def touchpadModeCount : Nat := 3
@[simp] def heartbeatIntervalSec : Nat := 2
@[simp] def heartbeatMissMax : Nat := 5
@[simp] def heartbeatStallFactor : Nat := 2
@[simp] def restLivenessGraceSec : Nat := 15

/-- A number of seconds in ticks of the steady clock. -/
def seconds (n : Nat) : Nat := n * 1000000000

/-! ## Controllers -/

/-- The device family a pad materialises as. -/
inductive GamepadIdentity
  | xbox
  | ds4
  | dualSense
  | switchPro
  deriving DecidableEq

/-- The identity of a wire controller type; an unknown type reads as Xbox. -/
def controllerIdentity (type : Nat) : GamepadIdentity :=
  match type with
  | 1 => .ds4
  | 2 => .dualSense
  | 3 => .switchPro
  | _ => .xbox

/-- Among the valid types the identity determines the type. -/
theorem controllerIdentity_inj {a b : Nat} (ha : a < controllerTypeCount)
    (hb : b < controllerTypeCount) (h : controllerIdentity a = controllerIdentity b) : a = b := by
  simp only [controllerTypeCount] at ha hb
  interval_cases a <;> interval_cases b <;> simp_all [controllerIdentity]

/-- Modes past the known ones read as off. -/
def safeTouchpadMode (mode : Nat) : Nat :=
  if mode < touchpadModeCount then mode else touchpadModeOff

/-- What a client asks for at one controller index. -/
structure ControllerDescriptor where
  ctrlIdx : Nat := 0
  type : Nat := 0
  caps : UInt16 := 0
  touchpadMode : Nat := 2
  preferredBackend : String := ""
  deriving DecidableEq

/-- The codes an apply reports. -/
inductive ApplyResult
  | ok
  | noSlots
  | pluginFail
  | replugFail
  | backendUnavail
  | invalidType
  | invalidIndex
  deriving DecidableEq

/-- The cold record of one controller. -/
structure Controller where
  index : Nat := 0
  /-- Backend serial, 0 when not plugged. -/
  serialNo : Nat := 0
  active : Bool := false
  controllerType : Nat := 0
  identity : GamepadIdentity := .xbox
  caps : UInt16 := 0
  touchpadMode : Nat := 2
  preferredBackend : String := ""
  plugGen : Nat := 0
  pointerStamp : Nat := 0
  deriving DecidableEq

/-- A 32-byte key as the four words it is published in. -/
abbrev Key := Fin 4 → Nat

/-- The salt of a session, as the two random words it is drawn in. -/
abbrev Salt := Nat × Nat

/-- The cold record of one session. A `Connection*` is represented by its `row`. -/
structure Connection where
  connectionId : String := ""
  token : Nat := 0
  deviceId : String := ""
  slot : Nat := 0
  /-- Minted once per record; kept unbounded here and cut to a word where it is published. -/
  row : Nat := 0
  sessionKey : Key := fun _ => 0
  sessionSalt : Salt := (0, 0)
  /-- Kept unbounded here and cut to 16 bits wherever it is read. -/
  epoch : Nat := 0
  connectedAt : Nat := 0
  graceUntil : Nat := 0
  controllers : Nat → Controller := fun _ => {}
  activeControllerCount : Int := 0
  mouseControlGranted : Bool := false
  protocolVersion : Nat := 0
  stallLogged : Bool := false

/-- The indices a connection has room for. -/
def ctrlIndices : List Nat := List.range maxControllersPerConn

/-- The serials the backend has room for. -/
def serials : List Nat := (List.range maxBackendControllers).map (· + 1)

@[simp] theorem mem_ctrlIndices {i : Nat} : i ∈ ctrlIndices ↔ i < 16 := by
  simp [ctrlIndices]

@[simp] theorem mem_serials {s : Nat} : s ∈ serials ↔ 1 ≤ s ∧ s ≤ 16 := by
  constructor
  · intro h
    obtain ⟨i, hi, rfl⟩ := mem_map.1 h
    simp only [maxBackendControllers, mem_range] at hi
    omega
  · rintro ⟨h1, h16⟩
    refine mem_map.2 ⟨s - 1, ?_, by omega⟩
    simp only [maxBackendControllers, mem_range]
    omega

theorem serials_nodup : serials.Nodup :=
  List.Nodup.map (fun _ _ h => Nat.succ.inj h) nodup_range

/-! ## Published words -/

def hotCtrlActive : Nat := 2 ^ 31
def hotCtrlSerialMask : Nat := 2 ^ 8 - 1
def hotSessionMouse : Nat := 2 ^ 16

def hotCtrlWord (active : Bool) (serial : Nat) : Nat :=
  if active then hotCtrlActive ||| (serial &&& hotCtrlSerialMask) else 0

def hotPadInfo (caps : UInt16) (type touchpadMode : Nat) : Nat :=
  caps.toNat ||| (type <<< 16) ||| (touchpadMode <<< 24)

def hotSessionWord (epoch : Nat) (mouseGranted : Bool) : Nat :=
  epoch % 2 ^ 16 ||| (if mouseGranted then hotSessionMouse else 0)

def hotPadOwner (slot ctrlIdx : Nat) : Nat := ((slot + 1) <<< 8) ||| ctrlIdx

/-- The slot of an owner word, for a word that is not 0. -/
def hotOwnerSlot (owner : Nat) : Nat := (owner >>> 8) - 1
def hotOwnerIndex (owner : Nat) : Nat := owner % 2 ^ 8

def Controller.ctrlWord (c : Controller) : Nat := hotCtrlWord c.active c.serialNo

def Controller.padInfoWord (c : Controller) : Nat :=
  if c.active then hotPadInfo c.caps c.controllerType c.touchpadMode else 0

def Controller.padGenWord (c : Controller) : Nat := if c.active then c.plugGen else 0

def Controller.padStampWord (c : Controller) : Nat := if c.active then c.pointerStamp else 0

def Connection.sessionWord (c : Connection) : Nat :=
  hotSessionWord c.epoch c.mouseControlGranted

/-- The active bit of a controller word. -/
def ctrlWordActive (word : Nat) : Bool := word &&& hotCtrlActive != 0

/-- The serial of a controller word. -/
def ctrlWordSerial (word : Nat) : Nat := word &&& hotCtrlSerialMask

@[simp] theorem hotCtrlWord_false (s : Nat) : hotCtrlWord false s = 0 := rfl

theorem hotCtrlWord_true (s : Nat) : hotCtrlWord true s = 2 ^ 31 + s % 2 ^ 8 := by
  have hs : s % 2 ^ 8 < 2 ^ 31 := by omega
  have ho := Nat.two_pow_add_eq_or_of_lt hs 1
  rw [hotCtrlWord, if_pos rfl, hotCtrlActive, hotCtrlSerialMask, Nat.and_two_pow_sub_one_eq_mod]
  rw [mul_one] at ho
  exact ho.symm

@[simp] theorem ctrlWordActive_hotCtrlWord (a : Bool) (s : Nat) :
    ctrlWordActive (hotCtrlWord a s) = a := by
  cases a with
  | false => simp [ctrlWordActive]
  | true =>
    have hlow : (s % 2 ^ 8).testBit 31 = false := Nat.testBit_lt_two_pow (by omega)
    rw [ctrlWordActive, hotCtrlWord_true, hotCtrlActive, Nat.and_two_pow,
      Nat.testBit_two_pow_add_eq, hlow]
    rfl

/-- A controller word carries a serial of the backend's range exactly. -/
theorem ctrlWordSerial_hotCtrlWord {s : Nat} (hs : s < 2 ^ 8) :
    ctrlWordSerial (hotCtrlWord true s) = s := by
  rw [ctrlWordSerial, hotCtrlWord_true, hotCtrlSerialMask, Nat.and_two_pow_sub_one_eq_mod]
  omega

theorem hotCtrlWord_true_inj {s t : Nat} (hs : s < 2 ^ 8) (ht : t < 2 ^ 8)
    (h : hotCtrlWord true s = hotCtrlWord true t) : s = t := by
  rw [← ctrlWordSerial_hotCtrlWord hs, h, ctrlWordSerial_hotCtrlWord ht]

theorem hotPadOwner_eq {slot i : Nat} (hi : i < 2 ^ 8) :
    hotPadOwner slot i = 2 ^ 8 * (slot + 1) + i := by
  rw [Nat.two_pow_add_eq_or_of_lt hi, hotPadOwner, Nat.shiftLeft_eq, Nat.mul_comm]

@[simp] theorem hotOwnerSlot_hotPadOwner {slot i : Nat} (hi : i < 2 ^ 8) :
    hotOwnerSlot (hotPadOwner slot i) = slot := by
  rw [hotOwnerSlot, hotPadOwner_eq hi, Nat.shiftRight_eq_div_pow]
  omega

@[simp] theorem hotOwnerIndex_hotPadOwner {slot i : Nat} (hi : i < 2 ^ 8) :
    hotOwnerIndex (hotPadOwner slot i) = i := by
  rw [hotOwnerIndex, hotPadOwner_eq hi]
  omega

theorem hotPadOwner_ne_zero {slot i : Nat} (hi : i < 2 ^ 8) : hotPadOwner slot i ≠ 0 := by
  rw [hotPadOwner_eq hi]
  omega

/-- An owner word names one slot and one index. -/
theorem hotPadOwner_inj {a b i j : Nat} (hi : i < 2 ^ 8) (hj : j < 2 ^ 8)
    (h : hotPadOwner a i = hotPadOwner b j) : a = b ∧ i = j := by
  rw [hotPadOwner_eq hi, hotPadOwner_eq hj] at h
  omega

end Satellite
