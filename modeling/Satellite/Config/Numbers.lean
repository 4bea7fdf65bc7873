import Satellite.Model.Types

/-!
# Integers out of JSON

`applyConfigPatch` of `core/config_patch.h` and `parseDescriptorObject` of
`core/descriptor_json.h`. A JSON integer is a signed or unsigned 64-bit number, and both
read it through `jsonTryInt`, which narrows it to the platform's `long` before any range is
checked.
-/

namespace Satellite.Numbers

/-- An integer the JSON parser can hold. -/
abbrev JsonInteger := { n : Int // -2 ^ 63 ≤ n ∧ n < 2 ^ 64 }

inductive Json
  | null
  | boolean (b : Bool)
  | integer (n : JsonInteger)
  | real
  | string (s : String)
  | array (items : List Json)
  | object (fields : List (String × Json))

abbrev Object := List (String × Json)

/-- The width of `long`: 32 bits on Windows. -/
inductive Long
  | bits32
  | bits64
  deriving DecidableEq

def Long.bits : Long → Nat
  | bits32 => 32
  | bits64 => 64

/-- `get<long>`: the value modulo the width, as a signed number. -/
def Long.get (w : Long) (n : JsonInteger) : Int := Int.bmod n (2 ^ w.bits)

section
variable (w : Long) (j : Object) (key : String)

def jsonTryInt : Option Int :=
  match j.lookup key with
  | some (.integer n) => some (w.get n)
  | _ => none

def jsonTryBool : Option Bool :=
  match j.lookup key with
  | some (.boolean b) => some b
  | _ => none

def jsonStr : String :=
  match j.lookup key with
  | some (.string s) => s
  | _ => ""

def jsonObject : Object :=
  match j.lookup key with
  | some (.object fields) => fields
  | _ => []

end

/-! ## The settings patch -/

/-- The settings a patch can reach. -/
structure Config where
  udpPort : Int
  autoStart : Bool
  discoveryBroadcastEnabled : Bool
  controllerAudio : Bool
  controllerAudioMic : Bool
  controllerAudioSpeaker : Bool
  controllerAudioHaptics : Bool
  controllerAudioKeepDefaultDevice : Bool
  crashReporting : Bool
  networkInterface : String
  deriving Inhabited

def udpPortMin : Int := 1024
def udpPortMax : Int := 65535

/-- The settings after the patch, and `udpPortRejected`. -/
def applyConfigPatch (w : Long) (body : Object) (cfg : Config) : Config × Bool :=
  let port : Int × Bool :=
    match jsonTryInt w body "udpPort" with
    | some port =>
      if udpPortMin ≤ port ∧ port ≤ udpPortMax then (port, false) else (cfg.udpPort, true)
    | none => (cfg.udpPort, false)
  let flag (key : String) (old : Bool) : Bool := (jsonTryBool body key).getD old
  ({ udpPort := port.1
     autoStart := flag "autoStart" cfg.autoStart
     discoveryBroadcastEnabled := flag "discoveryBroadcastEnabled" cfg.discoveryBroadcastEnabled
     controllerAudio := flag "controllerAudio" cfg.controllerAudio
     controllerAudioMic := flag "controllerAudioMic" cfg.controllerAudioMic
     controllerAudioSpeaker := flag "controllerAudioSpeaker" cfg.controllerAudioSpeaker
     controllerAudioHaptics := flag "controllerAudioHaptics" cfg.controllerAudioHaptics
     controllerAudioKeepDefaultDevice :=
       flag "controllerAudioKeepDefaultDevice" cfg.controllerAudioKeepDefaultDevice
     crashReporting := flag "crashReporting" cfg.crashReporting
     networkInterface :=
       if (body.lookup "networkInterface").isSome then jsonStr body "networkInterface"
       else cfg.networkInterface }, port.2)

/-! ## Controller descriptors -/

def capNames : List (String × UInt16) :=
  [("rumble", 0x0002), ("motion", 0x0004), ("analogTriggers", 0x0001), ("lightbar", 0x0008),
    ("triggerEffects", 0x0010), ("playerLeds", 0x0020), ("mic", 0x0040), ("speaker", 0x0080),
    ("hapticAudio", 0x0100)]

def capsFromJson (caps : Object) : UInt16 :=
  capNames.foldl (fun out cap =>
    if (jsonTryBool caps cap.1).getD false then out ||| cap.2 else out) 0

def touchpadModeFromName (name : String) : Nat :=
  match name with
  | "ds4" => 0
  | "mouse" => touchpadModeMouse
  | _ => touchpadModeOff

def saturateToByte (value : Int) : Nat := if value > 255 then 255 else (value % 256).toNat

/-- A field that must not be negative; anything above a byte saturates. -/
def byteField (value : Int) : Option Nat := if value < 0 then none else some (saturateToByte value)

section
variable (w : Long) (obj : Object) (requireIdx : Bool) (d : ControllerDescriptor)

def ctrlIdxField : Option Nat :=
  match jsonTryInt w obj "ctrlIdx" with
  | some idx => byteField idx
  | none => if requireIdx then none else some d.ctrlIdx

def typeField : Option Nat := (jsonTryInt w obj "type").bind byteField

def parseDescriptorObject : Option ControllerDescriptor := do
  let ctrlIdx ← ctrlIdxField w obj requireIdx d
  let type ← typeField w obj
  some
    { ctrlIdx := ctrlIdx
      type := type
      caps := capsFromJson (jsonObject obj "caps")
      preferredBackend := jsonStr obj "preferredBackend"
      touchpadMode := touchpadModeFromName (jsonStr obj "touchpadMode") }

end

/-! ## What an integer should do -/

/-- A patch with this port changes the port exactly when it lies in the range, and says so
when it does not. -/
def PortLaw (w : Long) (n : JsonInteger) : Prop :=
  ∀ body cfg, body.lookup "udpPort" = some (.integer n) →
    ((applyConfigPatch w body cfg).1.udpPort, (applyConfigPatch w body cfg).2) =
      if 1024 ≤ n.1 ∧ n.1 ≤ 65535 then (n.1, false) else (cfg.udpPort, true)

/-- A byte of a descriptor: refused when negative, kept up to 255, and 255 above. -/
def wantedByte (n : JsonInteger) : Option Nat :=
  if n.1 < 0 then none else if n.1 ≤ 255 then some n.1.toNat else some 255

/-- A descriptor with this index, or this type, and nothing wrong with the other of the two. -/
def DescriptorLaw (w : Long) (n : JsonInteger) : Prop :=
  ∀ obj requireIdx d,
    (obj.lookup "ctrlIdx" = some (.integer n) → (typeField w obj).isSome = true →
      (parseDescriptorObject w obj requireIdx d).map (·.ctrlIdx) = wantedByte n) ∧
    (obj.lookup "type" = some (.integer n) → (ctrlIdxField w obj requireIdx d).isSome = true →
      (parseDescriptorObject w obj requireIdx d).map (·.type) = wantedByte n)

variable {n : JsonInteger}

theorem Long.get_eq (w : Long) (hlo : -2 ^ (w.bits - 1) ≤ n.1)
    (hhi : n.1 < 2 ^ (w.bits - 1)) : w.get n = n := by
  cases w <;> simp only [Long.get, Long.bits] at * <;> exact Int.bmod_eq_of_le (by omega) (by omega)

/-- Every `long` holds what the two ranges ask about. -/
theorem Long.get_small (w : Long) (hlo : 0 ≤ n.1) (hhi : n.1 ≤ 65535) :
    w.get n = n := by
  cases w <;> exact Long.get_eq _ (by simp only [Long.bits]; omega) (by simp only [Long.bits]; omega)

theorem applyConfigPatch_port {w : Long} {body : Object} (cfg : Config)
    (h : body.lookup "udpPort" = some (.integer n)) :
    ((applyConfigPatch w body cfg).1.udpPort, (applyConfigPatch w body cfg).2) =
      if 1024 ≤ w.get n ∧ w.get n ≤ 65535 then (w.get n, false) else (cfg.udpPort, true) := by
  simp only [applyConfigPatch, jsonTryInt, h]
  rfl

theorem portLaw_iff (w : Long) (n : JsonInteger) :
    PortLaw w n ↔ (1024 ≤ w.get n ∧ w.get n ≤ 65535 → w.get n = n) := by
  constructor
  · intro h hin
    have heq := h [("udpPort", .integer n)] default rfl
    rw [applyConfigPatch_port _ rfl, if_pos hin] at heq
    split at heq
    · exact congrArg Prod.fst heq
    · cases congrArg Prod.snd heq
  · intro h body cfg hbody
    rw [applyConfigPatch_port cfg hbody]
    by_cases hin : 1024 ≤ w.get n ∧ w.get n ≤ 65535
    · rw [← h hin]
    · have hout : ¬ (1024 ≤ n.1 ∧ n.1 ≤ 65535) := fun hn =>
        hin (by rwa [w.get_small (by omega) hn.2])
      rw [if_neg hin, if_neg hout]

/-- The byte a narrowed value ends as is the wanted one exactly when the narrowing keeps the
sign and sends no large value below 255. -/
theorem byteField_get (w : Long) (n : JsonInteger) :
    byteField (w.get n) = wantedByte n ↔
      (w.get n < 0 ↔ n.1 < 0) ∧ (255 < n.1 → 255 ≤ w.get n) := by
  have hsmall : 0 ≤ n.1 → n.1 ≤ 255 → w.get n = n := fun h0 h1 => w.get_small h0 (by omega)
  simp only [byteField, wantedByte, saturateToByte]
  by_cases hneg : w.get n < 0 <;> by_cases hn : n.1 < 0
  · simp [hneg, hn]
    omega
  · simp only [hneg, hn, if_true, if_false]
    split <;> simp
  · simp [hneg, hn]
  · simp only [hneg, hn, if_false]
    split <;> split <;> simp <;> omega

section
variable {w : Long} {obj : Object} {requireIdx : Bool} {d : ControllerDescriptor}

theorem map_ctrlIdx_parse (htype : (typeField w obj).isSome = true) :
    (parseDescriptorObject w obj requireIdx d).map (·.ctrlIdx) =
      ctrlIdxField w obj requireIdx d := by
  obtain ⟨type, ht⟩ := Option.isSome_iff_exists.1 htype
  simp only [parseDescriptorObject, ht]
  cases ctrlIdxField w obj requireIdx d <;> rfl

theorem map_type_parse (hidx : (ctrlIdxField w obj requireIdx d).isSome = true) :
    (parseDescriptorObject w obj requireIdx d).map (·.type) = typeField w obj := by
  obtain ⟨ctrlIdx, hi⟩ := Option.isSome_iff_exists.1 hidx
  simp only [parseDescriptorObject, hi]
  cases typeField w obj <;> rfl

end

theorem descriptorLaw_iff (w : Long) (n : JsonInteger) :
    DescriptorLaw w n ↔ byteField (w.get n) = wantedByte n := by
  have hint : ∀ (obj : Object) key, obj.lookup key = some (.integer n) →
      jsonTryInt w obj key = some (w.get n) := fun obj key h => by rw [jsonTryInt, h]
  constructor
  · intro h
    have htype := (h [("type", .integer n)] false {}).2 rfl rfl
    rwa [map_type_parse rfl, typeField, hint _ _ rfl] at htype
  · intro h obj requireIdx d
    constructor
    · intro hidx htype
      rw [map_ctrlIdx_parse htype, ctrlIdxField, hint obj _ hidx]
      exact h
    · intro htype hidx
      rw [map_type_parse hidx, typeField, hint obj _ htype]
      exact h

/-- Which integers the narrowing to `long` spoils; none that `long` holds. -/
theorem json_integers_kept (w : Long) (n : JsonInteger) :
    (PortLaw w n ↔ (1024 ≤ w.get n ∧ w.get n ≤ 65535 → w.get n = n)) ∧
      (DescriptorLaw w n ↔ (w.get n < 0 ↔ n.1 < 0) ∧ (255 < n.1 → 255 ≤ w.get n)) ∧
      (-2 ^ (w.bits - 1) ≤ n.1 ∧ n.1 < 2 ^ (w.bits - 1) → PortLaw w n ∧ DescriptorLaw w n) := by
  rw [portLaw_iff, descriptorLaw_iff, byteField_get]
  refine ⟨.rfl, .rfl, fun ⟨hlo, hhi⟩ => ?_⟩
  rw [w.get_eq hlo hhi]
  omega

/-- A port far out of range is taken for 5000 where `long` has 32 bits, and a number that
needs 64 unsigned bits is refused as negative where it has 64. -/
theorem json_integers_wrapped :
    ¬ PortLaw .bits32 ⟨2 ^ 32 + 5000, by decide⟩ ∧ ¬ DescriptorLaw .bits64 ⟨2 ^ 63, by decide⟩ := by
  rw [portLaw_iff, descriptorLaw_iff]
  decide

end Satellite.Numbers
