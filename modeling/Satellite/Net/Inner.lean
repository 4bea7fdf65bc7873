import Satellite.Lib.Reading

/-!
# Decrypted messages

`parseInnerHeader` and `dispatchInnerMessage` of `net/inner_dispatch.cpp`, and the part of
`handleDatagram` in `net/receiver.cpp` that runs on the decrypted plaintext. The payload of a
message is the bytes its header declares: a read past them makes the model answer `none`. The
token, the counter and the sender are handed through unread; what the service answers to a
gamepad report is left out.
-/

namespace Satellite.Inner

open Reading Option

def msgGamepadData : UInt16 := 0x0001
def msgHeartbeatPing : UInt16 := 0x0002
def msgMotion : UInt16 := 0x000A
def msgBattery : UInt16 := 0x000B
def msgTouchpad : UInt16 := 0x000C
def msgMicAudio : UInt16 := 0x0012

def innerHeaderSize : Nat := 4
def gamepadDataMinLen : Nat := 13
def motionWirePayloadBytes : Nat := 16
def touchpadWirePayloadBytesV1 : Nat := 15
def touchpadWirePayloadBytesV2 : Nat := 18
def audioWireHeaderBytes : Nat := 3
def audioWireMinPayloadBytes : Nat := audioWireHeaderBytes + 1

/-! ## Integers of the wire -/

section Integers

variable (p : List UInt8) (i : Nat)

def readBE16 : Option UInt16 :=
  (p[i]?).bind fun a => (p[i + 1]?).bind fun b => some ((a.toUInt16 <<< 8) ||| b.toUInt16)

def readLE16 : Option UInt16 :=
  (p[i]?).bind fun a => (p[i + 1]?).bind fun b => some (a.toUInt16 ||| (b.toUInt16 <<< 8))

def readLE16s : Option Int16 := (readLE16 p i).bind fun v => some v.toInt16

def readLE32 : Option UInt32 :=
  (p[i]?).bind fun a => (p[i + 1]?).bind fun b => (p[i + 2]?).bind fun c =>
    (p[i + 3]?).bind fun d =>
      some (a.toUInt32 ||| (b.toUInt32 <<< 8) ||| (c.toUInt32 <<< 16) ||| (d.toUInt32 <<< 24))

end Integers

/-! ## Reports -/

structure GamepadReport where
  wButtons : UInt16
  bLeftTrigger : UInt8
  bRightTrigger : UInt8
  sThumbLX : Int16
  sThumbLY : Int16
  sThumbRX : Int16
  sThumbRY : Int16
  deriving DecidableEq

structure MotionReport where
  gyroX : Int16
  gyroY : Int16
  gyroZ : Int16
  accelX : Int16
  accelY : Int16
  accelZ : Int16
  timestampDeltaUs : UInt32
  deriving DecidableEq

structure BatteryReport where
  level : UInt8
  status : UInt8
  deriving DecidableEq

structure TouchpadFinger where
  active : Bool
  trackingId : UInt8
  x : Int16
  y : Int16
  deriving DecidableEq

structure TouchpadReport where
  finger0 : TouchpadFinger
  finger1 : TouchpadFinger
  buttonPressed : Bool
  rightPressed : Bool := false
  middlePressed : Bool := false
  eventTimeMs : UInt32
  scrollV : Int16 := 0
  deriving DecidableEq

/-- The `memcpy` of a report on a little-endian host. -/
def copyGamepadReport (p : List UInt8) : Option GamepadReport := do
  let wButtons ← readLE16 p 0
  let bLeftTrigger ← p[2]?
  let bRightTrigger ← p[3]?
  let sThumbLX ← readLE16s p 4
  let sThumbLY ← readLE16s p 6
  let sThumbRX ← readLE16s p 8
  let sThumbRY ← readLE16s p 10
  some { wButtons, bLeftTrigger, bRightTrigger, sThumbLX, sThumbLY, sThumbRX, sThumbRY }

def decodeMotionReport (p : List UInt8) : Option MotionReport := do
  let gyroX ← readLE16s p 0
  let gyroY ← readLE16s p 2
  let gyroZ ← readLE16s p 4
  let accelX ← readLE16s p 6
  let accelY ← readLE16s p 8
  let accelZ ← readLE16s p 10
  let timestampDeltaUs ← readLE32 p 12
  some { gyroX, gyroY, gyroZ, accelX, accelY, accelZ, timestampDeltaUs }

def decodeTouchpadReportV1 (p : List UInt8) : Option TouchpadReport := do
  let flags : UInt8 ← p[0]?
  let id0 ← p[1]?
  let x0 ← readLE16s p 2
  let y0 ← readLE16s p 4
  let id1 ← p[6]?
  let x1 ← readLE16s p 7
  let y1 ← readLE16s p 9
  let eventTimeMs ← readLE32 p 11
  some {
    finger0 := { active := flags &&& 0x01 != 0, trackingId := id0, x := x0, y := y0 }
    finger1 := { active := flags &&& 0x02 != 0, trackingId := id1, x := x1, y := y1 }
    buttonPressed := flags &&& 0x04 != 0
    eventTimeMs }

def decodeTouchpadReportV2 (p : List UInt8) : Option TouchpadReport := do
  let fingers : UInt8 ← p[0]?
  let buttons : UInt8 ← p[1]?
  let id0 ← p[2]?
  let x0 ← readLE16s p 3
  let y0 ← readLE16s p 5
  let id1 ← p[7]?
  let x1 ← readLE16s p 8
  let y1 ← readLE16s p 10
  let eventTimeMs ← readLE32 p 12
  let scrollV ← readLE16s p 16
  some {
    finger0 := { active := fingers &&& 0x01 != 0, trackingId := id0, x := x0, y := y0 }
    finger1 := { active := fingers &&& 0x02 != 0, trackingId := id1, x := x1, y := y1 }
    buttonPressed := buttons &&& 0x01 != 0
    rightPressed := buttons &&& 0x02 != 0
    middlePressed := buttons &&& 0x04 != 0
    eventTimeMs
    scrollV }

/-! ## Messages -/

inductive ServiceCall
  | gamepadData (ctrlIdx : UInt8) (report : GamepadReport)
  | heartbeat
  | motionData (ctrlIdx : UInt8) (report : MotionReport)
  | batteryUpdate (ctrlIdx : UInt8) (report : BatteryReport)
  | touchpadData (ctrlIdx : UInt8) (report : TouchpadReport)
  | micAudio (ctrlIdx : UInt8) (seq : UInt16) (opus : List UInt8)
  deriving DecidableEq

section Messages

variable (payload : List UInt8)

def gamepadMessage : Option ServiceCall :=
  (payload[0]?).bind fun ctrlIdx => (copyGamepadReport (payload.drop 1)).bind fun report =>
    some (.gamepadData ctrlIdx report)

def motionMessage : Option ServiceCall :=
  (payload[0]?).bind fun ctrlIdx => (decodeMotionReport (payload.drop 1)).bind fun report =>
    some (.motionData ctrlIdx report)

def batteryMessage : Option ServiceCall :=
  (payload[0]?).bind fun ctrlIdx => (payload[1]?).bind fun level => (payload[2]?).bind fun status =>
    some (.batteryUpdate ctrlIdx { level, status })

def touchpadMessage (msgLen : Nat) : Option ServiceCall :=
  (payload[0]?).bind fun ctrlIdx =>
    (if msgLen ≥ 1 + touchpadWirePayloadBytesV2 then decodeTouchpadReportV2 (payload.drop 1)
      else decodeTouchpadReportV1 (payload.drop 1)).bind fun report =>
        some (.touchpadData ctrlIdx report)

/-- The packet is what the message has after its header. -/
def micMessage (msgLen : Nat) : Option ServiceCall :=
  (payload[0]?).bind fun ctrlIdx => (readBE16 payload 1).bind fun seq =>
    if msgLen ≤ payload.length then
      some (.micAudio ctrlIdx seq
        ((payload.drop audioWireHeaderBytes).take (msgLen - audioWireHeaderBytes)))
    else none

/-- The call that `dispatchInnerMessage` makes, if any: `some none` for a message it drops. -/
def dispatchInnerMessage (msgType : UInt16) (msgLen : Nat) : Option (Option ServiceCall) :=
  if msgType = msgGamepadData then
    if msgLen < 13 then some none else (gamepadMessage payload).map some
  else if msgType = msgHeartbeatPing then some (some .heartbeat)
  else if msgType = msgMotion then
    if msgLen < 1 + motionWirePayloadBytes then some none else (motionMessage payload).map some
  else if msgType = msgBattery then
    if msgLen < 3 then some none else (batteryMessage payload).map some
  else if msgType = msgTouchpad then
    if msgLen < 1 + touchpadWirePayloadBytesV1 then some none
    else (touchpadMessage payload msgLen).map some
  else if msgType = msgMicAudio then
    if msgLen < audioWireMinPayloadBytes then some none else (micMessage payload msgLen).map some
  else some none

end Messages

structure InnerHeader where
  msgType : UInt16
  msgLen : UInt16
  deriving DecidableEq

/-- `some none` for a plaintext it refuses. -/
def parseInnerHeader (plaintext : List UInt8) : Option (Option InnerHeader) :=
  if plaintext.length < innerHeaderSize then some none
  else
    (readBE16 plaintext 0).bind fun msgType => (readBE16 plaintext 2).bind fun msgLen =>
      if innerHeaderSize + msgLen.toNat ≤ plaintext.length then some (some ⟨msgType, msgLen⟩)
      else some none

/-- What comes of a plaintext. -/
inductive Outcome
  | malformed
  /-- The lock-free entry, which also updates the session. -/
  | fused (call : ServiceCall)
  | dispatched (call : Option ServiceCall)
  deriving DecidableEq

def Outcome.submitted : Outcome → Option ServiceCall
  | .malformed => none
  | .fused call => some call
  | .dispatched call => call

def InnerHeader.payload (h : InnerHeader) (plaintext : List UInt8) : List UInt8 :=
  (plaintext.drop innerHeaderSize).take h.msgLen.toNat

/-- `handleDatagram` after the decryption. -/
def handlePlaintext (plaintext : List UInt8) : Option Outcome :=
  (parseInnerHeader plaintext).bind fun header => match header with
    | none => some .malformed
    | some h =>
      if h.msgType = msgGamepadData ∧ h.msgLen.toNat ≥ gamepadDataMinLen then
        (gamepadMessage (h.payload plaintext)).map .fused
      else
        (dispatchInnerMessage (h.payload plaintext) h.msgType h.msgLen.toNat).map .dispatched

/-! ## What a decoder reads -/

section Integers

variable {n i : Nat}

theorem reads_readBE16 (h : i + 1 < n := by decide) : Reads n fun p => readBE16 p i :=
  (Reads.get (by omega)).bind fun _ => (Reads.get h).bind fun _ => .pure _

theorem reads_readLE16 (h : i + 1 < n := by decide) : Reads n fun p => readLE16 p i :=
  (Reads.get (by omega)).bind fun _ => (Reads.get h).bind fun _ => .pure _

theorem reads_readLE16s (h : i + 1 < n := by decide) : Reads n fun p => readLE16s p i :=
  (reads_readLE16 h).bind fun _ => .pure _

theorem reads_readLE32 (h : i + 3 < n := by decide) : Reads n fun p => readLE32 p i :=
  (Reads.get (by omega)).bind fun _ => (Reads.get (by omega)).bind fun _ =>
    (Reads.get (by omega)).bind fun _ => (Reads.get h).bind fun _ => .pure _

end Integers

theorem reads_copyGamepadReport : Reads 12 copyGamepadReport :=
  (reads_readLE16).bind fun _ => (Reads.get).bind fun _ => (Reads.get).bind fun _ =>
    (reads_readLE16s).bind fun _ => (reads_readLE16s).bind fun _ => (reads_readLE16s).bind fun _ =>
    (reads_readLE16s).bind fun _ => .pure _

theorem reads_decodeMotionReport : Reads motionWirePayloadBytes decodeMotionReport :=
  (reads_readLE16s).bind fun _ => (reads_readLE16s).bind fun _ => (reads_readLE16s).bind fun _ =>
    (reads_readLE16s).bind fun _ => (reads_readLE16s).bind fun _ => (reads_readLE16s).bind fun _ =>
    (reads_readLE32).bind fun _ => .pure _

theorem reads_decodeTouchpadReportV1 : Reads touchpadWirePayloadBytesV1 decodeTouchpadReportV1 :=
  (Reads.get).bind fun _ => (Reads.get).bind fun _ => (reads_readLE16s).bind fun _ =>
    (reads_readLE16s).bind fun _ => (Reads.get).bind fun _ => (reads_readLE16s).bind fun _ =>
    (reads_readLE16s).bind fun _ => (reads_readLE32).bind fun _ => .pure _

theorem reads_decodeTouchpadReportV2 : Reads touchpadWirePayloadBytesV2 decodeTouchpadReportV2 :=
  (Reads.get).bind fun _ => (Reads.get).bind fun _ => (Reads.get).bind fun _ =>
    (reads_readLE16s).bind fun _ => (reads_readLE16s).bind fun _ => (Reads.get).bind fun _ =>
    (reads_readLE16s).bind fun _ => (reads_readLE16s).bind fun _ => (reads_readLE32).bind fun _ =>
    (reads_readLE16s).bind fun _ => .pure _

theorem reads_gamepadMessage : Reads 13 gamepadMessage :=
  (Reads.get).bind fun _ => (reads_copyGamepadReport.drop 1).bind fun _ => .pure _

theorem reads_motionMessage : Reads (1 + motionWirePayloadBytes) motionMessage :=
  (Reads.get).bind fun _ => (reads_decodeMotionReport.drop 1).bind fun _ => .pure _

theorem reads_batteryMessage : Reads 3 batteryMessage :=
  (Reads.get).bind fun _ => (Reads.get).bind fun _ => (Reads.get).bind fun _ => .pure _

/-- The version that the length of a touchpad message picks, by its payload. -/
def touchpadSize (msgLen : Nat) : Nat :=
  if msgLen ≥ 1 + touchpadWirePayloadBytesV2 then 1 + touchpadWirePayloadBytesV2
  else 1 + touchpadWirePayloadBytesV1

theorem reads_touchpadMessage (msgLen : Nat) :
    Reads (touchpadSize msgLen) fun payload => touchpadMessage payload msgLen := by
  unfold touchpadMessage touchpadSize
  split
  · exact (Reads.get).bind fun _ =>
      (reads_decodeTouchpadReportV2.drop 1).bind fun _ => .pure _
  · exact (Reads.get).bind fun _ =>
      (reads_decodeTouchpadReportV1.drop 1).bind fun _ => .pure _

variable {msgLen : Nat}

theorem reads_micMessage (h : audioWireMinPayloadBytes ≤ msgLen) :
    Reads msgLen fun payload => micMessage payload msgLen := by
  have hmin : 4 ≤ msgLen := h
  refine (Reads.get (by omega)).bind fun ctrlIdx => (reads_readBE16 (by omega)).bind fun seq => ?_
  constructor
  · exact fun xs hxs => ⟨_, if_pos hxs⟩
  · intro xs ys hxs hys htake
    rw [if_pos hxs, if_pos hys, List.take_drop, List.take_drop]
    have hlen : audioWireHeaderBytes + (msgLen - audioWireHeaderBytes) = msgLen :=
      Nat.add_sub_of_le (Nat.le_trans (by decide) h)
    rw [hlen, htake]

/-! ## One message -/

/-- The length from which on a message of a type is handled. -/
def minimumLen (msgType : UInt16) : Option Nat :=
  if msgType = msgGamepadData then some gamepadDataMinLen
  else if msgType = msgHeartbeatPing then some 0
  else if msgType = msgMotion then some (1 + motionWirePayloadBytes)
  else if msgType = msgBattery then some 3
  else if msgType = msgTouchpad then some (1 + touchpadWirePayloadBytesV1)
  else if msgType = msgMicAudio then some audioWireMinPayloadBytes
  else none

/-- The bytes of the payload that a handled message is made of. -/
def payloadSize (msgType : UInt16) (msgLen : Nat) : Nat :=
  if msgType = msgGamepadData then gamepadDataMinLen
  else if msgType = msgMotion then 1 + motionWirePayloadBytes
  else if msgType = msgBattery then 3
  else if msgType = msgTouchpad then touchpadSize msgLen
  else if msgType = msgMicAudio then msgLen
  else 0

/-- A type's decoder behind the check of its minimum. The declared length matters to it only for
what the message is made of. -/
structure Decodes (msgType : UInt16) (n : Nat) (f : Nat → List UInt8 → Option ServiceCall) :
    Prop where
  minimum : minimumLen msgType = some n
  dispatch : ∀ payload msgLen, dispatchInnerMessage payload msgType msgLen =
    if msgLen < n then some none else (f (payloadSize msgType msgLen) payload).map some
  reads : ∀ msgLen, n ≤ msgLen →
    Reads (payloadSize msgType msgLen) (f (payloadSize msgType msgLen))
  within : ∀ msgLen, n ≤ msgLen → payloadSize msgType msgLen ≤ msgLen

theorem touchpadSize_le (h : 1 + touchpadWirePayloadBytesV1 ≤ msgLen) :
    touchpadSize msgLen ≤ msgLen := by
  unfold touchpadSize
  split
  · assumption
  · exact h

/-- A touchpad message is decoded by its version. -/
theorem touchpadMessage_size (payload : List UInt8) (msgLen : Nat) :
    touchpadMessage payload (touchpadSize msgLen) = touchpadMessage payload msgLen := by
  by_cases hv2 : msgLen ≥ 1 + touchpadWirePayloadBytesV2
  · have hsize : touchpadSize msgLen ≥ 1 + touchpadWirePayloadBytesV2 :=
      Nat.le_of_eq (if_pos hv2).symm
    rw [touchpadMessage, touchpadMessage, if_pos hv2, if_pos hsize]
  · have hsize : ¬touchpadSize msgLen ≥ 1 + touchpadWirePayloadBytesV2 := by
      rw [touchpadSize, if_neg hv2]
      decide
    rw [touchpadMessage, touchpadMessage, if_neg hv2, if_neg hsize]

/-- The messages there are: those with a decoder, and those of no known type. -/
theorem decodes_or_dropped (msgType : UInt16) :
    (∃ n f, Decodes msgType n f) ∨
      (minimumLen msgType = none ∧
        ∀ payload msgLen, dispatchInnerMessage payload msgType msgLen = some none) := by
  by_cases hgamepad : msgType = msgGamepadData
  · subst hgamepad
    exact .inl ⟨13, fun _ => gamepadMessage, rfl, fun _ _ => rfl,
      fun _ _ => reads_gamepadMessage, fun _ h => h⟩
  by_cases hheartbeat : msgType = msgHeartbeatPing
  · subst hheartbeat
    exact .inl ⟨0, fun _ _ => some .heartbeat, rfl, fun _ _ => rfl, fun _ _ => .pure _,
      fun _ _ => Nat.zero_le _⟩
  by_cases hmotion : msgType = msgMotion
  · subst hmotion
    exact .inl ⟨_, fun _ => motionMessage, rfl, fun _ _ => rfl,
      fun _ _ => reads_motionMessage, fun _ h => h⟩
  by_cases hbattery : msgType = msgBattery
  · subst hbattery
    exact .inl ⟨_, fun _ => batteryMessage, rfl, fun _ _ => rfl,
      fun _ _ => reads_batteryMessage, fun _ h => h⟩
  by_cases htouchpad : msgType = msgTouchpad
  · subst htouchpad
    refine .inl ⟨_, fun size payload => touchpadMessage payload size, rfl, fun payload msgLen => ?_,
      fun msgLen _ => ?_, fun _ h => touchpadSize_le h⟩
    · show _ = if msgLen < _ then some none
        else (touchpadMessage payload (touchpadSize msgLen)).map some
      rw [touchpadMessage_size]
      rfl
    · show Reads (touchpadSize msgLen) fun payload => touchpadMessage payload (touchpadSize msgLen)
      simp only [touchpadMessage_size]
      exact reads_touchpadMessage msgLen
  by_cases hmic : msgType = msgMicAudio
  · subst hmic
    exact .inl ⟨_, fun size payload => micMessage payload size, rfl, fun _ _ => rfl,
      fun _ h => reads_micMessage h, fun _ _ => Nat.le_refl _⟩
  · refine .inr ⟨?_, fun payload msgLen => ?_⟩
    · simp only [minimumLen, hgamepad, hheartbeat, hmotion, hbattery, htouchpad, hmic, if_false]
    · simp only [dispatchInnerMessage, hgamepad, hheartbeat, hmotion, hbattery, htouchpad, hmic,
        if_false]

variable {payload : List UInt8}

/-- A payload of the declared length is never read past its end, and it is handled exactly from
its type's minimum on. -/
theorem dispatch_defined {msgType : UInt16}
    (hlen : payload.length = msgLen) :
    ∃ call, dispatchInnerMessage payload msgType msgLen = some call ∧
      ((∃ c, call = some c) ↔ ∃ n, minimumLen msgType = some n ∧ n ≤ msgLen) := by
  rcases decodes_or_dropped msgType with ⟨n, f, h⟩ | ⟨hnone, hdrop⟩
  · rw [h.dispatch payload, h.minimum]
    by_cases hshort : msgLen < n
    · refine ⟨none, if_pos hshort, ?_⟩
      constructor
      · rintro ⟨c, hc⟩
        cases hc
      · rintro ⟨m, hm, hle⟩
        cases hm
        omega
    · have hle := Nat.le_of_not_lt hshort
      have hwithin := h.within msgLen hle
      obtain ⟨c, hc⟩ := (h.reads msgLen hle).defined payload (by omega)
      refine ⟨some c, ?_, fun _ => ⟨n, rfl, hle⟩, fun _ => ⟨c, rfl⟩⟩
      rw [if_neg hshort, hc, map_some]
  · refine ⟨none, hdrop payload msgLen, ?_⟩
    rw [hnone]
    constructor
    · rintro ⟨c, hc⟩
      cases hc
    · rintro ⟨m, hm, -⟩
      cases hm

/-- Bytes past what a message is made of do not change what is dispatched. -/
theorem dispatch_eq_of_take {payload' : List UInt8} {msgType : UInt16}
    {msgLen' n : Nat} (hlen : payload.length = msgLen) (hlen' : payload'.length = msgLen')
    (hmin : minimumLen msgType = some n) (hle : n ≤ msgLen) (hle' : n ≤ msgLen')
    (hsize : payloadSize msgType msgLen = payloadSize msgType msgLen')
    (htake : payload.take (payloadSize msgType msgLen) =
      payload'.take (payloadSize msgType msgLen)) :
    dispatchInnerMessage payload msgType msgLen =
      dispatchInnerMessage payload' msgType msgLen' := by
  rcases decodes_or_dropped msgType with ⟨m, f, h⟩ | ⟨hnone, -⟩
  · obtain rfl : m = n := Option.some.inj (h.minimum.symm.trans hmin)
    have hwithin := h.within msgLen hle
    have hwithin' := h.within msgLen' hle'
    rw [h.dispatch, h.dispatch, if_neg (Nat.not_lt.mpr hle), if_neg (Nat.not_lt.mpr hle'), ← hsize,
      (h.reads msgLen hle).only payload payload' (by omega) (by omega) htake]
  · rw [hnone] at hmin
    cases hmin

/-! ## One plaintext -/

/-- A header is parsed in bounds, and an accepted one declares bytes that are there. -/
theorem parseInnerHeader_defined (plaintext : List UInt8) :
    ∃ header, parseInnerHeader plaintext = some header ∧
      ∀ h ∈ header, (h.payload plaintext).length = h.msgLen.toNat := by
  unfold parseInnerHeader
  by_cases hshort : plaintext.length < innerHeaderSize
  · exact ⟨none, if_pos hshort, nofun⟩
  · have hlong : 4 ≤ plaintext.length := Nat.le_of_not_lt hshort
    obtain ⟨msgType, htype⟩ := (reads_readBE16 (by decide : 0 + 1 < 4)).defined plaintext hlong
    obtain ⟨msgLen, hlen⟩ := (reads_readBE16 (by decide : 2 + 1 < 4)).defined plaintext hlong
    rw [if_neg hshort, htype, bind_some, hlen, bind_some]
    by_cases hfits : innerHeaderSize + msgLen.toNat ≤ plaintext.length
    · refine ⟨some ⟨msgType, msgLen⟩, if_pos hfits, ?_⟩
      rintro h hh
      cases hh
      rw [InnerHeader.payload, List.length_take, List.length_drop]
      exact Nat.min_eq_left (Nat.le_sub_of_add_le' hfits)
    · exact ⟨none, if_neg hfits, nofun⟩

/-- The fast path submits what the dispatcher would. -/
theorem handlePlaintext_submitted {plaintext : List UInt8} {h : InnerHeader}
    (hparse : parseInnerHeader plaintext = some (some h)) :
    (handlePlaintext plaintext).map Outcome.submitted =
      dispatchInnerMessage (h.payload plaintext) h.msgType h.msgLen.toNat := by
  rw [handlePlaintext, hparse, bind_some]
  dsimp only
  split
  · next hfast =>
    have hlen : ¬h.msgLen.toNat < 13 := Nat.not_lt.mpr hfast.2
    rw [dispatchInnerMessage, if_pos hfast.1, if_neg hlen, map_map]
    rfl
  · rw [map_map]
    exact map_id_fun' .. ▸ rfl

theorem dispatched {n : Nat} {m : Option ServiceCall} {call : ServiceCall} (hlen : n ≤ msgLen)
    (h : (if msgLen < n then some none else m.map some) = some (some call)) : m = some call := by
  rw [if_neg (Nat.not_lt.mpr hlen), map_eq_some_iff] at h
  obtain ⟨c, hc, hsome⟩ := h
  cases hsome
  exact hc

theorem touchpad_decoded
    (hlen : 1 + touchpadWirePayloadBytesV1 ≤ msgLen) {call : ServiceCall}
    (hcall : dispatchInnerMessage payload msgTouchpad msgLen = some (some call)) :
    ∃ ctrlIdx report, call = .touchpadData ctrlIdx report ∧
      (if 1 + touchpadWirePayloadBytesV2 ≤ msgLen then decodeTouchpadReportV2 (payload.drop 1)
        else decodeTouchpadReportV1 (payload.drop 1)) = some report := by
  have hc := dispatched (m := touchpadMessage payload msgLen) hlen hcall
  obtain ⟨ctrlIdx, -, hrest⟩ := bind_eq_some_iff.mp hc
  obtain ⟨report, hreport, hdone⟩ := bind_eq_some_iff.mp hrest
  exact ⟨ctrlIdx, report, (Option.some.inj hdone).symm, hreport⟩

theorem mic_decoded (hpayload : payload.length = msgLen)
    (hlen : audioWireMinPayloadBytes ≤ msgLen) {call : ServiceCall}
    (hcall : dispatchInnerMessage payload msgMicAudio msgLen = some (some call)) :
    ∃ ctrlIdx seq, call = .micAudio ctrlIdx seq (payload.drop audioWireHeaderBytes) := by
  have hc := dispatched (m := micMessage payload msgLen) hlen hcall
  obtain ⟨ctrlIdx, -, hrest⟩ := bind_eq_some_iff.mp hc
  obtain ⟨seq, -, hdone⟩ := bind_eq_some_iff.mp hrest
  have hall : (payload.drop audioWireHeaderBytes).take (msgLen - audioWireHeaderBytes) =
      payload.drop audioWireHeaderBytes := by
    apply List.take_of_length_le
    exact Nat.le_of_eq (by rw [List.length_drop, hpayload])
  rw [if_pos (Nat.le_of_eq hpayload.symm), hall] at hdone
  exact ⟨ctrlIdx, seq, (Option.some.inj hdone).symm⟩

/-- Every plaintext is read in bounds. A message is submitted exactly from its type's minimum on, a
touchpad message by the version it has room for, and bytes past what a message is made of change
nothing; a mic message is made of all its payload. -/
theorem inner_messages_in_bounds (plaintext : List UInt8) :
    ∃ outcome, handlePlaintext plaintext = some outcome ∧
      (parseInnerHeader plaintext = some none → outcome.submitted = none) ∧
      ∀ h, parseInnerHeader plaintext = some (some h) →
        ((∃ call, outcome.submitted = some call) ↔
          ∃ n, minimumLen h.msgType = some n ∧ n ≤ h.msgLen.toNat) ∧
        (h.msgType = msgTouchpad → 1 + touchpadWirePayloadBytesV1 ≤ h.msgLen.toNat →
          ∃ ctrlIdx report, outcome.submitted = some (.touchpadData ctrlIdx report) ∧
            (if 1 + touchpadWirePayloadBytesV2 ≤ h.msgLen.toNat
              then decodeTouchpadReportV2 ((h.payload plaintext).drop 1)
              else decodeTouchpadReportV1 ((h.payload plaintext).drop 1)) = some report) ∧
        (h.msgType = msgMicAudio → audioWireMinPayloadBytes ≤ h.msgLen.toNat →
          ∃ ctrlIdx seq, outcome.submitted =
            some (.micAudio ctrlIdx seq ((h.payload plaintext).drop audioWireHeaderBytes))) ∧
        ∀ plaintext' h' outcome' n, parseInnerHeader plaintext' = some (some h') →
          handlePlaintext plaintext' = some outcome' → h'.msgType = h.msgType →
          minimumLen h.msgType = some n → n ≤ h.msgLen.toNat → n ≤ h'.msgLen.toNat →
          payloadSize h.msgType h.msgLen.toNat = payloadSize h.msgType h'.msgLen.toNat →
          (h.payload plaintext).take (payloadSize h.msgType h.msgLen.toNat) =
            (h'.payload plaintext').take (payloadSize h.msgType h.msgLen.toNat) →
          outcome'.submitted = outcome.submitted := by
  obtain ⟨header, hparse, hpayload⟩ := parseInnerHeader_defined plaintext
  cases header with
  | none =>
    refine ⟨.malformed, by rw [handlePlaintext, hparse, bind_some], fun _ => rfl, ?_⟩
    intro h hh
    rw [hparse] at hh
    cases hh
  | some h =>
    have hlen := hpayload h rfl
    obtain ⟨call, hcall, hiff⟩ := @dispatch_defined _ (h.payload plaintext) h.msgType hlen
    have hsubmitted := (handlePlaintext_submitted hparse).trans hcall
    obtain ⟨outcome, houtcome, rfl⟩ := map_eq_some_iff.mp hsubmitted
    refine ⟨outcome, houtcome, fun hnone => ?_, fun h₁ hh₁ => ?_⟩
    · rw [hparse] at hnone
      cases hnone
    obtain rfl : h = h₁ := Option.some.inj (Option.some.inj (hparse.symm.trans hh₁))
    refine ⟨hiff, fun htype hmin => ?_, fun htype hmin => ?_, ?_⟩
    · obtain ⟨c, hc⟩ := hiff.mpr ⟨_, by rw [htype]; rfl, hmin⟩
      rw [hc, htype] at hcall
      obtain ⟨ctrlIdx, report, rfl, hreport⟩ := touchpad_decoded hmin hcall
      exact ⟨ctrlIdx, report, hc, hreport⟩
    · obtain ⟨c, hc⟩ := hiff.mpr ⟨_, by rw [htype]; rfl, hmin⟩
      rw [hc, htype] at hcall
      obtain ⟨ctrlIdx, seq, rfl⟩ := mic_decoded hlen hmin hcall
      exact ⟨ctrlIdx, seq, hc⟩
    · intro plaintext' h' outcome' n hparse' houtcome' htype hmin hle hle' hsize htake
      obtain ⟨header', hheader', hpayload'⟩ := parseInnerHeader_defined plaintext'
      obtain rfl : header' = some h' := Option.some.inj (hheader'.symm.trans hparse')
      have hother := handlePlaintext_submitted hparse'
      rw [houtcome', map_some, htype] at hother
      have hsame := dispatch_eq_of_take hlen (hpayload' h' rfl) hmin hle hle' hsize htake
      rw [hcall, ← hother] at hsame
      exact (Option.some.inj hsame).symm

example : handlePlaintext [0x00, 0x0B, 0x00, 0x03, 1, 50, 2, 0xEE] =
    some (.dispatched (some (.batteryUpdate 1 { level := 50, status := 2 }))) := by decide

end Satellite.Inner
