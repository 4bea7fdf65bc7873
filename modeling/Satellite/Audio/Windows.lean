import Mathlib.Data.List.Flatten
import Satellite.Lib.Streams

/-!
# The windows of the outbound audio lanes

`handleSpeakerAudioFromBackend` and `handleHapticAudioFromBackend` get stereo samples in
batches of any size and cut them into windows of 960 frames. A window goes to the lane's encoder
or, for a client that can only rumble, to the reduction. What a codec and the hot table answer
is left open, call by call; a read outside the caller's batch makes the model answer `none`.
-/

namespace Satellite.Audio

open Blocks List Option

def audioFrameSamples : Nat := 960
def audioReadAttempts : Nat := 64
def capRumble : UInt16 := 0x0002
def capSpeaker : UInt16 := 0x0080
def capHapticAudio : UInt16 := 0x0100

inductive OutboundAudioLane
  | speaker
  | haptic
  deriving DecidableEq

/-- `AUDIO_SPEAKER_CHANNELS` and `AUDIO_HAPTIC_CHANNELS`. -/
def OutboundAudioLane.channels : OutboundAudioLane → Nat
  | .speaker => 2
  | .haptic => 2

structure AudioPolicy where
  speaker : Bool
  haptics : Bool
  deriving DecidableEq

structure AudioTarget where
  gen : Nat
  caps : UInt16
  deriving DecidableEq

inductive EndpointRead
  | bound
  | unbound
  | changing
  deriving DecidableEq

/-- What the lane meets outside, by the number of the call. -/
structure Outside where
  /-- Whether the codec factory allocates an encoder. -/
  makeEncoder : Nat → Bool
  /-- The packet of a window; an empty one is a failed encode. -/
  encode : Nat → List Int16 → List UInt8
  readAudioEndpoint : Nat → EndpointRead

structure AudioLane where
  gen : Nat := 0
  encoder : Bool := false
  pending : List Int16 := []
  seq : UInt16 := 0
  deriving DecidableEq

/-- A lane with its counters and what it has handed on. -/
structure LaneState where
  lane : AudioLane := {}
  makes : Nat := 0
  encodes : Nat := 0
  reads : Nat := 0
  silenceSuppressed : Nat := 0
  encodeFailed : Nat := 0
  /-- The windows given to the encoder, each with its sequence number. -/
  encoded : List (List Int16 × UInt16) := []
  sent : List (UInt16 × List UInt8) := []
  /-- The windows given to `reduceHapticWindow`. -/
  reduced : List (List Int16) := []
  deriving DecidableEq

/-- `len` samples of a caller's buffer from `start` on. -/
def readSlice (buffer : List Int16) (start len : Nat) : Option (List Int16) :=
  if start + len ≤ buffer.length then some ((buffer.drop start).take len) else none

def isDigitalSilence (pcm : List Int16) : Bool := pcm.all (· == 0)

/-! ## Cutting a batch -/

section Rewindow

variable {σ : Type} (channels : Nat) (handOn : σ → List Int16 → σ) (batch : List Int16)
  (frames : Nat)

/-- The whole windows of a batch, then its tail. -/
def bulk (pending : List Int16) : Nat → Nat → σ → Option (List Int16 × σ)
  | 0, _, _ => none
  | rounds + 1, consumed, s =>
    if frames - consumed ≥ audioFrameSamples then
      (readSlice batch (consumed * channels) (audioFrameSamples * channels)).bind fun window =>
        bulk pending rounds (consumed + audioFrameSamples) (handOn s window)
    else if consumed < frames then
      (readSlice batch (consumed * channels) ((frames - consumed) * channels)).map fun tail =>
        (tail, s)
    else some (pending, s)

/-- The body that `encodeAndSendAudio` and the reduction share: top up the tail of the earlier
batches, hand on whole windows, keep the new tail. -/
def rewindow (pending : List Int16) (s : σ) : Option (List Int16 × σ) :=
  let frameSamples := audioFrameSamples * channels
  if pending = [] then bulk channels handOn batch frames pending (frames + 1) 0 s
  else
    let need := frameSamples - pending.length
    let offered := frames * channels
    let take := if need < offered then need else offered
    (readSlice batch 0 take).bind fun head =>
      let pending := pending ++ head
      if pending.length < frameSamples then some (pending, s)
      else bulk channels handOn batch frames [] (frames + 1) (take / channels) (handOn s pending)

end Rewindow

/-! ## The lanes -/

/-- The lane of a plug: it starts afresh for a new one. -/
def AudioLane.forGen (lane : AudioLane) (gen : Nat) : AudioLane :=
  if lane.gen = gen then lane else { gen := gen }

namespace LaneState

variable (o : Outside)

/-- The attempts to send a packet: the hot table may be changing. -/
def sendPacket (seq : UInt16) (packet : List UInt8) : Nat → LaneState → LaneState
  | 0, st => st
  | attempts + 1, st =>
    let after := { st with reads := st.reads + 1 }
    match o.readAudioEndpoint st.reads with
    | .bound => { after with sent := after.sent ++ [(seq, packet)] }
    | .unbound => after
    | .changing => sendPacket seq packet attempts after

def sendAudioWindow (st : LaneState) (frame : List Int16) : LaneState :=
  if isDigitalSilence frame then { st with silenceSuppressed := st.silenceSuppressed + 1 }
  else
    let packet := o.encode st.encodes frame
    let seq := st.lane.seq
    let st := { st with
      encodes := st.encodes + 1
      encoded := st.encoded ++ [(frame, seq)]
      lane := { st.lane with seq := seq + 1 } }
    if packet = [] then { st with encodeFailed := st.encodeFailed + 1 }
    else sendPacket o seq packet audioReadAttempts st

def reduceHapticWindow (st : LaneState) (frame : List Int16) : LaneState :=
  { st with reduced := st.reduced ++ [frame] }

/-- `audioLane`. -/
def audioLane (st : LaneState) (gen : Nat) : LaneState := { st with lane := st.lane.forGen gen }

def keepTail (st : LaneState) (pending : List Int16) : LaneState :=
  { st with lane := { st.lane with pending := pending } }

/-- A lane without an encoder asks the factory for one. -/
def ensureEncoder (st : LaneState) : LaneState :=
  if st.lane.encoder then st
  else { st with
    makes := st.makes + 1
    lane := { st.lane with encoder := o.makeEncoder st.makes } }

def encodeAndSendAudio (lane : OutboundAudioLane) (target : AudioTarget) (batch : List Int16)
    (frames : Nat) (st : LaneState) : Option (Bool × LaneState) :=
  let st := (st.audioLane target.gen).ensureEncoder o
  if !st.lane.encoder then some (true, st)
  else
    (rewindow lane.channels (sendAudioWindow o) batch frames st.lane.pending st).map
      fun (pending, st) => (true, st.keepTail pending)

def handleSpeakerAudioFromBackend (policy : AudioPolicy) (target : Option AudioTarget)
    (batch : List Int16) (frames : Nat) (st : LaneState) : Option (Bool × LaneState) :=
  if frames = 0 then some (false, st)
  else if !policy.speaker then some (false, st)
  else match target with
    | none => some (false, st)
    | some target =>
      if target.caps &&& capSpeaker = 0 then some (false, st)
      else st.encodeAndSendAudio o .speaker target batch frames

def handleHapticAudioFromBackend (policy : AudioPolicy) (target : Option AudioTarget)
    (batch : List Int16) (frames : Nat) (st : LaneState) : Option (Bool × LaneState) :=
  if frames = 0 then some (false, st)
  else if !policy.haptics then some (false, st)
  else match target with
    | none => some (false, st)
    | some target =>
      if target.caps &&& capHapticAudio ≠ 0 then
        st.encodeAndSendAudio o .haptic target batch frames
      else if target.caps &&& capRumble = 0 then some (false, st)
      else
        let st := st.audioLane target.gen
        (rewindow OutboundAudioLane.haptic.channels reduceHapticWindow batch frames st.lane.pending
          st).map fun (pending, st) => (true, st.keepTail pending)

/-- The backend's callback of a lane. -/
def callback : OutboundAudioLane → AudioPolicy → Option AudioTarget → List Int16 → Nat →
    LaneState → Option (Bool × LaneState)
  | .speaker => handleSpeakerAudioFromBackend o
  | .haptic => handleHapticAudioFromBackend o

/-- One callback for each batch, under the same gates. -/
def callbacks (lane : OutboundAudioLane) (policy : AudioPolicy) (target : Option AudioTarget) :
    List (List Int16) → LaneState → Option LaneState
  | [], st => some st
  | batch :: batches, st =>
    (callback o lane policy target batch (batch.length / lane.channels) st).bind fun (_, st) =>
      callbacks lane policy target batches st

end LaneState

/-! ## One batch -/

theorem readSlice_eq {buffer : List Int16} {start len : Nat} (h : start + len ≤ buffer.length) :
    readSlice buffer start len = some ((buffer.drop start).take len) := if_pos h

section Rewindow

variable {σ : Type} {channels : Nat} {handOn : σ → List Int16 → σ} {batch : List Int16}
  {frames : Nat}

/-- From a frame of the batch on, its blocks are handed on and its rest is kept. -/
theorem bulk_eq (hch : 0 < channels) (hbatch : batch.length = frames * channels) (rounds : Nat) :
    ∀ {consumed : Nat} (s : σ), consumed ≤ frames → frames < consumed + rounds →
      bulk channels handOn batch frames [] rounds consumed s =
        some (rest (audioFrameSamples * channels) (batch.drop (consumed * channels)),
          (blocks (audioFrameSamples * channels) (batch.drop (consumed * channels))).foldl
            handOn s) := by
  have hpos : 0 < audioFrameSamples * channels := Nat.mul_pos (by decide) hch
  induction rounds with
  | zero =>
    intro consumed s hle hlt
    omega
  | succ rounds ih =>
    intro consumed s hle hlt
    have hlength : (batch.drop (consumed * channels)).length = (frames - consumed) * channels := by
      rw [length_drop, hbatch, Nat.sub_mul]
    rw [bulk]
    by_cases hmore : frames - consumed ≥ audioFrameSamples
    · have hframes : (consumed + audioFrameSamples) * channels ≤ batch.length := by
        rw [hbatch]
        apply Nat.mul_le_mul_right
        omega
      rw [Nat.add_mul] at hframes
      have hwhole : audioFrameSamples * channels ≤ (batch.drop (consumed * channels)).length := by
        rw [hlength]
        exact Nat.mul_le_mul_right _ hmore
      have hround : 0 < audioFrameSamples := by decide
      rw [if_pos hmore, readSlice_eq hframes, bind_some, ih _ (by omega) (by omega),
        blocks_of_le hpos hwhole, rest_of_le hpos hwhole, foldl_cons, drop_drop,
        Nat.add_mul]
    · have hshort : (batch.drop (consumed * channels)).length < audioFrameSamples * channels := by
        rw [hlength]
        exact Nat.mul_lt_mul_of_pos_right (by omega) hch
      rw [if_neg hmore, blocks_of_lt hshort, rest_of_lt hshort, foldl_nil]
      by_cases htail : consumed < frames
      · have hfits : consumed * channels + (frames - consumed) * channels ≤ batch.length := by
          rw [← Nat.add_mul, hbatch]
          apply Nat.mul_le_mul_right
          omega
        rw [if_pos htail, readSlice_eq hfits, map_some, ← hlength, take_length]
      · have hend : frames - consumed = 0 := by omega
        rw [hend, Nat.zero_mul] at hlength
        rw [if_neg htail, eq_nil_of_length_eq_zero hlength]

/-- What tops up the retained tail: whole frames of the batch, up to the end of the window or of
the batch. -/
theorem topUp (hch : 0 < channels) {pending : List Int16}
    (hpending : pending.length < audioFrameSamples * channels)
    (hwhole : channels ∣ pending.length) :
    ∃ n, (if audioFrameSamples * channels - pending.length < frames * channels
          then audioFrameSamples * channels - pending.length else frames * channels) =
        n * channels ∧ n ≤ frames ∧ pending.length + n * channels ≤ audioFrameSamples * channels ∧
      (pending.length + n * channels < audioFrameSamples * channels → n = frames) := by
  obtain ⟨held, hheld⟩ := hwhole
  rw [Nat.mul_comm] at hheld
  rw [hheld] at hpending ⊢
  have hlt : held < audioFrameSamples := Nat.lt_of_mul_lt_mul_right hpending
  rw [← Nat.sub_mul]
  split
  · next hneed =>
    have hneed : audioFrameSamples - held < frames := Nat.lt_of_mul_lt_mul_right hneed
    refine ⟨audioFrameSamples - held, rfl, Nat.le_of_lt hneed, ?_, fun hshort => ?_⟩
    · rw [← Nat.add_mul]
      exact Nat.mul_le_mul_right _ (by omega)
    · rw [← Nat.add_mul] at hshort
      have := Nat.lt_of_mul_lt_mul_right hshort
      omega
  · next hneed =>
    have hneed : ¬audioFrameSamples - held < frames := fun h =>
      hneed (Nat.mul_lt_mul_of_pos_right h hch)
    refine ⟨frames, rfl, Nat.le_refl _, ?_, fun _ => rfl⟩
    rw [← Nat.add_mul]
    exact Nat.mul_le_mul_right _ (by omega)

/-- One batch on top of what the earlier ones left over. -/
theorem rewindow_eq (hch : 0 < channels) (hbatch : batch.length = frames * channels)
    {pending : List Int16} (hpending : pending.length < audioFrameSamples * channels)
    (hwhole : channels ∣ pending.length) (s : σ) :
    rewindow channels handOn batch frames pending s =
      some (rest (audioFrameSamples * channels) (pending ++ batch),
        (blocks (audioFrameSamples * channels) (pending ++ batch)).foldl handOn s) := by
  have hpos : 0 < audioFrameSamples * channels := Nat.mul_pos (by decide) hch
  by_cases hempty : pending = []
  · have hbulk := @bulk_eq σ channels handOn batch frames hch hbatch (frames + 1) 0 s
      (Nat.zero_le _) (by omega)
    rw [Nat.zero_mul, drop_zero] at hbulk
    rw [rewindow, if_pos hempty, hempty, hbulk, nil_append]
  · obtain ⟨n, htake, hn, hfill, hshort⟩ := @topUp channels frames hch pending hpending hwhole
    have hin : n * channels ≤ batch.length := by
      rw [hbatch]
      exact Nat.mul_le_mul_right _ hn
    have hlength : (pending ++ batch.take (n * channels)).length =
        pending.length + n * channels := by
      rw [length_append, length_take, Nat.min_eq_left hin]
    have hread : readSlice batch 0 (n * channels) = some (batch.take (n * channels)) := by
      have hfits : 0 + n * channels ≤ batch.length := by omega
      rw [readSlice_eq hfits, drop_zero]
    simp only [rewindow, if_neg hempty, htake, hread, bind_some, hlength,
      Nat.mul_div_cancel _ hch]
    by_cases hlt : pending.length + n * channels < audioFrameSamples * channels
    · -- the whole batch went into the tail
      have hall : batch.take (n * channels) = batch := by
        rw [hshort hlt, ← hbatch, take_length]
      rw [hall] at hlength ⊢
      rw [if_pos hlt, blocks_of_lt (by omega), rest_of_lt (by omega), foldl_nil]
    · have hfull : (pending ++ batch.take (n * channels)).length =
          audioFrameSamples * channels := by omega
      have hsplit : pending ++ batch =
          (pending ++ batch.take (n * channels)) ++ batch.drop (n * channels) := by
        rw [append_assoc, take_append_drop]
      have hle : audioFrameSamples * channels ≤ (pending ++ batch).length := by
        rw [hsplit, length_append, hfull]
        exact Nat.le_add_right _ _
      rw [if_neg hlt, bulk_eq hch hbatch (frames + 1) _ hn (by omega), blocks_of_le hpos hle,
        rest_of_le hpos hle, hsplit, take_left' hfull, drop_left' hfull, foldl_cons]

end Rewindow

/-! ## Windows in a row -/

/-- Windows numbered from a sequence number on, which wraps. -/
def numbered : UInt16 → List (List Int16) → List (List Int16 × UInt16)
  | _, [] => []
  | seq, window :: windows => (window, seq) :: numbered (seq + 1) windows

def audible (windows : List (List Int16)) : List (List Int16) :=
  windows.filter fun window => !isDigitalSilence window

theorem uint16_ofNat_zero : UInt16.ofNat 0 = 0 := rfl

namespace LaneState

variable {o : Outside} {st : LaneState}

/-- Sending a packet changes only the reads and what was sent. -/
theorem sendPacket_eq (seq : UInt16) (packet : List UInt8) (attempts : Nat) :
    ∀ st : LaneState, ∃ reads sent,
      sendPacket o seq packet attempts st = { st with reads := reads, sent := sent } := by
  induction attempts with
  | zero => exact fun st => ⟨st.reads, st.sent, rfl⟩
  | succ attempts ih =>
    intro st
    simp only [sendPacket]
    split
    · exact ⟨_, _, rfl⟩
    · exact ⟨_, _, rfl⟩
    · obtain ⟨reads, sent, h⟩ := ih { st with reads := st.reads + 1 }
      exact ⟨reads, sent, h⟩

/-- A window: silence leaves the lane as it is, any other window takes one sequence number. -/
theorem sendAudioWindow_eq (st : LaneState) (frame : List Int16) :
    (st.sendAudioWindow o frame).encoded =
        st.encoded ++ numbered st.lane.seq (audible [frame]) ∧
      (st.sendAudioWindow o frame).lane =
        { st.lane with seq := st.lane.seq + UInt16.ofNat (audible [frame]).length } := by
  unfold sendAudioWindow
  by_cases hsilent : isDigitalSilence frame = true
  · have hnone : audible [frame] = [] := by simp [audible, hsilent]
    rw [if_pos hsilent, hnone, numbered, append_nil, length_nil, uint16_ofNat_zero,
      UInt16.add_zero]
    exact ⟨rfl, rfl⟩
  · have hone : audible [frame] = [frame] := by simp [audible, hsilent]
    rw [if_neg hsilent, hone]
    dsimp only
    split
    · exact ⟨rfl, rfl⟩
    · obtain ⟨reads, sent, h⟩ := sendPacket_eq (o := o) st.lane.seq (o.encode st.encodes frame)
        audioReadAttempts { st with
          encodes := st.encodes + 1
          encoded := st.encoded ++ [(frame, st.lane.seq)]
          lane := { st.lane with seq := st.lane.seq + 1 } }
      rw [h]
      exact ⟨rfl, rfl⟩

theorem numbered_append (ws ws' : List (List Int16)) : ∀ seq : UInt16,
    numbered seq (ws ++ ws') =
      numbered seq ws ++ numbered (seq + UInt16.ofNat ws.length) ws' := by
  induction ws with
  | nil =>
    intro seq
    rw [nil_append, numbered, nil_append, length_nil, uint16_ofNat_zero,
      UInt16.add_zero]
  | cons w ws ih =>
    intro seq
    rw [cons_append, numbered, numbered, ih, cons_append, length_cons,
      Nat.add_comm, UInt16.ofNat_add, UInt16.add_assoc]
    rfl

theorem sendAudioWindows_eq (ws : List (List Int16)) : ∀ st : LaneState,
    (ws.foldl (sendAudioWindow o) st).encoded =
        st.encoded ++ numbered st.lane.seq (audible ws) ∧
      (ws.foldl (sendAudioWindow o) st).lane =
        { st.lane with seq := st.lane.seq + UInt16.ofNat (audible ws).length } := by
  induction ws with
  | nil =>
    intro st
    exact ⟨(append_nil _).symm, by rw [audible, filter_nil, length_nil,
      uint16_ofNat_zero, UInt16.add_zero, foldl_nil]⟩
  | cons w ws ih =>
    intro st
    obtain ⟨hencoded, hlane⟩ := sendAudioWindow_eq (o := o) st w
    obtain ⟨hencoded', hlane'⟩ := ih (st.sendAudioWindow o w)
    have hsplit : audible (w :: ws) = audible [w] ++ audible ws := by
      rw [audible, audible, audible, ← filter_append]
      rfl
    rw [foldl_cons, hencoded', hlane', hencoded, hlane, hsplit, numbered_append,
      append_assoc, length_append, UInt16.ofNat_add, UInt16.add_assoc]
    exact ⟨rfl, rfl⟩

theorem reduceHapticWindows_eq (ws : List (List Int16)) : ∀ st : LaneState,
    ws.foldl reduceHapticWindow st = { st with reduced := st.reduced ++ ws } := by
  induction ws with
  | nil =>
    intro st
    rw [foldl_nil, append_nil]
  | cons w ws ih =>
    intro st
    rw [foldl_cons, ih, reduceHapticWindow, append_assoc]
    rfl

/-! ## Batches in a row -/

/-- The samples of a window of a lane. -/
def windowSamples (lane : OutboundAudioLane) : Nat := audioFrameSamples * lane.channels

variable {lane : OutboundAudioLane} {gen : Nat}

theorem channels_pos (lane : OutboundAudioLane) : 0 < lane.channels := by
  cases lane <;> decide

theorem windowSamples_pos (lane : OutboundAudioLane) : 0 < windowSamples lane := by
  cases lane <;> decide

/-- A lane whose encoder has been given `stream`. -/
structure Encodes (lane : OutboundAudioLane) (gen : Nat) (before : List (List Int16 × UInt16))
    (stream : List Int16) (st : LaneState) : Prop where
  gen_eq : st.lane.gen = gen
  encoder : st.lane.encoder = true
  whole : lane.channels ∣ stream.length
  pending : st.lane.pending = rest (windowSamples lane) stream
  seq : st.lane.seq = UInt16.ofNat (audible (blocks (windowSamples lane) stream)).length
  encoded : st.encoded = before ++ numbered 0 (audible (blocks (windowSamples lane) stream))

variable {stream : List Int16}

theorem channels_dvd_rest (h : lane.channels ∣ stream.length) :
    lane.channels ∣ (rest (windowSamples lane) stream).length := by
  rw [length_rest]
  exact (Nat.dvd_mod_iff (Nat.dvd_mul_left _ _)).mpr h

theorem audible_append (ws ws' : List (List Int16)) :
    audible (ws ++ ws') = audible ws ++ audible ws' := filter_append ..

variable {before : List (List Int16 × UInt16)}

/-- A lane that has its encoder asks for no other. -/
theorem Encodes.ensured
    (h : Encodes lane gen before stream st) : (st.audioLane gen).ensureEncoder o = st := by
  have hgen : st.audioLane gen = st := by
    rw [audioLane, AudioLane.forGen, if_pos h.gen_eq]
  rw [hgen, ensureEncoder, if_pos h.encoder]

variable {frames : Nat}

/-- One batch, once the lane has its encoder. -/
theorem Encodes.batch {batch : List Int16}
    {target : AudioTarget}
    (h : Encodes lane target.gen before stream ((st.audioLane target.gen).ensureEncoder o))
    (hbatch : batch.length = frames * lane.channels) :
    ∃ st', st.encodeAndSendAudio o lane target batch frames = some (true, st') ∧
      Encodes lane target.gen before (stream ++ batch) st' := by
  rw [encodeAndSendAudio]
  generalize (st.audioLane target.gen).ensureEncoder o = st at h
  have hrest := length_rest_lt (windowSamples_pos lane) stream
  have hcut := @rewindow_eq LaneState lane.channels (sendAudioWindow o) batch frames
    (channels_pos lane) hbatch (rest (windowSamples lane) stream) hrest
    (channels_dvd_rest h.whole) st
  have hblocks := blocks_append (windowSamples_pos lane) stream batch
  obtain ⟨hencoded, hafter⟩ := sendAudioWindows_eq (o := o)
    (blocks (windowSamples lane) (rest (windowSamples lane) stream ++ batch)) st
  refine ⟨((blocks (windowSamples lane) (rest (windowSamples lane) stream ++ batch)).foldl
    (sendAudioWindow o) st).keepTail (rest (windowSamples lane)
      (rest (windowSamples lane) stream ++ batch)), ?_, ⟨?_, ?_, ?_, ?_, ?_, ?_⟩⟩
  · simp only [h.encoder, Bool.not_true, Bool.false_eq_true, if_false, h.pending, hcut,
      map_some]
    rfl
  · exact (congrArg AudioLane.gen hafter).trans h.gen_eq
  · exact (congrArg AudioLane.encoder hafter).trans h.encoder
  · rw [length_append]
    exact Nat.dvd_add h.whole (hbatch ▸ Nat.dvd_mul_left _ _)
  · exact (rest_append (windowSamples_pos lane) stream batch).symm
  · refine (congrArg AudioLane.seq hafter).trans ?_
    rw [hblocks, audible_append, length_append, UInt16.ofNat_add, ← h.seq]
  · refine hencoded.trans ?_
    rw [hblocks, audible_append, numbered_append, h.encoded, h.seq, UInt16.zero_add,
      append_assoc]

/-- The path that the gates leave open to a batch. -/
inductive Route
  | encode
  | reduce
  deriving DecidableEq

def route (lane : OutboundAudioLane) (policy : AudioPolicy) (target : AudioTarget) :
    Option Route :=
  match lane with
  | .speaker =>
    if policy.speaker && target.caps &&& capSpeaker != 0 then some .encode else none
  | .haptic =>
    if !policy.haptics then none
    else if target.caps &&& capHapticAudio != 0 then some .encode
    else if target.caps &&& capRumble != 0 then some .reduce
    else none

/-- The batches from the one at which the factory first allocates an encoder, where `makes`
calls of it were made before. -/
def served (o : Outside) : Nat → List (List Int16) → List (List Int16)
  | _, [] => []
  | makes, batch :: batches =>
    if o.makeEncoder makes then batch :: batches else served o (makes + 1) batches

variable {policy : AudioPolicy} {target : AudioTarget}

theorem callback_encode (h : route lane policy target = some .encode) {batch : List Int16}
    (hframes : frames ≠ 0) : callback o lane policy (some target) batch frames st =
      st.encodeAndSendAudio o lane target batch frames := by
  cases lane with
  | speaker =>
    simp only [route, ite_none_right_eq_some, Bool.and_eq_true, bne_iff_ne] at h
    simp only [callback, handleSpeakerAudioFromBackend, if_neg hframes, h.1.1, h.1.2,
      Bool.not_true, Bool.false_eq_true, if_false]
  | haptic =>
    simp only [route] at h
    split at h
    · cases h
    · next hpolicy =>
      split at h
      · next hcap =>
        simp only [callback, handleHapticAudioFromBackend, if_neg hframes, if_neg hpolicy,
          if_pos (bne_iff_ne.mp hcap)]
      · split at h <;> cases h

theorem callback_reduce (h : route lane policy target = some .reduce) {batch : List Int16}
    (hframes : frames ≠ 0) : callback o lane policy (some target) batch frames st =
      (rewindow lane.channels reduceHapticWindow batch frames (st.audioLane target.gen).lane.pending
        (st.audioLane target.gen)).map fun (pending, st) => (true, st.keepTail pending) := by
  cases lane with
  | speaker =>
    simp only [route] at h
    split at h <;> cases h
  | haptic =>
    simp only [route] at h
    split at h
    · cases h
    · next hpolicy =>
      split at h
      · cases h
      · next hcap =>
        split at h
        · next hrumble =>
          have hcap : ¬target.caps &&& capHapticAudio ≠ 0 := fun hne => hcap (bne_iff_ne.mpr hne)
          simp only [callback, handleHapticAudioFromBackend, if_neg hframes, if_neg hpolicy,
            if_neg hcap, if_neg (bne_iff_ne.mp hrumble)]
        · cases h

theorem frames_of_batch {batch : List Int16} (hne : batch ≠ [])
    (hdvd : lane.channels ∣ batch.length) :
    batch.length = batch.length / lane.channels * lane.channels ∧
      batch.length / lane.channels ≠ 0 := by
  have hmul := (Nat.div_mul_cancel hdvd).symm
  refine ⟨hmul, fun hzero => hne ?_⟩
  rw [hzero, Nat.zero_mul] at hmul
  exact eq_nil_of_length_eq_zero hmul

variable {batches : List (List Int16)}

/-- A run of a lane that has its encoder. -/
theorem Encodes.callbacks
    (hroute : route lane policy target = some .encode) :
    ∀ {st : LaneState} {stream : List Int16}, Encodes lane target.gen before stream st →
    (∀ batch ∈ batches, batch ≠ [] ∧ lane.channels ∣ batch.length) →
    ∃ st', callbacks o lane policy (some target) batches st = some st' ∧
      Encodes lane target.gen before (stream ++ batches.flatten) st' := by
  induction batches with
  | nil =>
    intro st stream h _
    rw [flatten_nil, append_nil]
    exact ⟨st, rfl, h⟩
  | cons batch batches ih =>
    intro st stream h hbatches
    obtain ⟨hne, hdvd⟩ := hbatches batch mem_cons_self
    obtain ⟨hlength, hframes⟩ := frames_of_batch hne hdvd
    have hensured : Encodes lane target.gen before stream
        ((st.audioLane target.gen).ensureEncoder o) := by
      rw [h.ensured]
      exact h
    obtain ⟨st₁, hcall, hst₁⟩ := hensured.batch hlength
    obtain ⟨st₂, hrun, hst₂⟩ := ih hst₁ fun b hb => hbatches b (mem_cons_of_mem _ hb)
    refine ⟨st₂, ?_, ?_⟩
    · rw [LaneState.callbacks, callback_encode hroute hframes, hcall, bind_some]
      exact hrun
    · rw [flatten_cons, ← append_assoc]
      exact hst₂

/-- What a plug's batches have come to: the windows of `stream`, numbered, and its tail. -/
structure Encoded (lane : OutboundAudioLane) (gen : Nat) (before : List (List Int16 × UInt16))
    (stream : List Int16) (st : LaneState) : Prop where
  windows : st.encoded = before ++ numbered 0 (audible (blocks (windowSamples lane) stream))
  tail : (st.lane.forGen gen).pending = rest (windowSamples lane) stream
  seq : (st.lane.forGen gen).seq =
    UInt16.ofNat (audible (blocks (windowSamples lane) stream)).length

theorem Encodes.toEncoded
    (h : Encodes lane gen before stream st) : Encoded lane gen before stream st := by
  have hgen : st.lane.forGen gen = st.lane := if_pos h.gen_eq
  exact ⟨h.encoded, by rw [hgen, h.pending], by rw [hgen, h.seq]⟩

theorem Encoded.fresh (h : st.lane.forGen gen = { gen := gen }) :
    Encoded lane gen st.encoded [] st := by
  have hlt : ([] : List Int16).length < windowSamples lane := windowSamples_pos lane
  refine ⟨?_, ?_, ?_⟩
  · rw [blocks_of_lt hlt]
    exact (append_nil _).symm
  · rw [h, rest_of_lt hlt]
  · rw [h, blocks_of_lt hlt]
    rfl

/-- The first batch that finds a factory that allocates. -/
theorem encodes_of_made (h : st.lane.forGen gen = { gen := gen })
    (hmade : o.makeEncoder st.makes = true) :
    Encodes lane gen st.encoded [] ((st.audioLane gen).ensureEncoder o) := by
  have hlt : ([] : List Int16).length < windowSamples lane := windowSamples_pos lane
  have hensured : (st.audioLane gen).ensureEncoder o = { st with
      makes := st.makes + 1, lane := { gen := gen, encoder := true } } := by
    simp only [audioLane, h, ensureEncoder, Bool.false_eq_true, if_false, hmade]
  rw [hensured]
  refine ⟨rfl, rfl, Nat.dvd_zero _, (rest_of_lt hlt).symm, ?_, ?_⟩
  · rw [blocks_of_lt hlt]
    rfl
  · rw [blocks_of_lt hlt]
    exact (append_nil _).symm

/-- A run from the plug on, over every way the factory may answer. -/
theorem callbacks_encode
    (hroute : route lane policy target = some .encode) :
    ∀ {st : LaneState}, st.lane.forGen target.gen = { gen := target.gen } →
    (∀ batch ∈ batches, batch ≠ [] ∧ lane.channels ∣ batch.length) →
    ∃ st', callbacks o lane policy (some target) batches st = some st' ∧
      Encoded lane target.gen st.encoded (served o st.makes batches).flatten st' := by
  induction batches with
  | nil => exact fun hplug _ => ⟨_, rfl, .fresh hplug⟩
  | cons batch batches ih =>
    intro st hplug hbatches
    obtain ⟨hne, hdvd⟩ := hbatches batch mem_cons_self
    obtain ⟨hlength, hframes⟩ := frames_of_batch hne hdvd
    have hrest := fun b hb => hbatches b (mem_cons_of_mem batch hb)
    by_cases hmade : o.makeEncoder st.makes = true
    · obtain ⟨st₁, hcall, hst₁⟩ := (encodes_of_made hplug hmade).batch hlength
      obtain ⟨st₂, hrun, hst₂⟩ := Encodes.callbacks hroute hst₁ hrest
      refine ⟨st₂, ?_, ?_⟩
      · rw [callbacks, callback_encode hroute hframes, hcall, bind_some]
        exact hrun
      · rw [served, if_pos hmade, flatten_cons]
        exact hst₂.toEncoded
    · -- the batch is accepted and dropped
      have hcall : st.encodeAndSendAudio o lane target batch (batch.length / lane.channels) =
          some (true, { st with makes := st.makes + 1, lane := { gen := target.gen } }) := by
        simp only [encodeAndSendAudio, audioLane, hplug, ensureEncoder, Bool.false_eq_true,
          if_false, Bool.not_eq_true _ ▸ hmade, Bool.not_false, if_true]
      obtain ⟨st₂, hrun, hst₂⟩ := @ih { st with
        makes := st.makes + 1, lane := { gen := target.gen } } (if_pos rfl) hrest
      refine ⟨st₂, ?_, ?_⟩
      · rw [callbacks, callback_encode hroute hframes, hcall, bind_some]
        exact hrun
      · rw [served, if_neg hmade]
        exact hst₂

/-- What the reduction has been given of a plug's batches, and the tail it keeps. -/
structure Reduced (lane : OutboundAudioLane) (gen : Nat) (before : List (List Int16))
    (stream : List Int16) (st : LaneState) : Prop where
  whole : lane.channels ∣ stream.length
  windows : st.reduced = before ++ blocks (windowSamples lane) stream
  tail : (st.lane.forGen gen).pending = rest (windowSamples lane) stream

theorem Reduced.fresh (h : st.lane.forGen gen = { gen := gen }) :
    Reduced lane gen st.reduced [] st := by
  have hlt : ([] : List Int16).length < windowSamples lane := windowSamples_pos lane
  refine ⟨Nat.dvd_zero _, ?_, ?_⟩
  · rw [blocks_of_lt hlt, append_nil]
  · rw [h, rest_of_lt hlt]

theorem forGen_gen (l : AudioLane) (gen : Nat) : (l.forGen gen).gen = gen := by
  rw [AudioLane.forGen]
  split
  · assumption
  · rfl

/-- One batch to the reduction. -/
theorem Reduced.batch {before : List (List Int16)} {batch : List Int16}
    (hroute : route lane policy target = some .reduce)
    (h : Reduced lane target.gen before stream st)
    (hbatch : batch.length = frames * lane.channels) (hframes : frames ≠ 0) :
    ∃ st', callback o lane policy (some target) batch frames st = some (true, st') ∧
      Reduced lane target.gen before (stream ++ batch) st' := by
  have hcut := @rewindow_eq LaneState lane.channels reduceHapticWindow batch frames
    (channels_pos lane) hbatch (rest (windowSamples lane) stream)
    (length_rest_lt (windowSamples_pos lane) stream) (channels_dvd_rest h.whole)
    (st.audioLane target.gen)
  have htail : (st.audioLane target.gen).lane.pending = rest (windowSamples lane) stream := h.tail
  rw [callback_reduce hroute hframes, htail, hcut, map_some, reduceHapticWindows_eq]
  refine ⟨_, rfl, ?_, ?_, ?_⟩
  · rw [length_append]
    exact Nat.dvd_add h.whole (hbatch ▸ Nat.dvd_mul_left _ _)
  · rw [blocks_append (windowSamples_pos lane), ← append_assoc, ← h.windows]
    rfl
  · have hkept : AudioLane.forGen { st.lane.forGen target.gen with
        pending := rest (windowSamples lane) (rest (windowSamples lane) stream ++ batch) }
        target.gen = _ := if_pos (forGen_gen st.lane target.gen)
    rw [rest_append (windowSamples_pos lane)]
    exact congrArg AudioLane.pending hkept

theorem Reduced.callbacks {before : List (List Int16)}
    (hroute : route lane policy target = some .reduce) :
    ∀ {st : LaneState} {stream : List Int16}, Reduced lane target.gen before stream st →
    (∀ batch ∈ batches, batch ≠ [] ∧ lane.channels ∣ batch.length) →
    ∃ st', callbacks o lane policy (some target) batches st = some st' ∧
      Reduced lane target.gen before (stream ++ batches.flatten) st' := by
  induction batches with
  | nil =>
    intro st stream h _
    rw [flatten_nil, append_nil]
    exact ⟨st, rfl, h⟩
  | cons batch batches ih =>
    intro st stream h hbatches
    obtain ⟨hne, hdvd⟩ := hbatches batch mem_cons_self
    obtain ⟨hlength, hframes⟩ := frames_of_batch hne hdvd
    obtain ⟨st₁, hcall, hst₁⟩ := h.batch (o := o) hroute hlength hframes
    obtain ⟨st₂, hrun, hst₂⟩ := ih hst₁ fun b hb => hbatches b (mem_cons_of_mem _ hb)
    refine ⟨st₂, ?_, ?_⟩
    · rw [LaneState.callbacks, hcall, bind_some]
      exact hrun
    · rw [flatten_cons, ← append_assoc]
      exact hst₂

/-- From the plug on and under constant gates, the windows are the consecutive blocks of the
stream however it is cut into batches, and no batch is read past its end. The stream of an
encoder begins with the batch at which the factory first allocates it; the audible windows take
its sequence numbers in turn, whatever becomes of their packets. -/
theorem windows_of_batches {batches : List (List Int16)}
    (hplug : st.lane.forGen target.gen = { gen := target.gen })
    (hbatches : ∀ batch ∈ batches, batch ≠ [] ∧ lane.channels ∣ batch.length) :
    (route lane policy target = some .encode →
      ∃ st', callbacks o lane policy (some target) batches st = some st' ∧
        Encoded lane target.gen st.encoded (served o st.makes batches).flatten st') ∧
    (route lane policy target = some .reduce →
      ∃ st', callbacks o lane policy (some target) batches st = some st' ∧
        Reduced lane target.gen st.reduced batches.flatten st') :=
  ⟨fun hroute => callbacks_encode hroute hplug hbatches,
    fun hroute => Reduced.callbacks hroute (.fresh hplug) hbatches⟩

/-- A factory that refuses the first time, and a codec and a hot table that always answer. -/
def refusesOnce : Outside where
  makeEncoder makes := makes != 0
  encode _ _ := [0]
  readAudioEndpoint _ := .bound

/-- A window of one level throughout. -/
def tone : List Int16 := List.replicate 1920 1

theorem tone_length : tone.length = windowSamples .speaker := length_replicate ..

theorem audible_tone : audible (blocks (windowSamples .speaker) tone) = [tone] := by
  have hnil : ([] : List Int16).length < windowSamples .speaker := windowSamples_pos _
  have hloud : isDigitalSilence tone = false := by
    rw [isDigitalSilence, tone, all_replicate]
    decide
  rw [blocks_of_le (windowSamples_pos _) (Nat.le_of_eq tone_length.symm), ← tone_length,
    take_length, drop_length, tone_length, blocks_of_lt hnil]
  simp [audible, hloud]

theorem tone_whole : tone ≠ [] ∧ OutboundAudioLane.speaker.channels ∣ tone.length := by
  rw [tone, length_replicate]
  exact ⟨nofun, by decide⟩

/-- The second of two tones is a window when the first batch held one, and is lost with the
first when one batch held both. -/
theorem windows_depend_on_batches : ∃ st st' : LaneState,
    callbacks refusesOnce .speaker ⟨true, true⟩ (some ⟨1, capSpeaker⟩) [tone, tone] {} = some st ∧
      callbacks refusesOnce .speaker ⟨true, true⟩ (some ⟨1, capSpeaker⟩) [tone ++ tone] {} =
        some st' ∧
      st.encoded = [(tone, 0)] ∧ st'.encoded = [] := by
  have hroute : route .speaker ⟨true, true⟩ ⟨1, capSpeaker⟩ = some .encode := by decide
  have hpair : tone ++ tone ≠ [] ∧ OutboundAudioLane.speaker.channels ∣ (tone ++ tone).length := by
    rw [length_append]
    exact ⟨fun h => tone_whole.1 (List.append_eq_nil_iff.mp h).1,
      Nat.dvd_add tone_whole.2 tone_whole.2⟩
  obtain ⟨st, hrun, hst⟩ := @callbacks_encode refusesOnce .speaker ⟨true, true⟩ ⟨1, capSpeaker⟩
    [tone, tone] hroute {} rfl (by simp [tone_whole])
  obtain ⟨st', hrun', hst'⟩ := @callbacks_encode refusesOnce .speaker ⟨true, true⟩ ⟨1, capSpeaker⟩
    [tone ++ tone] hroute {} rfl (by simpa using hpair)
  have hserved : (served refusesOnce 0 [tone, tone]).flatten = tone := append_nil _
  have hserved' : (served refusesOnce 0 [tone ++ tone]).flatten = [] := rfl
  refine ⟨st, st', hrun, hrun', ?_, ?_⟩
  · rw [hst.windows, hserved, audible_tone]
    rfl
  · rw [hst'.windows, hserved', blocks_of_lt (windowSamples_pos _)]
    rfl

/-- One tone to a factory that allocates on the second batch. -/
theorem windows_of_batches_tone : ∃ st : LaneState,
    callbacks refusesOnce .speaker ⟨true, true⟩ (some ⟨1, capSpeaker⟩) [tone, tone] {} = some st ∧
      Encoded .speaker 1 [] (served refusesOnce 0 [tone, tone]).flatten st := by
  have hbatches : ∀ batch ∈ [tone, tone],
      batch ≠ [] ∧ OutboundAudioLane.speaker.channels ∣ batch.length := by simp [tone_whole]
  exact (@windows_of_batches refusesOnce {} .speaker ⟨true, true⟩ ⟨1, capSpeaker⟩ [tone, tone] rfl
    hbatches).1 (by decide)

end LaneState

end Satellite.Audio
