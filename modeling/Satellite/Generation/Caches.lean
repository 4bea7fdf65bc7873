import Satellite.Lib.Seqlock
import Satellite.Model.Cold
import Satellite.Audio.Jitter

/-!
# Caches tagged with a plug generation

Four caches outlive the pad they were filled for: what the receive thread last published of
a serial (`RxPad`), the mic rate window beside it, the mic worker's window and decoder, and
the pending samples, encoder and sequence number of an audio lane. No topology operation
clears them. Each is tagged with the plug generation it was filled under and reset when it
is used under another.

The steps below interleave topology operations, the receive thread, the mic worker, the
lanes and the dashboard. A thread that may act on a pad enters a section first; a write to
a slot begins, waits for those inside to leave, and only then stores. What a pad shows,
decodes or sends is logged with where it came from, for the statements only.
-/

namespace Satellite.Generation

open Function

def padsPerSlot : Nat := 16

/-- A place for a pad: a slot and an index in it. -/
structure Pos where
  slot : Nat
  idx : Nat
  deriving DecidableEq

structure ColdPad where
  serial : Nat
  gen : Nat
  deriving DecidableEq

/-! ## Slots -/

/-- The words of a slot that say which pad is where. -/
inductive SlotWord
  | ctrl (idx : Nat)
  | gen (idx : Nat)
  deriving DecidableEq

/-- The control word holds the serial of an active pad. -/
@[reducible] def SlotWord.Val : SlotWord → Type
  | .ctrl _ => Option Nat
  | .gen _ => Nat

abbrev HotSlot := Seqlock SlotWord.Val

def slotWords : List SlotWord := (List.range padsPerSlot).flatMap fun i => [.ctrl i, .gen i]

/-- What `publishControllers` stores for the pads of a slot. -/
def coldWord (cold : Pos → Option ColdPad) (slot : Nat) : (w : SlotWord) → w.Val
  | .ctrl i => (cold ⟨slot, i⟩).map ColdPad.serial
  | .gen i => ((cold ⟨slot, i⟩).map ColdPad.gen).getD 0

inductive Lane
  | speaker
  | haptic
  deriving DecidableEq

inductive Participant
  | receive
  | mic
  | lane (serial : Nat) (l : Lane)
  deriving DecidableEq

structure SlotRead where
  pos : Pos
  reading : Seqlock.Reading SlotWord.Val

/-- A pad as a stable read found it. -/
structure Bound where
  pos : Pos
  serial : Nat
  gen : Nat
  deriving DecidableEq

structure Thread where
  inside : Bool := false
  read : Option SlotRead := none
  bound : Option Bound := none

inductive Holder
  | topology
  | dashboard
  deriving DecidableEq

/-- Topology, the slots and where the threads are with them. -/
structure Hot where
  holder : Option Holder := none
  nextPlugGen : Nat := 0
  /-- The generations given so far, the latest first. -/
  plugged : List Nat := []
  cold : Pos → Option ColdPad := fun _ => none
  /-- How many devices the backend has made for a serial. -/
  device : Nat → Nat := fun _ => 0
  /-- The serial and device of a generation. -/
  deviceOf : Nat → Nat × Nat := fun _ => (0, 0)
  slots : Nat → HotSlot := fun _ => { mem := fun | .ctrl _ => none | .gen _ => (0 : Nat) }
  /-- The slot being written, with the words still to store. -/
  writer : Option (Nat × List SlotWord) := none
  waits : Participant → Bool := fun _ => false
  threads : Participant → Thread := fun _ => {}

inductive HotMove
  | lock
  | unlock
  /-- The backend makes a device for a free serial. -/
  | pluginDevice (serial : Nat)
  /-- `resetControllerStreamState` of a pad bound to its device. -/
  | plug (pos : Pos) (serial : Nat)
  | vacate (pos : Pos)
  | beginWrite (slot : Nat)
  | storeNext
  | endWrite
  | enter (p : Participant)
  | exit (p : Participant)
  | beginRead (p : Participant) (pos : Pos)
  | loadCtrl (p : Participant)
  | loadGen (p : Participant)
  | endRead (p : Participant)
  /-- The pad that was found is no longer needed. -/
  | forget (p : Participant)

namespace Hot

def setThread (h : Hot) (p : Participant) (t : Thread) : Hot :=
  { h with threads := update h.threads p t }

def setSlot (h : Hot) (slot : Nat) (s : HotSlot) : Hot :=
  { h with slots := update h.slots slot s }

/-- No pad, in a session or as a slot shows it, has the serial. -/
def Unused (h : Hot) (serial : Nat) : Prop :=
  (∀ pos pad, h.cold pos = some pad → pad.serial ≠ serial) ∧
    ∀ slot idx, (h.slots slot).mem (.ctrl idx) ≠ some serial

def load (h : Hot) (p : Participant) (w : Nat → SlotWord) : Option Hot :=
  match (h.threads p).read with
  | none => none
  | some r =>
    some (h.setThread p { h.threads p with
      read := some { r with reading := r.reading.load (h.slots r.pos.slot) (w r.pos.idx) } })

/-- The pad that a read found, where it is stable. -/
def found (h : Hot) (r : SlotRead) : Option Bound :=
  match r.reading.got (.ctrl r.pos.idx), r.reading.got (.gen r.pos.idx) with
  | some (some serial), some gen =>
    if r.reading.stable (h.slots r.pos.slot) then some ⟨r.pos, serial, gen⟩ else none
  | _, _ => none

/-- One step; a step that is not enabled leads nowhere. -/
inductive Step (h : Hot) : HotMove → Hot → Prop
  | lock : h.holder = none → Step h .lock { h with holder := some .topology }
  | unlock : h.holder = some .topology → h.writer = none →
      Step h .unlock { h with holder := none }
  | pluginDevice (serial : Nat) : h.Unused serial →
      Step h (.pluginDevice serial)
        { h with device := update h.device serial (h.device serial + 1) }
  | plug (pos : Pos) (serial : Nat) : h.holder = some .topology → h.writer = none →
      Step h (.plug pos serial)
        { h with
          nextPlugGen := Cold.nextStamp h.nextPlugGen
          plugged := Cold.nextStamp h.nextPlugGen :: h.plugged
          cold := update h.cold pos (some ⟨serial, Cold.nextStamp h.nextPlugGen⟩)
          deviceOf := update h.deviceOf (Cold.nextStamp h.nextPlugGen)
            (serial, h.device serial) }
  | vacate (pos : Pos) : h.holder = some .topology → h.writer = none →
      Step h (.vacate pos) { h with cold := update h.cold pos none }
  | beginWrite (slot : Nat) : h.holder = some .topology → h.writer = none →
      Step h (.beginWrite slot)
        { h.setSlot slot (h.slots slot).bump with
          writer := some (slot, slotWords)
          waits := fun p => (h.threads p).inside }
  | storeNext (slot : Nat) (w : SlotWord) (todo : List SlotWord) :
      h.writer = some (slot, w :: todo) → (∀ p, h.waits p = false) →
      Step h .storeNext
        { h.setSlot slot ((h.slots slot).store w (coldWord h.cold slot w)) with
          writer := some (slot, todo) }
  | endWrite (slot : Nat) : h.writer = some (slot, []) → (∀ p, h.waits p = false) →
      Step h .endWrite { h.setSlot slot (h.slots slot).bump with writer := none }
  | enter (p : Participant) : (h.threads p).inside = false → (h.threads p).read = none →
      Step h (.enter p) (h.setThread p { inside := true })
  | exit (p : Participant) : (h.threads p).inside = true → (h.threads p).read = none →
      Step h (.exit p)
        { h.setThread p {} with waits := update h.waits p false }
  | beginRead (p : Participant) (pos : Pos) (r : Seqlock.Reading SlotWord.Val) :
      (h.threads p).read = none → pos.idx < padsPerSlot →
      (h.slots pos.slot).beginRead = some r →
      Step h (.beginRead p pos)
        (h.setThread p { h.threads p with read := some ⟨pos, r⟩, bound := none })
  | loadCtrl (p : Participant) (h' : Hot) : h.load p .ctrl = some h' → Step h (.loadCtrl p) h'
  | loadGen (p : Participant) (h' : Hot) : h.load p .gen = some h' → Step h (.loadGen p) h'
  | endRead (p : Participant) (r : SlotRead) : (h.threads p).read = some r →
      Step h (.endRead p)
        (h.setThread p { h.threads p with read := none, bound := h.found r })
  | forget (p : Participant) :
      Step h (.forget p) (h.setThread p { h.threads p with bound := none })

/-- Fewer than `2 ^ 32` plugs, and fewer than `2 ^ 31` writes during one read of a slot. -/
def Counted (h : Hot) : HotMove → Prop
  | .plug _ _ => h.plugged.length + 1 < 2 ^ 32
  | .endRead p => ∀ r, (h.threads p).read = some r →
      r.reading.recent (h.slots r.pos.slot) = true
  | _ => True

end Hot

/-! ## The receive thread -/

inductive Report
  | motion
  | battery
  | touchpad
  deriving DecidableEq

/-- The words of a report; those of the touchpad end with its mode and key epoch. -/
def Report.words : Report → List Nat
  | .motion => [0, 1]
  | .battery => [0]
  | .touchpad => [0, 1, 2, 3, 4]

inductive RxWord
  | gen
  | flags
  | data (k : Report) (i : Nat)
  deriving DecidableEq

structure RxFlags where
  known : Report → Bool := fun _ => false
  motionSink : Bool := false

/-- A word of a report, with the generation of the pad it came for. -/
structure Datum where
  value : Nat := 0
  source : Nat := 0
  deriving DecidableEq

@[reducible] def RxWord.Val : RxWord → Type
  | .gen => Nat
  | .flags => RxFlags
  | .data _ _ => Datum

abbrev RxMem := Seqlock RxWord.Val

/-- What is left to do of a publication. -/
inductive RxOp
  | bump
  | store (w : RxWord) (v : w.Val)

def RxOp.run (m : RxMem) : RxOp → RxMem
  | .bump => m.bump
  | .store w v => m.store w v

structure RxPad where
  mem : RxMem := { mem := fun | .gen => (0 : Nat) | .flags => {} | .data _ _ => {} }
  ownGen : Nat := 0
  ownFlags : RxFlags := {}
  micWindowStart : Nat := 0
  micPacketsInWindow : Nat := 0
  /-- The generation of the pad whose packets the window counts. -/
  windowSource : Nat := 0

namespace RxPad

/-- `rxPadFor`: the pad's own fields, and what it publishes. -/
def forGen (rx : RxPad) (gen : Nat) : RxPad × List RxOp :=
  if rx.ownGen = gen then (rx, [])
  else
    ({ rx with
        ownGen := gen, ownFlags := {}, micWindowStart := 0, micPacketsInWindow := 0
        windowSource := gen },
      [.bump, .store .gen gen, .store .flags {}, .bump])

/-- The flags after a report; only motion says whether it was delivered. -/
def flagged (rx : RxPad) (k : Report) (delivered : Bool) : RxFlags where
  known := update rx.ownFlags.known k true
  motionSink := if k = .motion then delivered else rx.ownFlags.motionSink

/-- `publishRxMotion`, `publishRxBattery` and `publishRxTouchpad`. -/
def publish (rx : RxPad) (k : Report) (values : Nat → Datum) (delivered : Bool) :
    RxPad × List RxOp :=
  ({ rx with ownFlags := rx.flagged k delivered },
    [.bump] ++ k.words.map (fun i => .store (.data k i) (values i)) ++
      [.store .flags (rx.flagged k delivered), .bump])

def takePacket (rx : RxPad) (now second limit : Nat) : Bool × RxPad :=
  let rx := if rx.micPacketsInWindow = 0 ∨ second ≤ now - rx.micWindowStart then
    { rx with micWindowStart := now, micPacketsInWindow := 0 } else rx
  if limit ≤ rx.micPacketsInWindow then (true, rx)
  else (false, { rx with micPacketsInWindow := rx.micPacketsInWindow + 1 })

end RxPad

structure MicPacket where
  serial : Nat
  gen : Nat
  seq : UInt16
  bytes : List UInt8
  deriving DecidableEq

/-- A use of something recorded, for the pad of a generation. -/
structure Use where
  gen : Nat
  sources : List Nat
  deriving DecidableEq

structure Receiver where
  pads : Nat → RxPad := fun _ => {}
  /-- The serial being published, with what is left to do. -/
  publishing : Nat × List RxOp := (0, [])
  handing : Option MicPacket := none
  ring : List MicPacket := []
  /-- The uses of a rate window. -/
  rated : List Use := []

inductive RxMove
  | report (k : Report) (values : Nat → Nat) (delivered : Bool)
  | micFrame (seq : UInt16) (bytes : List UInt8) (now : Nat)
  | publishNext
  | handOver
  | drop

def micSecond : Nat := 1000000000
def micPacketsPerSec : Nat := 75
def micRing : Nat := 64

namespace Receiver

def setPad (r : Receiver) (serial : Nat) (rx : RxPad) (ops : List RxOp) : Receiver :=
  { r with pads := update r.pads serial rx, publishing := (serial, ops) }

/-- A report, or the rate gate of a mic frame, is for the pad the thread holds a section for. -/
def step (r : Receiver) (t : Thread) : RxMove → Option Receiver
  | .report k values delivered =>
    match t.inside, t.bound, r.publishing.2 with
    | true, some b, [] =>
      let own := (r.pads b.serial).forGen b.gen
      let pub := own.1.publish k (fun i => ⟨values i, b.gen⟩) delivered
      some (r.setPad b.serial pub.1 (own.2 ++ pub.2))
    | _, _, _ => none
  | .micFrame seq bytes now =>
    match t.inside, t.bound, r.publishing.2 with
    | true, some b, [] =>
      let own := (r.pads b.serial).forGen b.gen
      let taken := own.1.takePacket now micSecond micPacketsPerSec
      some { r.setPad b.serial taken.2 own.2 with
        rated := ⟨b.gen, [own.1.windowSource]⟩ :: r.rated
        handing := if taken.1 then none else some ⟨b.serial, b.gen, seq, bytes⟩ }
    | _, _, _ => none
  | .publishNext =>
    match r.publishing with
    | (_, []) => none
    | (serial, op :: ops) =>
      some (r.setPad serial { r.pads serial with mem := op.run (r.pads serial).mem } ops)
  | .handOver =>
    match r.handing with
    | none => none
    | some p =>
      if r.ring.length < micRing then some { r with handing := none, ring := r.ring ++ [p] }
      else none
  | .drop => some { r with handing := none }

end Receiver

/-! ## The mic worker -/

open Audio

structure MicPad where
  gen : Nat := 0
  window : JitterWindow := {}
  /-- The generations of the packets pushed since the last reset. -/
  pushed : List Nat := []
  /-- The decoder, by the generations of the packets it was fed. -/
  decoder : Option (List Nat) := none

structure Worker where
  pads : Nat → MicPad := fun _ => {}
  /-- The packet whose samples are being submitted. -/
  working : Option MicPacket := none
  /-- The uses of a window and decoder. -/
  decoded : List Use := []
  /-- The samples submitted: for a packet, under the generation its serial's pad had. -/
  submitted : List Use := []

namespace Worker

def padFor (k : Worker) (p : MicPacket) : MicPad :=
  let pad := k.pads p.serial
  if pad.gen = p.gen then pad else { gen := p.gen, window := pad.window.reset }

/-- The decoder once the packet's events, if any, are decoded. -/
def decoderFor (pad : MicPad) (gen : Nat) (decodes makesDecoder : Bool) : Option (List Nat) :=
  match decodes, pad.decoder, makesDecoder with
  | true, some fed, _ => some (gen :: fed)
  | true, none, true => some [gen]
  | true, none, false => none
  | false, decoder, _ => decoder

/-- What `process` does up to the first submit. -/
def process (k : Worker) (p : MicPacket) (makesDecoder : Bool) : Worker :=
  let pad := k.padFor p
  let pushed := pad.window.push p.seq (some p.bytes)
  let decodes := pushed.2.accept = .ok && !pushed.2.events.isEmpty
  let decoder := decoderFor pad p.gen decodes makesDecoder
  { k with
    pads := update k.pads p.serial
      { pad with window := pushed.1, pushed := p.gen :: pad.pushed, decoder := decoder }
    working := if decodes ∧ decoder.isSome then some p else none
    decoded := ⟨p.gen, p.gen :: pad.pushed ++ decoder.getD []⟩ :: k.decoded }

end Worker

/-! ## The audio lanes -/

/-- A sample, with the device it was played on. -/
structure Sample where
  value : Int
  device : Nat
  deriving DecidableEq

structure AudioLane where
  gen : Nat := 0
  /-- The encoder, by the devices of the samples it was fed. -/
  encoder : Option (List Nat) := none
  pending : List Sample := []
  seq : UInt16 := 0
  /-- The devices of the samples that the sequence number counts the windows of. -/
  counted : List Nat := []

/-- A callback of the backend: the rest of its samples, and the pad found for them. -/
structure Callback where
  device : Nat
  target : Option Nat := none
  rest : List Sample

/-- A window on its way: the devices of its samples, of the encoder and of the number. -/
structure Outgoing where
  devices : List Nat

structure LaneState where
  lane : AudioLane := {}
  callback : Option Callback := none
  outgoing : Option Outgoing := none

/-- Something sent, by the generation and device of the pad it was sent for. -/
structure Sent where
  gen : Nat
  device : Nat
  /-- The generation the pad had. -/
  padGen : Nat
  devices : List Nat
  deriving DecidableEq

structure Lanes where
  state : Nat → Lane → LaneState := fun _ _ => {}
  sent : List Sent := []

def frameSamples : Nat := 960 * 2

/-- `audioLane`: nothing of another plug is kept. -/
def AudioLane.forGen (a : AudioLane) (gen : Nat) : AudioLane :=
  if a.gen = gen then a else { gen := gen }

namespace LaneState

def window (a : LaneState) (c : Callback) : List Sample :=
  (a.lane.pending ++ c.rest).take frameSamples

def afterWindow (a : LaneState) (c : Callback) : List Sample :=
  (a.lane.pending ++ c.rest).drop frameSamples

/-- The window is taken from the samples and goes nowhere. -/
def skipWindow (a : LaneState) (c : Callback) : LaneState :=
  { a with
    lane := { a.lane with pending := [] }
    callback := some { c with rest := a.afterWindow c } }

/-- `sendAudioWindow` up to its first attempt. The number advances even if encoding fails. -/
def encodeWindow (a : LaneState) (c : Callback) (fed : List Nat) (encodes : Bool) : LaneState :=
  let devices := (a.window c).map Sample.device
  { lane := { a.lane with
      pending := [], encoder := some (devices ++ fed), seq := a.lane.seq + 1
      counted := devices ++ a.lane.counted }
    callback := some { c with rest := a.afterWindow c }
    outgoing := if encodes then some ⟨devices ++ fed ++ a.lane.counted⟩ else none }

/-- The tail waits for the rest of its window. -/
def keepTail (a : LaneState) (c : Callback) : LaneState :=
  { a with lane := { a.lane with pending := a.lane.pending ++ c.rest }, callback := none }

/-- The lane for the target of a callback, with an encoder if one is there or can be made. -/
def adopt (a : LaneState) (c : Callback) (gen : Nat) (makesEncoder : Bool) : LaneState :=
  let lane := a.lane.forGen gen
  { a with
    lane := { lane with encoder := if makesEncoder then some (lane.encoder.getD []) else lane.encoder }
    callback := some { c with target := some gen } }

end LaneState

/-! ## The dashboard -/

/-- A read of what the receive thread published of a pad, under the state mutex. -/
structure Snapshot where
  pos : Pos
  pad : ColdPad
  reading : Seqlock.Reading RxWord.Val

/-- The words of a snapshot, beside the memory at the moment it was accepted. -/
structure View where
  got : (w : RxWord) → Option w.Val
  mem : RxMem

structure Dashboard where
  snapshot : Option Snapshot := none
  views : List View := []
  /-- What was shown of a report. -/
  shown : List Use := []

namespace Snapshot

/-- A report is shown if the snapshot is of the pad's plug and knows it. -/
def shows (n : Snapshot) (k : Report) : Bool :=
  match n.reading.got .gen, n.reading.got .flags with
  | some gen, some flags => gen == n.pad.gen && flags.known k
  | _, _ => false

def sources (n : Snapshot) (k : Report) : List Nat :=
  k.words.filterMap fun i => (n.reading.got (.data k i)).map Datum.source

def shown (n : Snapshot) : List Use :=
  [Report.motion, .battery, .touchpad].filterMap fun k =>
    if n.shows k then some ⟨n.pad.gen, n.sources k⟩ else none

end Snapshot

/-! ## The service -/

structure Service where
  hot : Hot := {}
  rx : Receiver := {}
  worker : Worker := {}
  lanes : Lanes := {}
  dash : Dashboard := {}

namespace Service

def setLane (s : Service) (serial : Nat) (l : Lane) (a : LaneState) : Service :=
  { s with lanes := { s.lanes with
      state := fun i k => if i = serial ∧ k = l then a else s.lanes.state i k } }

/-- What the threads' own programs add to the conditions of a step: the receive thread leaves when
its publication is done, and the backend joins a device's callbacks before its serial is used
again. -/
def Admits (s : Service) : HotMove → Prop
  | .exit .receive => s.rx.publishing.2 = []
  | .pluginDevice serial => ∀ l, (s.lanes.state serial l).callback = none
  | _ => True

inductive Move
  | hot (m : HotMove)
  | rx (m : RxMove)
  | process
  | submit
  | finish
  | sweep (serial : Nat)
  | callback (serial : Nat) (l : Lane) (values : List Int)
  | adopt (serial : Nat) (l : Lane) (makesEncoder : Bool)
  | encode (serial : Nat) (l : Lane) (encodes : Bool)
  | skip (serial : Nat) (l : Lane)
  | reduce (serial : Nat) (l : Lane)
  | tail (serial : Nat) (l : Lane)
  | send (serial : Nat) (l : Lane)
  | giveUp (serial : Nat) (l : Lane)
  | done (serial : Nat) (l : Lane)
  | beginSnapshot (pos : Pos)
  | loadSnapshot (w : RxWord)
  | endSnapshot

inductive Step (s : Service) : Move → Service → Prop
  | hot (m : HotMove) (h : Hot) : s.hot.Step m h → s.Admits m → Step s (.hot m) { s with hot := h }
  | rx (m : RxMove) (r : Receiver) : s.rx.step (s.hot.threads .receive) m = some r →
      Step s (.rx m) { s with rx := r }
  | process (p : MicPacket) (ring : List MicPacket) (makesDecoder : Bool) :
      s.rx.ring = p :: ring → s.worker.working = none →
      Step s .process
        { s with rx := { s.rx with ring := ring }, worker := s.worker.process p makesDecoder }
  | submit (p : MicPacket) (b : Bound) : s.worker.working = some p →
      (s.hot.threads .mic).inside = true → (s.hot.threads .mic).bound = some b →
      b.serial = p.serial → b.gen = p.gen →
      Step s .submit { s with worker := { s.worker with
        submitted := ⟨p.gen, [(s.hot.slots b.pos.slot).mem (.gen b.pos.idx)]⟩ ::
          s.worker.submitted } }
  | finish : Step s .finish { s with worker := { s.worker with working := none } }
  | sweep (serial : Nat) : s.worker.working = none →
      Step s (.sweep serial) { s with worker := { s.worker with
        pads := update s.worker.pads serial
          { window := (s.worker.pads serial).window.reset } } }
  | callback (serial : Nat) (l : Lane) (values : List Int) :
      (s.lanes.state serial l).callback = none → (s.lanes.state serial l).outgoing = none →
      (s.hot.threads (.lane serial l)).read = none →
      (s.hot.threads (.lane serial l)).bound = none →
      Step s (.callback serial l values) (s.setLane serial l { s.lanes.state serial l with
        callback := some {
          device := s.hot.device serial
          rest := values.map fun v => ⟨v, s.hot.device serial⟩ } })
  | adopt (serial : Nat) (l : Lane) (c : Callback) (b : Bound) (makesEncoder : Bool) :
      (s.lanes.state serial l).callback = some c → c.target = none →
      (s.lanes.state serial l).outgoing = none →
      (s.hot.threads (.lane serial l)).bound = some b → b.serial = serial →
      Step s (.adopt serial l makesEncoder)
        (s.setLane serial l ((s.lanes.state serial l).adopt c b.gen makesEncoder))
  | encode (serial : Nat) (l : Lane) (c : Callback) (fed : List Nat) (encodes : Bool) :
      (s.lanes.state serial l).callback = some c → c.target.isSome →
      (s.lanes.state serial l).outgoing = none → (s.lanes.state serial l).lane.encoder = some fed →
      frameSamples ≤ ((s.lanes.state serial l).lane.pending ++ c.rest).length →
      Step s (.encode serial l encodes)
        (s.setLane serial l ((s.lanes.state serial l).encodeWindow c fed encodes))
  | skip (serial : Nat) (l : Lane) (c : Callback) :
      (s.lanes.state serial l).callback = some c → c.target.isSome →
      (s.lanes.state serial l).outgoing = none →
      frameSamples ≤ ((s.lanes.state serial l).lane.pending ++ c.rest).length →
      Step s (.skip serial l) (s.setLane serial l ((s.lanes.state serial l).skipWindow c))
  | reduce (serial : Nat) (l : Lane) (c : Callback) (gen : Nat) (pos : Pos) (pad : ColdPad) :
      (s.lanes.state serial l).callback = some c → c.target = some gen →
      frameSamples ≤ ((s.lanes.state serial l).lane.pending ++ c.rest).length →
      s.hot.holder = none → s.hot.cold pos = some pad → pad.serial = serial → pad.gen = gen →
      Step s (.reduce serial l)
        { s.setLane serial l ((s.lanes.state serial l).skipWindow c) with
          lanes.sent := ⟨gen, (s.hot.deviceOf gen).2, pad.gen,
            ((s.lanes.state serial l).window c).map Sample.device⟩ :: s.lanes.sent }
  | tail (serial : Nat) (l : Lane) (c : Callback) :
      (s.lanes.state serial l).callback = some c → c.target.isSome →
      ((s.lanes.state serial l).lane.pending ++ c.rest).length < frameSamples →
      Step s (.tail serial l) (s.setLane serial l ((s.lanes.state serial l).keepTail c))
  | send (serial : Nat) (l : Lane) (b : Bound) (o : Outgoing) :
      (s.lanes.state serial l).outgoing = some o →
      (s.hot.threads (.lane serial l)).inside = true →
      (s.hot.threads (.lane serial l)).bound = some b → b.serial = serial →
      b.gen = (s.lanes.state serial l).lane.gen →
      Step s (.send serial l)
        { s.setLane serial l { s.lanes.state serial l with outgoing := none } with
          lanes.sent := ⟨b.gen, (s.hot.deviceOf b.gen).2,
            (s.hot.slots b.pos.slot).mem (.gen b.pos.idx), o.devices⟩ :: s.lanes.sent }
  | giveUp (serial : Nat) (l : Lane) :
      Step s (.giveUp serial l)
        (s.setLane serial l { s.lanes.state serial l with outgoing := none })
  | done (serial : Nat) (l : Lane) :
      Step s (.done serial l)
        (s.setLane serial l { s.lanes.state serial l with callback := none, outgoing := none })
  | beginSnapshot (pos : Pos) (pad : ColdPad) (r : Seqlock.Reading RxWord.Val) :
      s.hot.holder = none → s.hot.cold pos = some pad →
      (s.rx.pads pad.serial).mem.beginRead = some r →
      Step s (.beginSnapshot pos)
        { s with
          hot := { s.hot with holder := some .dashboard }
          dash := { s.dash with snapshot := some ⟨pos, pad, r⟩ } }
  | loadSnapshot (n : Snapshot) (w : RxWord) : s.dash.snapshot = some n →
      Step s (.loadSnapshot w) { s with dash := { s.dash with
        snapshot := some { n with reading := n.reading.load (s.rx.pads n.pad.serial).mem w } } }
  | endSnapshot (n : Snapshot) : s.dash.snapshot = some n →
      Step s .endSnapshot
        { s with
          hot := { s.hot with holder := none }
          dash :=
            if n.reading.stable (s.rx.pads n.pad.serial).mem then
              { snapshot := none
                views := ⟨n.reading.got, (s.rx.pads n.pad.serial).mem⟩ :: s.dash.views
                shown := n.shown ++ s.dash.shown }
            else { s.dash with snapshot := none } }

/-- Fewer than `2 ^ 32` plugs, and fewer than `2 ^ 31` writes during one read. -/
def Counted (s : Service) : Move → Prop
  | .hot m => s.hot.Counted m
  | .endSnapshot => ∀ n, s.dash.snapshot = some n →
      n.reading.recent (s.rx.pads n.pad.serial).mem = true
  | _ => True

/-- Fewer than `2 ^ 32` plugs. -/
def FewPlugs (s : Service) : Move → Prop
  | .hot (.plug _ _) => s.hot.plugged.length + 1 < 2 ^ 32
  | _ => True

inductive Reaches (allowed : Service → Move → Prop) : Service → Prop
  | start : Reaches allowed {}
  | move {s s' : Service} {m : Move} (h : Reaches allowed s) (ha : allowed s m)
      (hs : s.Step m s') : Reaches allowed s'

end Service

end Satellite.Generation
