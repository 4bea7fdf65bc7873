import Mathlib.Data.List.Perm.Basic
import Mathlib.Logic.Function.Basic
import Satellite.Audio.Jitter

/-!
# Microphone frames

A MIC_AUDIO frame goes from `handleMicAudio` on the receive thread through a ring to the
mic worker, whose jitter window of the pad takes it or not. Either thread may count it:
`micDropped` and `micLate` before the ring, `micAccepted` and `micLate` behind it.

The steps below interleave the two threads with the stores of topology operations, in any
order of these stores. A pad is read under the slot's generation: the read fails where a
write is open at its start, or begins before its end. Tokens, generations and times are
natural numbers. Decoding, which counts no frame and leaves the window alone, is left out.
-/

namespace Satellite.Audio

open Function List Option JitterRun

def micPacketCapacity : Nat := 64
def micPacketMaxBytes : Nat := jitterMaxPacketBytes
def micAudioMaxPacketsPerSec : Nat := 75
def capMic : UInt16 := 0x0040
def padsPerSession : Nat := 16
def backendSerials : Nat := 16
def second : Nat := 1000000000

/-! ## What the threads share -/

structure HotPad where
  active : Bool := false
  serial : Nat := 0
  caps : UInt16 := 0
  gen : Nat := 0
  deriving DecidableEq

structure HotSlot where
  /-- Odd while a write is open. -/
  gen : Nat := 0
  token : Nat := 0
  keyEpoch : Nat := 0
  pads : Nat → HotPad := fun _ => {}

def HotSlot.writing (slot : HotSlot) : Bool := slot.gen % 2 == 1

/-- A frame in `handleMicAudio`, with a number of its own and whether its token was that of a
session when it arrived. -/
structure MicFrame where
  id : Nat
  live : Bool
  token : Nat
  ctrlIdx : Nat
  seq : UInt16
  bytes : List UInt8
  hostWantsMic : Bool
  deriving DecidableEq

structure PadRead where
  slot : Nat
  keyEpoch : Nat
  serial : Nat
  active : Bool
  caps : UInt16
  gen : Nat
  deriving DecidableEq

inductive DropCause
  | noController
  | noCap
  | hostDisabled
  | rateLimit
  deriving DecidableEq

/-- The rate window of a serial, on the receive thread. -/
structure RxPad where
  ownGen : Nat := 0
  micWindowStart : Nat := 0
  micPacketsInWindow : Nat := 0
  deriving DecidableEq

structure MicPacket where
  id : Nat
  serial : Nat
  gen : Nat
  slot : Nat
  ctrlIdx : Nat
  keyEpoch : Nat
  seq : UInt16
  bytes : List UInt8
  deriving DecidableEq

/-- What the mic worker keeps for a serial. -/
structure MicPad where
  gen : Nat := 0
  slot : Option Nat := none
  ctrlIdx : Nat := 0
  window : JitterWindow := {}
  deriving DecidableEq

/-- Where the receive thread is with a frame: before `hot_.find`, before and inside the read of
the slot, and past the gates with the cause to drop it, if any. -/
inductive Receiving
  | idle
  | arrived (f : MicFrame)
  | found (f : MicFrame) (slot : Nat)
  | began (f : MicFrame) (slot gen : Nat)
  | loaded (f : MicFrame) (gen token : Nat) (pad : PadRead)
  | gated (f : MicFrame) (pad : PadRead) (cause : Option DropCause)

inductive Counter
  | accepted
  | late
  | dropped
  deriving DecidableEq

/-- The three counters, with the frames that count and which counter each was counted in. -/
structure Books where
  micAccepted : Nat := 0
  micLate : Nat := 0
  micDropped : Nat := 0
  nextId : Nat := 0
  delivered : List Nat := []
  counted : List (Nat × Counter) := []
  deriving DecidableEq

namespace Books

def arrive (b : Books) (live : Bool) : Books :=
  { b with
    nextId := b.nextId + 1
    delivered := if live then b.delivered ++ [b.nextId] else b.delivered }

def bump (b : Books) (id : Nat) (c : Counter) : Books :=
  let b := { b with counted := b.counted ++ [(id, c)] }
  match c with
  | .accepted => { b with micAccepted := b.micAccepted + 1 }
  | .late => { b with micLate := b.micLate + 1 }
  | .dropped => { b with micDropped := b.micDropped + 1 }

end Books

structure MicSystem where
  /-- The tokens of the sessions, under the topology mutex. -/
  live : Nat → Bool := fun _ => false
  /-- What `hot_.find` answers. -/
  index : Nat → Option Nat := fun _ => none
  slots : Nat → HotSlot := fun _ => {}
  receiving : Receiving := .idle
  rxPads : Nat → RxPad := fun _ => {}
  /-- The packets that wait in the ring. -/
  ring : List MicPacket := []
  /-- The worker has taken the packet at the front, whose cell it has not released. -/
  taken : Bool := false
  pads : Nat → MicPad := fun _ => {}
  books : Books := {}

/-! ## The receive thread -/

/-- The words that `readPad` loads from a slot. -/
def HotSlot.loadPad (hot : HotSlot) (slot ctrlIdx : Nat) : PadRead :=
  let pad : HotPad := if ctrlIdx < padsPerSession then hot.pads ctrlIdx else {}
  { slot := slot
    keyEpoch := hot.keyEpoch
    serial := pad.serial
    active := pad.active && decide (1 ≤ pad.serial) && decide (pad.serial ≤ backendSerials)
    caps := pad.caps
    gen := pad.gen }

/-- A serial's rate window starts afresh for a new plug. -/
def RxPad.forGen (rx : RxPad) (gen : Nat) : RxPad :=
  if rx.ownGen = gen then rx else { ownGen := gen }

/-- Whether the packet is one too many, and the window with it taken in. -/
def RxPad.takePacket (rx : RxPad) (now : Nat) : Bool × RxPad :=
  let rx := if rx.micPacketsInWindow = 0 ∨ second ≤ now - rx.micWindowStart then
    { rx with micWindowStart := now, micPacketsInWindow := 0 } else rx
  if micAudioMaxPacketsPerSec ≤ rx.micPacketsInWindow then (true, rx)
  else (false, { rx with micPacketsInWindow := rx.micPacketsInWindow + 1 })

namespace MicSystem

/-- The cells of the ring in use. -/
def cellsUsed (s : MicSystem) : Nat := s.ring.length + if s.taken then 1 else 0

/-- The gates of `handleMicAudio`, in their order; only the last one writes. -/
def gate (s : MicSystem) (f : MicFrame) (pad : PadRead) (now : Nat) : MicSystem :=
  if !pad.active then { s with receiving := .gated f pad (some .noController) }
  else if pad.caps &&& capMic = 0 then { s with receiving := .gated f pad (some .noCap) }
  else if !f.hostWantsMic then { s with receiving := .gated f pad (some .hostDisabled) }
  else
    let r := ((s.rxPads pad.serial).forGen pad.gen).takePacket now
    { s with
      receiving := .gated f pad (if r.1 then some .rateLimit else none)
      rxPads := update s.rxPads pad.serial r.2 }

def dropMicFrame (s : MicSystem) (f : MicFrame) : MicSystem :=
  { s with receiving := .idle, books := s.books.bump f.id .dropped }

def handOverMicFrame (s : MicSystem) (f : MicFrame) (pad : PadRead) : MicSystem :=
  if micPacketMaxBytes < f.bytes.length then
    { s with receiving := .idle, books := s.books.bump f.id .late }
  else if micPacketCapacity ≤ s.cellsUsed then
    { s with receiving := .idle, books := s.books.bump f.id .dropped }
  else
    { s with
      receiving := .idle
      ring := s.ring ++ [{
        id := f.id, serial := pad.serial, gen := pad.gen, slot := pad.slot, ctrlIdx := f.ctrlIdx
        keyEpoch := pad.keyEpoch, seq := f.seq, bytes := f.bytes }] }

/-! ## The mic worker -/

/-- The pad a packet meets: fresh if it was kept for another plug. -/
def padFor (s : MicSystem) (p : MicPacket) : MicPad :=
  let pad := s.pads p.serial
  if pad.gen = p.gen then pad
  else { gen := p.gen, slot := some p.slot, ctrlIdx := p.ctrlIdx, window := pad.window.reset }

def process (s : MicSystem) (p : MicPacket) (rest : List MicPacket) : MicSystem :=
  let pad := s.padFor p
  let pushed := pad.window.push p.seq (some p.bytes)
  { s with
    pads := update s.pads p.serial { pad with window := pushed.1 }
    ring := rest
    taken := true
    books := s.books.bump p.id (if pushed.2.accept = .ok then .accepted else .late) }

/-- `binding`: nothing while the slot is being written. -/
def binding (s : MicSystem) (slot ctrlIdx serial gen : Nat) : Option Bool :=
  let hot := s.slots slot
  if padsPerSession ≤ ctrlIdx then some false
  else if hot.writing then none
  else
    let pad := hot.pads ctrlIdx
    some (pad.active && pad.serial == serial && pad.gen == gen)

/-- One serial of `sweep`. -/
def sweep (s : MicSystem) (serial : Nat) : MicSystem :=
  let pad := s.pads serial
  if pad.gen = 0 then s
  else
    let bound := match pad.slot with
      | none => some false
      | some slot => s.binding slot pad.ctrlIdx serial pad.gen
    if bound = some false then
      { s with
        pads := update s.pads serial { pad with gen := 0, window := pad.window.reset } }
    else s

end MicSystem

/-! ## Steps -/

inductive Move
  /-- A topology operation adds or drops a session of this token. -/
  | setLive (token : Nat) (live : Bool)
  | setIndex (token : Nat) (slot : Option Nat)
  | beginWrite (slot : Nat)
  | store (slot token keyEpoch : Nat) (pads : Nat → HotPad)
  | endWrite (slot : Nat)
  | arrive (token ctrlIdx : Nat) (seq : UInt16) (bytes : List UInt8) (hostWantsMic : Bool)
  | find
  | beginRead
  | load
  | endRead (now : Nat)
  | count
  | process
  | release
  | sweep (serial : Nat)

namespace MicSystem

def setSlot (s : MicSystem) (slot : Nat) (hot : HotSlot) : MicSystem :=
  { s with slots := update s.slots slot hot }

def step (s : MicSystem) : Move → Option MicSystem
  | .setLive token live => some { s with live := update s.live token live }
  | .setIndex token slot => some { s with index := update s.index token slot }
  | .beginWrite slot =>
    if (s.slots slot).writing then none
    else some (s.setSlot slot { s.slots slot with gen := (s.slots slot).gen + 1 })
  | .store slot token keyEpoch pads =>
    if (s.slots slot).writing then
      some (s.setSlot slot { s.slots slot with token := token, keyEpoch := keyEpoch, pads := pads })
    else none
  | .endWrite slot =>
    if (s.slots slot).writing then
      some (s.setSlot slot { s.slots slot with gen := (s.slots slot).gen + 1 })
    else none
  | .arrive token ctrlIdx seq bytes hostWantsMic =>
    match s.receiving with
    | .idle =>
      if bytes = [] then some s
      else
        let f : MicFrame := { id := s.books.nextId, live := s.live token, token := token
                              ctrlIdx := ctrlIdx, seq := seq, bytes := bytes
                              hostWantsMic := hostWantsMic }
        some { s with receiving := .arrived f, books := s.books.arrive (s.live token) }
    | _ => none
  | .find =>
    match s.receiving with
    | .arrived f =>
      match s.index f.token with
      | none => some { s with receiving := .idle }
      | some slot => some { s with receiving := .found f slot }
    | _ => none
  | .beginRead =>
    match s.receiving with
    | .found f slot =>
      if (s.slots slot).writing then some { s with receiving := .idle }
      else some { s with receiving := .began f slot (s.slots slot).gen }
    | _ => none
  | .load =>
    match s.receiving with
    | .began f slot gen =>
      some { s with
        receiving := .loaded f gen (s.slots slot).token ((s.slots slot).loadPad slot f.ctrlIdx) }
    | _ => none
  | .endRead now =>
    match s.receiving with
    | .loaded f gen token pad =>
      if (s.slots pad.slot).gen = gen ∧ token = f.token then some (s.gate f pad now)
      else some { s with receiving := .idle }
    | _ => none
  | .count =>
    match s.receiving with
    | .gated f _ (some _) => some (s.dropMicFrame f)
    | .gated f pad none => some (s.handOverMicFrame f pad)
    | _ => none
  | .process =>
    match s.ring with
    | [] => none
    | p :: rest => if s.taken then none else some (s.process p rest)
  | .release => if s.taken then some { s with taken := false } else none
  | .sweep serial => if s.taken then none else some (s.sweep serial)

/-- The runs whose steps each meet a condition where they are taken. -/
inductive Reaches (allowed : MicSystem → Move → Bool) : MicSystem → Prop
  | start : Reaches allowed {}
  | move {s s' : MicSystem} {m : Move} (h : Reaches allowed s) (ha : allowed s m = true)
      (hs : s.step m = some s') : Reaches allowed s'

def perform (allowed : MicSystem → Move → Bool) (s : MicSystem) : List Move → Option MicSystem
  | [] => some s
  | m :: ms => if allowed s m then (s.step m).bind fun s' => s'.perform allowed ms else none

theorem Reaches.perform {allowed : MicSystem → Move → Bool} {s t : MicSystem}
    (h : Reaches allowed s) {ms : List Move} (hp : s.perform allowed ms = some t) :
    Reaches allowed t := by
  induction ms generalizing s with
  | nil =>
    cases hp
    exact h
  | cons m ms ih =>
    simp only [MicSystem.perform] at hp
    split at hp
    next ha =>
      obtain ⟨s', hs, hrest⟩ := bind_eq_some_iff.1 hp
      exact ih (h.move ha hs) hrest
    · cases hp

def anyMove (_ : MicSystem) (_ : Move) : Bool := true

end MicSystem

/-! ## What a step can do -/

/-- The token of a frame that a move lets in. -/
def Move.arrival : Move → Option Nat
  | .arrive token _ _ _ _ => some token
  | _ => none

/-- The frame whose pad is being read. -/
def Receiving.reading : Receiving → Option MicFrame
  | .arrived f | .found f _ | .began f _ _ | .loaded f _ _ _ => some f
  | _ => none

namespace MicSystem

variable {s s' : MicSystem}

/-- The token is that of no session and not found, or that of a session whose slot is found under
it and can be read. -/
def Settled (s : MicSystem) (t : Nat) : Prop :=
  s.index t = none ∧ s.live t = false ∨
    ∃ slot, s.index t = some slot ∧ s.live t = true ∧ (s.slots slot).writing = false ∧
      (s.slots slot).token = t

theorem Settled.of_index {t slot : Nat} (h : s.Settled t) (hi : s.index t = some slot) :
    s.live t = true ∧ (s.slots slot).writing = false ∧ (s.slots slot).token = t := by
  rcases h with ⟨hnone, -⟩ | ⟨slot', hslot, hrest⟩
  · rw [hnone] at hi
    cases hi
  · obtain rfl : slot' = slot := Option.some.inj (hslot.symm.trans hi)
    exact hrest

/-- What the tables still say of the frame whose pad is being read. -/
def Holds (s : MicSystem) : Receiving → Prop
  | .arrived f => f.live = s.live f.token
  | .found f slot => f.live = true ∧ s.index f.token = some slot
  | .began f slot gen => f.live = true ∧ s.index f.token = some slot ∧ (s.slots slot).gen = gen
  | .loaded f gen token pad => f.live = true ∧ s.index f.token = some pad.slot ∧
    (s.slots pad.slot).gen = gen ∧ token = f.token
  | _ => True

/-- Its token is settled and the tables have not changed under the read. -/
structure Undisturbed (s : MicSystem) : Prop where
  holds : s.Holds s.receiving
  settled : ∀ f, s.receiving.reading = some f → s.Settled f.token

theorem gate_eq (s : MicSystem) (f : MicFrame) (pad : PadRead) (now : Nat) :
    ∃ cause rxPads, s.gate f pad now =
      { s with receiving := .gated f pad cause, rxPads := rxPads } := by
  unfold gate
  split
  · exact ⟨_, s.rxPads, rfl⟩
  · split
    · exact ⟨_, s.rxPads, rfl⟩
    · split
      · exact ⟨_, s.rxPads, rfl⟩
      · exact ⟨_, _, rfl⟩

/-- The steps, by what they do to the frame in hand, the ring, the windows and the books. -/
inductive Effect (s : MicSystem) (m : Move) : MicSystem → Prop
  /-- Topology stores, an empty frame, and the release of a cell. -/
  | aside (s' : MicSystem) : s'.books = s.books → s'.ring = s.ring →
      s'.receiving = s.receiving → s'.pads = s.pads → Effect s m s'
  | arrives (f : MicFrame) : s.receiving = .idle → f.bytes ≠ [] → f.id = s.books.nextId →
      f.live = s.live f.token → m.arrival = some f.token →
      Effect s m { s with receiving := .arrived f, books := s.books.arrive f.live }
  | reads (f : MicFrame) (r : Receiving) : s.receiving.reading = some f → r.reading = some f →
      (s.Undisturbed → s.Holds r) → Effect s m { s with receiving := r }
  | fails (f : MicFrame) : s.receiving.reading = some f →
      (s.Undisturbed → f.live = false) → Effect s m { s with receiving := .idle }
  | gates (f : MicFrame) (pad : PadRead) (cause : Option DropCause) (rxPads : Nat → RxPad) :
      s.receiving.reading = some f → (s.Undisturbed → f.live = true) →
      Effect s m { s with receiving := .gated f pad cause, rxPads := rxPads }
  | counts (f : MicFrame) (pad : PadRead) (cause : Option DropCause) (c : Counter) :
      s.receiving = .gated f pad cause →
      Effect s m { s with receiving := .idle, books := s.books.bump f.id c }
  | hands (f : MicFrame) (pad : PadRead) (p : MicPacket) : s.receiving = .gated f pad none →
      p.id = f.id → p.bytes = f.bytes → f.bytes.length ≤ micPacketMaxBytes →
      Effect s m { s with receiving := .idle, ring := s.ring ++ [p] }
  | processes (p : MicPacket) (rest : List MicPacket) : s.ring = p :: rest →
      Effect s m (s.process p rest)
  | sweeps (serial : Nat) : Effect s m (s.sweep serial)

theorem effect_handOver {m : Move} {f : MicFrame} {pad : PadRead}
    (h : s.receiving = .gated f pad none) : Effect s m (s.handOverMicFrame f pad) := by
  unfold handOverMicFrame
  split
  · exact .counts f pad none .late h
  · split
    · exact .counts f pad none .dropped h
    next hsize _ => exact .hands f pad _ h rfl rfl (Nat.le_of_not_lt hsize)

theorem effect_of_step {m : Move} (hs : s.step m = some s') : Effect s m s' := by
  cases m with
  | setLive token live | setIndex token slot =>
    cases hs
    exact .aside _ rfl rfl rfl rfl
  | beginWrite slot | store slot token keyEpoch pads | endWrite slot | release =>
    simp only [step] at hs
    split at hs <;> cases hs
    exact .aside _ rfl rfl rfl rfl
  | arrive token ctrlIdx seq bytes hostWantsMic =>
    simp only [step] at hs
    split at hs
    next hidle =>
      split at hs <;> cases hs
      · exact .aside _ rfl rfl rfl rfl
      next hne => exact .arrives _ hidle hne rfl rfl rfl
    · cases hs
  | find =>
    simp only [step] at hs
    split at hs
    next f hf =>
      have hread : s.receiving.reading = some f := by rw [hf]; rfl
      have hlive (hu : s.Undisturbed) : f.live = s.live f.token := by
        have hholds := hu.holds
        rwa [hf] at hholds
      split at hs <;> cases hs
      next hnone =>
        refine .fails f hread fun hu => (hlive hu).trans ?_
        rcases hu.settled f hread with ⟨-, hdead⟩ | ⟨slot, hslot, -⟩
        · exact hdead
        · rw [hnone] at hslot
          cases hslot
      next slot hslot =>
        refine .reads f _ hread rfl fun hu => ⟨(hlive hu).trans ?_, hslot⟩
        exact ((hu.settled f hread).of_index hslot).1
    · cases hs
  | beginRead =>
    simp only [step] at hs
    split at hs
    next f slot hf =>
      have hread : s.receiving.reading = some f := by rw [hf]; rfl
      have hholds (hu : s.Undisturbed) : f.live = true ∧ s.index f.token = some slot := by
        have hholds := hu.holds
        rwa [hf] at hholds
      split at hs <;> cases hs
      next hwriting =>
        refine .fails f hread fun hu => ?_
        rw [((hu.settled f hread).of_index (hholds hu).2).2.1] at hwriting
        cases hwriting
      · exact .reads f _ hread rfl fun hu => ⟨(hholds hu).1, (hholds hu).2, rfl⟩
    · cases hs
  | load =>
    simp only [step] at hs
    split at hs <;> cases hs
    rename_i f slot gen hf
    have hread : s.receiving.reading = some f := by rw [hf]; rfl
    refine .reads f _ hread rfl fun hu => ?_
    have hholds := hu.holds
    rw [hf] at hholds
    exact ⟨hholds.1, hholds.2.1, hholds.2.2, ((hu.settled f hread).of_index hholds.2.1).2.2⟩
  | endRead now =>
    simp only [step] at hs
    split at hs
    next f gen token pad hf =>
      have hread : s.receiving.reading = some f := by rw [hf]; rfl
      have hholds (hu : s.Undisturbed) : f.live = true ∧ s.index f.token = some pad.slot ∧
          (s.slots pad.slot).gen = gen ∧ token = f.token := by
        have hholds := hu.holds
        rwa [hf] at hholds
      split at hs <;> cases hs
      · obtain ⟨cause, rxPads, hgate⟩ := gate_eq s f pad now
        rw [hgate]
        exact .gates f pad cause rxPads hread fun hu => (hholds hu).1
      next hno => exact .fails f hread fun hu => absurd (hholds hu).2.2 hno
    · cases hs
  | count =>
    simp only [step] at hs
    split at hs <;> cases hs
    next f pad cause hf => exact .counts f pad (some cause) .dropped hf
    next f pad hf => exact effect_handOver hf
  | process =>
    simp only [step] at hs
    split at hs
    · cases hs
    next p rest hring =>
      split at hs <;> cases hs
      exact .processes p rest hring
  | sweep serial =>
    simp only [step] at hs
    split at hs <;> cases hs
    exact .sweeps serial

end MicSystem

/-! ## Accounting -/

/-- The frame the receive thread owes a count for: once its pad is read, and until then if its
token was live. -/
def Receiving.owes : Receiving → List Nat
  | .idle => []
  | .arrived f | .found f _ | .began f _ _ | .loaded f _ _ _ => if f.live then [f.id] else []
  | .gated f _ _ => [f.id]

namespace MicSystem

variable {s s' : MicSystem}

/-- The frames on their way: in the ring, or in hand. -/
def owed (s : MicSystem) : List Nat := s.ring.map MicPacket.id ++ s.receiving.owes

/-- What a step can do to the books: nothing, let a frame in, or count one that was owed. -/
inductive Keeps (s s' : MicSystem) : Prop
  | quiet : s'.books = s.books → s'.owed = s.owed → Keeps s s'
  | arrives (live : Bool) : s'.books = s.books.arrive live →
      s'.owed = s.owed ++ (if live then [s.books.nextId] else []) → Keeps s s'
  | counts (id : Nat) (c : Counter) : s'.books = s.books.bump id c →
      s.owed.Perm (id :: s'.owed) → Keeps s s'

/-- A sweep is about the worker's own pads. -/
theorem sweep_eq (s : MicSystem) (serial : Nat) :
    ∃ pads, s.sweep serial = { s with pads := pads } := by
  unfold sweep
  dsimp only
  split
  · exact ⟨s.pads, rfl⟩
  · generalize (match (s.pads serial).slot with
      | none => some false
      | some slot => s.binding slot (s.pads serial).ctrlIdx serial (s.pads serial).gen) = bound
    split
    · exact ⟨_, rfl⟩
    · exact ⟨s.pads, rfl⟩

theorem owes_of_reading {r : Receiving} {f : MicFrame} (h : r.reading = some f) :
    r.owes = if f.live then [f.id] else [] := by
  cases r <;> cases h <;> rfl

theorem step_keeps {m : Move} (hu : s.Undisturbed) (hs : s.step m = some s') :
    Keeps s s' := by
  cases effect_of_step hs with
  | aside _ hb hring hr _ => exact .quiet hb (by simp only [owed, hring, hr])
  | arrives f hidle _ hid _ _ =>
    refine .arrives f.live rfl ?_
    simp [owed, Receiving.owes, hidle, hid]
  | reads f r hf hr _ =>
    refine .quiet rfl ?_
    simp only [owed, owes_of_reading hf, owes_of_reading hr]
  | fails f hf hdead | gates f pad cause rxPads hf hdead =>
    refine .quiet rfl ?_
    simp only [owed, owes_of_reading hf, hdead hu]
    rfl
  | counts f pad cause c hf =>
    refine .counts f.id c rfl ?_
    simp only [owed, hf, Receiving.owes, append_nil]
    exact perm_append_comm
  | hands f pad p hf hid _ _ =>
    -- from the hand into the ring
    refine .quiet rfl ?_
    simp [owed, hf, hid, Receiving.owes]
  | processes p rest hring =>
    refine .counts p.id _ rfl ?_
    simp only [owed, hring, map_cons, cons_append]
    exact .refl _
  | sweeps serial =>
    obtain ⟨pads, hsweep⟩ := sweep_eq s serial
    rw [hsweep]
    exact .quiet rfl rfl

end MicSystem

namespace Books

variable {b : Books}

def counter (b : Books) : Counter → Nat
  | .accepted => b.micAccepted
  | .late => b.micLate
  | .dropped => b.micDropped

/-- Each counter says how many frames were counted in it. -/
def Tallies (b : Books) : Prop := ∀ c, b.counter c = (b.counted.map Prod.snd).count c

theorem Tallies.bump (h : b.Tallies) (id : Nat) (c : Counter) : (b.bump id c).Tallies := by
  intro d
  have hd := h d
  cases c <;> cases d <;> simp_all [Books.bump, counter]

@[simp] theorem counted_bump (id : Nat) (c : Counter) :
    (b.bump id c).counted = b.counted ++ [(id, c)] := by
  cases c <;> rfl

@[simp] theorem delivered_bump (id : Nat) (c : Counter) :
    (b.bump id c).delivered = b.delivered := by
  cases c <;> rfl

@[simp] theorem nextId_bump (id : Nat) (c : Counter) : (b.bump id c).nextId = b.nextId := by
  cases c <;> rfl

theorem count_counters (l : List Counter) :
    l.count .accepted + l.count .late + l.count .dropped = l.length := by
  induction l with
  | nil => rfl
  | cons c l ih => cases c <;> simp <;> omega

theorem Tallies.total (h : b.Tallies) :
    b.micAccepted + b.micLate + b.micDropped = b.counted.length := by
  have hsum := count_counters (b.counted.map Prod.snd)
  rw [← h .accepted, ← h .late, ← h .dropped, length_map] at hsum
  exact hsum

end Books

namespace MicSystem

variable {s s' : MicSystem}

/-- Every frame that was let in is counted or on its way, and no other is. -/
structure Inv (s : MicSystem) : Prop where
  account : (s.books.counted.map Prod.fst ++ s.owed).Perm s.books.delivered
  nodup : s.books.delivered.Nodup
  fresh : ∀ id ∈ s.books.delivered, id < s.books.nextId
  tallies : s.books.Tallies

theorem Inv.arrives (h : s.Inv) {live : Bool} (hb : s'.books = s.books.arrive live)
    (ho : s'.owed = s.owed ++ (if live then [s.books.nextId] else [])) : s'.Inv := by
  have hnew : s.books.nextId ∉ s.books.delivered := fun hmem => absurd (h.fresh _ hmem) (by omega)
  have htallies : (s.books.arrive live).Tallies := h.tallies
  cases live with
  | false =>
    simp only [Books.arrive, Bool.false_eq_true, if_false, append_nil] at hb ho htallies
    refine ⟨?_, ?_, ?_, hb ▸ htallies⟩
    · rw [hb, ho]
      exact h.account
    · rw [hb]
      exact h.nodup
    · rw [hb]
      exact fun id hid => Nat.lt_succ_of_lt (h.fresh id hid)
  | true =>
    simp only [Books.arrive, if_true] at hb ho htallies
    refine ⟨?_, ?_, ?_, hb ▸ htallies⟩
    · rw [hb, ho, ← append_assoc]
      exact h.account.append_right _
    · rw [hb]
      exact nodup_append.mpr ⟨h.nodup, nodup_singleton _, fun a ha c hc hac =>
        hnew (by simpa [← mem_singleton.mp hc, ← hac] using ha)⟩
    · rw [hb]
      intro id hid
      rcases mem_append.mp hid with hid | hid
      · exact Nat.lt_succ_of_lt (h.fresh id hid)
      · rw [mem_singleton.mp hid]
        exact Nat.lt_succ_self _

theorem Inv.counts (h : s.Inv) {id : Nat} {c : Counter} (hb : s'.books = s.books.bump id c)
    (ho : s.owed.Perm (id :: s'.owed)) : s'.Inv := by
  refine ⟨?_, ?_, ?_, ?_⟩
  · rw [hb, Books.counted_bump, Books.delivered_bump, map_append, append_assoc]
    exact (ho.symm.append_left _).trans h.account
  · rw [hb, Books.delivered_bump]
    exact h.nodup
  · rw [hb, Books.delivered_bump, Books.nextId_bump]
    exact h.fresh
  · rw [hb]
    exact h.tallies.bump id c

theorem Inv.step {m : Move} (h : s.Inv) (hu : s.Undisturbed) (hs : s.step m = some s') :
    s'.Inv := by
  cases step_keeps hu hs with
  | quiet hb ho =>
    refine ⟨?_, ?_, ?_, ?_⟩
    · rw [hb, ho]
      exact h.account
    · rw [hb]
      exact h.nodup
    · rw [hb]
      exact h.fresh
    · rw [hb]
      exact h.tallies
  | arrives live hb ho => exact h.arrives hb ho
  | counts id c hb ho => exact h.counts hb ho

theorem inv_start : Inv {} := ⟨.refl _, nodup_nil, nofun, fun c => by cases c <;> rfl⟩

/-- With no frame on its way, the three counters add up to the frames let in, each of which was
counted once, and no other frame was. -/
theorem Inv.counted_once (hinv : s.Inv) (hidle : s.receiving = .idle) (hdrained : s.ring = []) :
    s.books.micAccepted + s.books.micLate + s.books.micDropped = s.books.delivered.length ∧
      (∀ id ∈ s.books.delivered, (s.books.counted.map Prod.fst).count id = 1) ∧
      (∀ id ∉ s.books.delivered, (s.books.counted.map Prod.fst).count id = 0) ∧
      ∀ c, s.books.counter c = (s.books.counted.map Prod.snd).count c := by
  have howed : s.owed = [] := by simp [owed, hidle, hdrained, Receiving.owes]
  have hperm : (s.books.counted.map Prod.fst).Perm s.books.delivered := by
    simpa [howed] using hinv.account
  refine ⟨?_, fun id hid => ?_, fun id hid => ?_, hinv.tallies⟩
  · rw [hinv.tallies.total, ← length_map Prod.fst, hperm.length_eq]
  · rw [hperm.count_eq]
    exact count_eq_one_of_mem hinv.nodup hid
  · rw [hperm.count_eq]
    exact count_eq_zero_of_not_mem hid

/-- A session in slot 0, with a microphone plugged at pad 0, published under a key. -/
def publishSession (token keyEpoch : Nat) : List Move :=
  [.setLive token true, .beginWrite 0,
    .store 0 token keyEpoch fun _ => { active := true, serial := 1, caps := capMic, gen := 1 },
    .endWrite 0, .setIndex token (some 0)]

/-- A frame from its arrival to its count or the ring. -/
def receiveFrame (token : Nat) (seq : UInt16) : List Move :=
  [.arrive token 0 seq [1] true, .find, .beginRead, .load, .endRead 0, .count]

def workOff : List Move := [.process, .release]

/-! ## The window a packet meets -/

end MicSystem

theorem JitterRun.run_snoc (calls : List JitterCall) (c : JitterCall) :
    run (calls ++ [c]) = (run calls).step c := by
  rw [run, foldl_append]
  rfl

/-- Whether a window takes a packet that fits: before its first packet any, afterwards one that is
not behind and not held. -/
theorem JitterWindow.push_ok_iff {w : JitterWindow} (h : w.Ready) {seq : UInt16}
    {bytes : List UInt8} (hfit : JitterWindow.Fits (some bytes)) :
    (w.push seq (some bytes)).2.accept = .ok ↔
      w.primed = false ∨ w.ahead seq < 32768 ∧ ∀ p ∈ w.slots, p.seq ≠ seq := by
  have hcases := push_cases h seq (some bytes)
  generalize (w.push seq (some bytes)).1 = w' at hcases
  generalize (w.push seq (some bytes)).2 = result at hcases
  cases hcases with
  | rejected hno => exact absurd hfit hno
  | late _ hprimed hfar =>
    refine ⟨nofun, fun hor => ?_⟩
    rcases hor with hun | ⟨hnear, _⟩
    · rw [hprimed] at hun
      cases hun
    · omega
  | direct _ hslots hseq =>
    refine ⟨fun _ => ?_, fun _ => rfl⟩
    cases hprimed : w.primed with
    | false => exact .inl rfl
    | true =>
      have hzero := (JitterWindow.ahead_eq_zero w).2 (hseq hprimed)
      refine .inr ⟨by omega, ?_⟩
      rw [hslots]
      exact nofun
  | duplicate _ hprimed hheld =>
    refine ⟨nofun, fun hor => ?_⟩
    obtain ⟨p, hp, hpseq⟩ := hheld
    rcases hor with hun | ⟨_, hne⟩
    · rw [hprimed] at hun
      cases hun
    · exact absurd hpseq (hne p hp)
  | held _ _ hnear hne => exact ⟨fun _ => .inr ⟨hnear, hne⟩, fun _ => rfl⟩

namespace MicSystem

variable {s s' : MicSystem}

/-- The frame in hand, if any, is not empty. -/
def HandFits (r : Receiving) : Prop :=
  (∀ f, r.reading = some f → f.bytes ≠ []) ∧ ∀ f pad cause, r = .gated f pad cause → f.bytes ≠ []

/-- The windows are those of runs of calls, and what is on its way to them fits. -/
structure Fitting (s : MicSystem) : Prop where
  windows : ∀ serial, ∃ calls, (s.pads serial).window = (JitterRun.run calls).window
  ring : ∀ p ∈ s.ring, JitterWindow.Fits (some p.bytes)
  hand : HandFits s.receiving

theorem handFits_idle : HandFits .idle := ⟨nofun, nofun⟩

theorem handFits_of_reading {r : Receiving} {f : MicFrame} (hr : r.reading = some f)
    (hne : f.bytes ≠ []) : HandFits r := by
  refine ⟨fun g hg => ?_, fun g pad cause hg => ?_⟩
  · rw [hr] at hg
    cases hg
    exact hne
  · rw [hg] at hr
    cases hr

/-- One pad's window is called. -/
theorem Fitting.setWindow (h : s.Fitting) {serial : Nat} {pad : MicPad}
    (hw : ∃ calls, pad.window = (run calls).window) (k : Nat) :
    ∃ calls, (update s.pads serial pad k).window = (run calls).window := by
  by_cases hk : k = serial
  · subst hk
    rw [update_self]
    exact hw
  · rw [update_of_ne hk]
    exact h.windows k

theorem Fitting.padFor (h : s.Fitting) (p : MicPacket) :
    ∃ calls, (s.padFor p).window = (run calls).window := by
  obtain ⟨calls, hcalls⟩ := h.windows p.serial
  unfold MicSystem.padFor
  dsimp only
  split
  · exact ⟨calls, hcalls⟩
  · refine ⟨calls ++ [.reset], ?_⟩
    rw [run_snoc]
    rfl

theorem Fitting.process (h : s.Fitting) {p : MicPacket} {rest : List MicPacket}
    (hring : s.ring = p :: rest) : (s.process p rest).Fitting where
  windows := by
    obtain ⟨calls, hcalls⟩ := h.padFor p
    apply h.setWindow
    refine ⟨calls ++ [.push p.seq (some p.bytes)], ?_⟩
    rw [run_snoc, hcalls]
    rfl
  ring q hq := h.ring q (by rw [hring]; exact mem_cons_of_mem _ hq)
  hand := h.hand

theorem Fitting.sweep (h : s.Fitting) (serial : Nat) : (s.sweep serial).Fitting := by
  unfold MicSystem.sweep
  dsimp only
  split
  · exact h
  · generalize (match (s.pads serial).slot with
      | none => some false
      | some slot => s.binding slot (s.pads serial).ctrlIdx serial (s.pads serial).gen) = bound
    split
    · obtain ⟨calls, hcalls⟩ := h.windows serial
      refine ⟨h.setWindow ⟨calls ++ [.reset], ?_⟩, h.ring, h.hand⟩
      rw [run_snoc]
      rfl
    · exact h

theorem Fitting.step {m : Move} (h : s.Fitting) (hs : s.step m = some s') : s'.Fitting := by
  cases effect_of_step hs with
  | aside _ _ hring hr hpads => exact ⟨hpads ▸ h.windows, hring ▸ h.ring, hr ▸ h.hand⟩
  | arrives f _ hne _ _ _ => exact ⟨h.windows, h.ring, handFits_of_reading rfl hne⟩
  | reads f r hf hr _ => exact ⟨h.windows, h.ring, handFits_of_reading hr (h.hand.1 f hf)⟩
  | fails f _ _ | counts f pad cause c _ => exact ⟨h.windows, h.ring, handFits_idle⟩
  | gates f pad cause rxPads hf _ =>
    refine ⟨h.windows, h.ring, nofun, fun g pad' cause' hg => ?_⟩
    cases hg
    exact h.hand.1 f hf
  | hands f pad p hf _ hbytes hsize =>
    refine ⟨h.windows, fun q hq => ?_, handFits_idle⟩
    rcases mem_append.mp hq with hq | hq
    · exact h.ring q hq
    · rw [mem_singleton.mp hq, hbytes]
      refine ⟨f.bytes, rfl, fun hlen => ?_, hsize⟩
      exact h.hand.2 f pad none hf (length_eq_zero_iff.mp hlen)
  | processes p rest hring => exact h.process hring
  | sweeps serial => exact h.sweep serial

theorem reaches_fitting {allowed : MicSystem → Move → Bool} (h : Reaches allowed s) :
    s.Fitting := by
  induction h with
  | start => exact ⟨fun _ => ⟨[], rfl⟩, nofun, handFits_idle⟩
  | move _ _ hs ih => exact ih.step hs

/-- The pad was kept for another plug, or its window has seen no packet, or it neither has passed
the packet's number nor holds a packet of it. -/
def Fresh (s : MicSystem) (p : MicPacket) : Prop :=
  (s.pads p.serial).gen ≠ p.gen ∨ (s.pads p.serial).window.primed = false ∨
    (s.pads p.serial).window.ahead p.seq < 32768 ∧
      ∀ q ∈ (s.pads p.serial).window.slots, q.seq ≠ p.seq

theorem push_padFor_ok_iff (h : s.Fitting) {p : MicPacket}
    (hfit : JitterWindow.Fits (some p.bytes)) :
    ((s.padFor p).window.push p.seq (some p.bytes)).2.accept = .ok ↔ s.Fresh p := by
  obtain ⟨calls, hcalls⟩ := h.padFor p
  have hready : (s.padFor p).window.Ready := by
    rw [hcalls]
    exact (run_inv calls).ready
  rw [JitterWindow.push_ok_iff hready hfit]
  by_cases hgen : (s.pads p.serial).gen = p.gen
  · simp only [padFor, hgen, if_true, Fresh, ne_eq, not_true, false_or]
  · simp only [padFor, hgen, if_false, Fresh, ne_eq, not_false_iff, true_or, iff_true]
    exact .inl rfl

/-- A packet that passed the gates is accepted by the window of its pad exactly if it is fresh to
it, whatever the keys are under which it and the packets before it came; otherwise it is counted
late. -/
theorem first_packet_accepted_iff (h : Reaches anyMove s) {p : MicPacket} {rest : List MicPacket}
    (hfront : s.ring = p :: rest) (hfree : s.taken = false) :
    ∃ s', s.step .process = some s' ∧
      (s'.books = s.books.bump p.id .accepted ↔ s.Fresh p) ∧
      (¬ s.Fresh p → s'.books = s.books.bump p.id .late) := by
  have hfitting := reaches_fitting h
  have hfit := hfitting.ring p (by rw [hfront]; exact mem_cons_self)
  have hok := push_padFor_ok_iff hfitting hfit
  refine ⟨s.process p rest, by simp [MicSystem.step, hfront, hfree], ⟨fun hb => ?_, fun hf => ?_⟩,
    fun hn => ?_⟩
  · by_contra hn
    have hcount := congrArg Books.micLate hb
    simp [process, mt hok.mp hn, Books.bump] at hcount
  · simp [process, hok.mpr hf]
  · simp [process, mt hok.mp hn]

theorem first_frame_performs :
    (perform anyMove {} (publishSession 7 1 ++ receiveFrame 7 100)).isSome = true := by
  decide +kernel

/-- The first frame of a session waits in the ring. -/
def firstFrame : MicSystem :=
  (perform anyMove {} (publishSession 7 1 ++ receiveFrame 7 100)).get first_frame_performs

theorem first_packet_accepted_iff_applies : ∃ p s', firstFrame.ring = [p] ∧
    firstFrame.step .process = some s' ∧ s'.books = firstFrame.books.bump p.id .accepted := by
  have hreach : Reaches anyMove firstFrame :=
    Reaches.perform .start (some_get first_frame_performs).symm
  have hring : firstFrame.ring = [{ id := 0, serial := 1, gen := 1, slot := 0, ctrlIdx := 0,
                                    keyEpoch := 1, seq := 100, bytes := [1] }] := by
    decide +kernel
  obtain ⟨s', hs, hiff, _⟩ := first_packet_accepted_iff hreach hring (by decide +kernel)
  exact ⟨_, s', hring, hs, hiff.mpr (.inl (by decide +kernel))⟩

/-- A re-PUT under which the pad stays plugged: a new token and key, the same pads. -/
def rekey : List Move := [.setLive 7 false] ++ publishSession 8 2 ++ [.setIndex 7 none]

/-- Packet 100 under the first key, then packet 5 as the first under the next. -/
def acrossKeys : List Move :=
  publishSession 7 1 ++ receiveFrame 7 100 ++ workOff ++ rekey ++ receiveFrame 8 5

theorem across_keys_performs : (perform anyMove {} acrossKeys).isSome = true := by
  decide +kernel

/-- The first packet of the second key waits in the ring. -/
def rekeyed : MicSystem := (perform anyMove {} acrossKeys).get across_keys_performs

theorem rekeyed_processes : (rekeyed.step .process).isSome = true := by
  decide +kernel

theorem first_packet_of_key_late : ∃ s s' p, perform anyMove {} acrossKeys = some s ∧
    s.ring = [p] ∧ p.keyEpoch = 2 ∧ s.books.counted = [(0, .accepted)] ∧
      s.step .process = some s' ∧ s'.books.counted = [(0, .accepted), (p.id, .late)] := by
  refine ⟨rekeyed, (rekeyed.step .process).get rekeyed_processes,
    { id := 1, serial := 1, gen := 1, slot := 0, ctrlIdx := 0, keyEpoch := 2, seq := 5
      bytes := [1] }, (some_get across_keys_performs).symm, ?_, rfl, ?_,
    (some_get rekeyed_processes).symm, ?_⟩
  all_goals decide +kernel

end MicSystem

end Satellite.Audio
