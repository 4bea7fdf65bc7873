import Satellite.Lib.Interleaving
import Satellite.Pointer.Mpsc

/-!
# The log writer

`core/log_writer.cpp`: producers push records into a queue, one thread drains it in passes
and hands each pass's lines to the sink in one write, and a flush infers from two counters
whether what was queued at its call has reached the disk: `durable_`, up to where the
passes have been written and flushed, and `lostFrom_`, from where a write has failed.

Every access to something two threads share is one instruction, and so is every call of the
sink, which answers as it likes. What only decides how long the writer sleeps is left out
(`urgent_`, `sleeping_`, `wake_`, the depth of the queue), and so are the recent ring and the
text of a line, which is made of its record alone. Positions are counted without a bound.
-/

namespace Satellite.Log

open Prog Pointer

inductive LogLevel
  | info | warn | err
  deriving DecidableEq

structure LogRecord where
  level : LogLevel := .info
  /-- `LOG_RECORD_RING_ONLY`: the crash path has written the line itself. -/
  ringOnly : Bool := false
  message : List Char := []
  deriving DecidableEq

def logQueueCapacity : Nat := 4096

/-- A line of a batch: that of the record at a position, or the count of the refused ones. -/
inductive Line
  | record (position : Nat) (record : LogRecord)
  | dropped (count : Nat)
  deriving DecidableEq

/-- A call the sink has answered. -/
inductive SinkCall
  | write (batch : List Line) (ok : Bool)
  | flush (ok : Bool)
  deriving DecidableEq

/-- `thread_`: joinable from its creation until it is joined. -/
inductive WriterThread
  | none | created | live | finished
  deriving DecidableEq

/-- What the writer thread alone reads and writes: its fields, and the variables of `run`. -/
structure Own where
  lastDropped : Nat := 0
  handledFlushTarget : Nat := 0
  acknowledgedDurable : Nat := 0
  acknowledgedLost : Option Nat := none
  unflushed : Bool := false
  stopping : Bool := false
  finalTarget : Nat := 0

structure LogWriter where
  queue : MpscQueue LogRecord := {}
  dropped : Nat := 0
  running : Bool := false
  stopping : Bool := false
  flushTarget : Nat := 0
  durable : Nat := 0
  /-- Nothing stands for the largest 64-bit number, which no position reaches. -/
  lostFrom : Option Nat := none
  flushWaiters : Nat := 0
  flushAck : Nat := 0
  thread : WriterThread := .none
  own : Own := {}
  /-- The records accepted, in the order in which they were: the one at `p` has position `p`. -/
  accepted : List LogRecord := []
  /-- The calls of the sinks. -/
  sink : List SinkCall := []
  /-- The flushes that have returned: how many records had been accepted when it was
  called, and its answer. -/
  flushed : List (Nat × Bool) := []

/-- `lostFrom_ >= target`. -/
def reaches : Option Nat → Nat → Bool
  | none, _ => true
  | some lost, target => decide (target ≤ lost)

/-- `lowerTo`; only the writer thread lowers `lostFrom_`. -/
def lower (lost : Option Nat) (position : Nat) : Option Nat :=
  some (lost.elim position (min position))

inductive Instr
  /- The queue. -/
  | claim (record : LogRecord)
  | publish (position : Nat) (record : LogRecord)
  | enqueued
  | dropped
  | consumed
  | pop
  /- The shared fields. -/
  | running
  | setRunning (value : Bool)
  | stopping
  | setStopping (value : Bool)
  | flushTarget
  | raiseTo (target : Nat)
  | durable
  | storeDurable (position : Nat)
  | lostFrom
  | lowerTo (position : Nat)
  | flushWaiters
  | joinWaiters
  | leaveWaiters
  /-- `try_acquire_until`: false at the deadline. -/
  | acquireAck
  | releaseAck (count : Nat)
  /- The sink. -/
  | rotateIfDue
  | write (batch : List Line)
  | flushSink
  /- The thread. -/
  | joinable
  /-- False when the system has no thread to give. -/
  | spawn
  | join
  | begin
  | finish
  | own
  | setOwn (own : Own)
  /-- The interval since the last flush of the sink has passed. -/
  | intervalPassed
  /- The call and the return of a flush. -/
  | flushCall
  | flushReturn (accepted : Nat) (answer : Bool)

abbrev Instr.Answer : Instr → Type
  | .claim _ => Option Nat
  | .pop => Option LogRecord
  | .lostFrom => Option Nat
  | .own => Own
  | .running | .stopping | .acquireAck | .rotateIfDue | .write _ | .flushSink | .joinable
  | .spawn | .intervalPassed => Bool
  | .enqueued | .dropped | .consumed | .flushTarget | .durable | .flushWaiters | .flushCall => Nat
  | _ => Unit

/-- One instruction: its answer, and the state after it. The choice is what the instruction
leaves to the sink, the clock and the system. A `join` waits for the thread to finish, and the
thread for its creation. -/
def LogWriter.exec (s : LogWriter) (choice : Bool) : (i : Instr) → Option (i.Answer × LogWriter)
  | .claim record =>
    match s.queue.claim logQueueCapacity with
    | some (position, queue) =>
      some (some position, { s with queue := queue, accepted := s.accepted ++ [record] })
    | none => some (none, { s with dropped := s.dropped + 1 })
  | .publish position record => some ((), { s with queue := s.queue.publish position record })
  | .enqueued => some (s.queue.cells.length, s)
  | .dropped => some (s.dropped, s)
  | .consumed => some (s.queue.dequeuePos, s)
  | .pop =>
    match s.queue.pop with
    | some (record, queue) => some (some record, { s with queue := queue })
    | none => some (none, s)
  | .running => some (s.running, s)
  | .setRunning b => some ((), { s with running := b })
  | .stopping => some (s.stopping, s)
  | .setStopping b => some ((), { s with stopping := b })
  | .flushTarget => some (s.flushTarget, s)
  | .raiseTo target => some ((), { s with flushTarget := max s.flushTarget target })
  | .durable => some (s.durable, s)
  | .storeDurable n => some ((), { s with durable := n })
  | .lostFrom => some (s.lostFrom, s)
  | .lowerTo position => some ((), { s with lostFrom := lower s.lostFrom position })
  | .flushWaiters => some (s.flushWaiters, s)
  | .joinWaiters => some ((), { s with flushWaiters := s.flushWaiters + 1 })
  | .leaveWaiters => some ((), { s with flushWaiters := s.flushWaiters - 1 })
  | .acquireAck =>
    if choice then
      if 0 < s.flushAck then some (true, { s with flushAck := s.flushAck - 1 }) else none
    else some (false, s)
  | .releaseAck n => some ((), { s with flushAck := s.flushAck + n })
  | .rotateIfDue => some (choice, s)
  | .write batch => some (choice, { s with sink := s.sink ++ [.write batch choice] })
  | .flushSink => some (choice, { s with sink := s.sink ++ [.flush choice] })
  | .joinable => some (decide (s.thread ≠ .none), s)
  | .spawn => some (choice, if choice then { s with thread := .created } else s)
  | .join => if s.thread = .finished then some ((), { s with thread := .none }) else none
  | .begin =>
    if s.thread = .created then
      some ((), { s with
        thread := .live
        own.unflushed := false
        own.stopping := false
        own.finalTarget := 0 })
    else none
  | .finish => some ((), { s with thread := .finished })
  | .own => some (s.own, s)
  | .setOwn own => some ((), { s with own := own })
  | .intervalPassed => some (choice, s)
  | .flushCall => some (s.accepted.length, s)
  | .flushReturn n answer => some ((), { s with flushed := s.flushed ++ [(n, answer)] })

/-- What one instruction may answer and do. -/
def LogWriter.step (s : LogWriter) (i : Instr) (r : i.Answer) (t : LogWriter) : Prop :=
  ∃ choice, s.exec choice i = some (r, t)

abbrev Task := Prog Instr Instr.Answer

abbrev run (i : Instr) : Task i.Answer := Prog.call i

/-! ## The callers -/

/-- `submit`; a full queue refuses the record. -/
def submit (record : LogRecord) : Task Bool := do
  let position ← run (.claim record)
  match (position : Option Nat) with
  | some position => do
    run (.publish position record)
    pure true
  | none => pure false

def covered (target : Nat) : Task Bool := do
  let durable ← run .durable
  if target ≤ durable then do
    let lost ← run .lostFrom
    pure (reaches lost target)
  else pure false

/-- The loop of `flush`, entered with what `covered` answered. -/
def awaitAck (target : Nat) (done : Bool) : Task Bool :=
  if done then pure true
  else loop do
    let running ← run .running
    if running then do
      let lost ← run .lostFrom
      if reaches lost target then do
        let acked ← run .acquireAck
        if acked then do
          let done ← covered target
          pure (if done then some true else none)
        else pure (some false)
      else pure (some false)
    else pure (some false)

/-- `flush` on a thread that is not the writer's own. -/
def flush : Task Bool := do
  let running ← run .running
  if running then do
    let target ← run .enqueued
    let done ← covered target
    if done then pure true
    else do
      let lost ← run .lostFrom
      if reaches lost target then do
        run (.raiseTo target)
        run .joinWaiters
        let done ← covered target
        let done ← awaitAck target done
        run .leaveWaiters
        if done then pure true else covered target
      else pure false
  else pure false

/-- A flush between its call and its return. -/
def flushCall : Task Unit := do
  let accepted ← run .flushCall
  let answer ← flush
  run (.flushReturn accepted answer)

/-- `start` with a sink. -/
def start : Task Unit := do
  let joinable ← run .joinable
  if joinable then pure ()
  else do
    run (.setStopping false)
    run (.setRunning true)
    let spawned ← run .spawn
    if spawned then pure () else run (.setRunning false)

def stop : Task Unit := do
  let joinable ← run .joinable
  if joinable then do
    run (.setStopping true)
    run .join
    run (.setRunning false)
    let waiting ← run .flushWaiters
    if 0 < waiting then run (.releaseAck waiting) else pure ()
  else pure ()

/-! ## The writer -/

/-- The lines of a pass, and whether one of them is urgent. -/
structure Batch where
  lines : List Line := []
  urgentLine : Bool := false

def Batch.take (b : Batch) (position : Nat) (record : LogRecord) : Batch :=
  if record.ringOnly then b
  else ⟨b.lines ++ [.record position record], b.urgentLine || decide (record.level ≠ .info)⟩

/-- The count of the refused records is a WARN line. -/
def Batch.takeDropLine (b : Batch) (count : Nat) : Batch := ⟨b.lines ++ [.dropped count], true⟩

/-- What a pass has drained so far. -/
structure Drained where
  batch : Batch := {}
  dropLinePending : Bool
  popped : Nat := 0

/-- The drop line, when it is due. -/
def Drained.dropLine (d : Drained) (due : Bool) (count : Nat) : Drained :=
  if d.dropLinePending && due then
    { d with batch := d.batch.takeDropLine count, dropLinePending := false }
  else d

def Drained.take (d : Drained) (position : Nat) (record : LogRecord) : Drained :=
  { d with batch := d.batch.take position record, popped := d.popped + 1 }

/-- The loop of `pass`, with room for so many more records. -/
def drain (count queuedAtStart : Nat) : Nat → Drained → Task Drained
  | 0, d => pure d
  | room + 1, d => do
    let position ← run .consumed
    let record ← run .pop
    match (record : Option LogRecord) with
    | none => pure d
    | some record =>
      drain count queuedAtStart room
        ((d.dropLine (decide (queuedAtStart ≤ position)) count).take position record)

/-- The write of a pass, with what is then not flushed. -/
def writeBatch (passStart : Nat) (batch : Batch) (unflushed : Bool) : Task Bool :=
  if batch.lines.isEmpty then pure unflushed
  else do
    let ok ← run (.write batch.lines)
    if ok then pure true
    else do
      run (.lowerTo passStart)
      pure unflushed

def acknowledge : Task Unit := do
  let durable ← run .durable
  let lost ← run .lostFrom
  let own ← run .own
  if (durable : Nat) = own.acknowledgedDurable ∧ (lost : Option Nat) = own.acknowledgedLost then
    pure ()
  else do
    run (.setOwn { own with acknowledgedDurable := durable, acknowledgedLost := lost })
    let waiting ← run .flushWaiters
    if 0 < waiting then run (.releaseAck waiting) else pure ()

/-- The flush of a pass, with what is then not flushed. -/
def flushBatch (unflushed due : Bool) : Task Bool :=
  if unflushed && due then do
    let ok ← run .flushSink
    pure (!ok)
  else pure unflushed

def pass (stopping : Bool) : Task Unit := do
  let own ← run .own
  let droppedNow ← run .dropped
  let queuedAtStart ← run .enqueued
  let passStart ← run .consumed
  let count := droppedNow - own.lastDropped
  let drained ← drain count queuedAtStart logQueueCapacity
    { dropLinePending := decide ((droppedNow : Nat) ≠ own.lastDropped) }
  let batch := (drained.dropLine true count).batch
  let consumedNow ← run .consumed
  let _ ← run .rotateIfDue
  let unflushed ← writeBatch passStart batch own.unflushed
  let target ← run .flushTarget
  let flushAsked := decide (own.handledFlushTarget < target ∧ target ≤ consumedNow)
  let intervalPassed ← run .intervalPassed
  let unflushed ← flushBatch unflushed
    (batch.urgentLine || flushAsked || stopping || intervalPassed)
  run (.setOwn { own with
    lastDropped := droppedNow
    handledFlushTarget := if flushAsked then target else own.handledFlushTarget
    unflushed := unflushed })
  if unflushed then pure () else run (.storeDurable consumedNow)
  acknowledge

/-- The writer finds out that it has to stop, and up to where it still has to drain. -/
def noticeStop : Task Unit := do
  let own ← run .own
  if own.stopping then pure ()
  else do
    let stopping ← run .stopping
    if stopping then do
      let finalTarget ← run .enqueued
      run (.setOwn { own with stopping := true, finalTarget := finalTarget })
    else pure ()

/-- `run`, from the creation of the thread to its end. -/
def writer : Task Unit := do
  run .begin
  loop do
    noticeStop
    let own ← run .own
    pass own.stopping
    let consumed ← run .consumed
    pure (if own.stopping && decide (own.finalTarget ≤ consumed) then some () else none)
  run .finish

/-! ## The system -/

/-- The writer, the thread that starts and stops it, and any number of others. -/
inductive Thread
  | writer
  | control
  | caller (n : Nat)
  deriving DecidableEq

def menu : Thread → Task Unit → Prop
  | .writer, p => p = writer
  | .control, p => p = start ∨ p = stop
  | .caller _, p => p = flushCall ∨ ∃ record, p = (submit record).bind fun _ => pure ()

def logging : System Thread Instr Instr.Answer LogWriter where
  init s := s = {}
  step _ i s r t := s.step i r t
  menu := menu

/-- The instructions are carried out as they are modelled, where a condition is met. -/
def executor (G : LogWriter → LogWriter → Prop) [∀ s t, Decidable (G s t)] :
    (logging.restrict G).Executor Bool where
  exec s choice i := (s.exec choice i).bind fun a => if G s a.2 then some a else none
  sound t s choice i r u h := by
    obtain ⟨a, ha, hG⟩ := Option.bind_eq_some_iff.1 h
    split at hG
    next hs =>
      cases hG
      exact ⟨⟨choice, ha⟩, hs⟩
    · cases hG

end Satellite.Log
