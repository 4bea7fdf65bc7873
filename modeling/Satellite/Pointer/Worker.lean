import Satellite.Model.Types

/-!
# The pointer worker

`PointerWorker` of `core/pointer_worker.cpp`: one thread owns what every pad
contributes to the host's mouse buttons and injects their union. The host itself is
part of the state: a call of `submitRelativeMouse` that returns true sets its levels
and one that returns false leaves them. What the worker asks of its surroundings while
it handles one input (the host's answer, the clock, a session's device name) comes with
the input.
-/

namespace Satellite.Pointer

open Function List

/-! ## Reports -/

inductive Button
  | left
  | right
  | middle
  deriving DecidableEq

structure MouseButtons where
  left : Bool := false
  right : Bool := false
  middle : Bool := false
  deriving DecidableEq

namespace MouseButtons

def level (m : MouseButtons) : Button → Bool
  | .left => m.left
  | .right => m.right
  | .middle => m.middle

def or (m n : MouseButtons) : MouseButtons :=
  ⟨m.left || n.left, m.right || n.right, m.middle || n.middle⟩

def anyHeld (m : MouseButtons) : Bool := m.left || m.right || m.middle

@[simp] theorem level_or (m n : MouseButtons) (b : Button) :
    (m.or n).level b = (m.level b || n.level b) := by
  cases b <;> rfl

@[simp] theorem level_empty (b : Button) : (MouseButtons.mk false false false).level b = false := by
  cases b <;> rfl

theorem eq_empty_of_not_anyHeld {m : MouseButtons} (h : m.anyHeld = false) : m = {} := by
  obtain ⟨l, r, c⟩ := m
  simp only [anyHeld, Bool.or_eq_false_iff] at h
  obtain ⟨⟨rfl, rfl⟩, rfl⟩ := h
  rfl

end MouseButtons

structure TouchpadFinger where
  active : Bool := false
  trackingId : UInt8 := 0
  x : Int16 := 0
  y : Int16 := 0

/-- The part of a touchpad report the pointer reads; the second finger is not. -/
structure TouchpadReport where
  finger0 : TouchpadFinger := {}
  buttonPressed : Bool := false
  rightPressed : Bool := false
  middlePressed : Bool := false
  eventTimeMs : UInt32 := 0
  scrollV : Int16 := 0

/-- An index of the pad array: serials are `1..16`, and the array has a cell for 0. -/
abbrev Serial := Fin (maxBackendControllers + 1)

structure PointerFrame where
  serial : Serial
  stamp : Nat
  slot : Nat
  row : Nat
  report : TouchpadReport

inductive PointerCommand
  | release (serial : Serial) (stamp : Nat)
  | retry
  | backdateRefusalLog (slot row seconds : Nat)
  deriving DecidableEq

/-! ## Motion -/

def touchpadMouseSensitivity : Float32 := 0.042
def touchpadMouseReferenceMs : Int := 4
def touchpadMouseMinDtMs : Int := 1
def touchpadMouseMaxGapMs : Int := 100
def pointerRefusalLogIntervalSec : Nat := 10

structure PointerMotion where
  dx : Int := 0
  dy : Int := 0
  wheel : Int := 0
  buttons : MouseButtons := {}
  buttonsChanged : Bool := false

/-- The signed time between two samples of a 32-bit millisecond clock. -/
def dtMs (prev report : TouchpadReport) : Int :=
  (report.eventTimeMs - prev.eventTimeMs).toInt32.toInt

/-- One axis: whole pixels, and the fraction carried to the next report. -/
def axisMotion (prev report : Int16) (scale rem : Float32) : Int × Float32 :=
  let f := Float32.ofInt (report.toInt - prev.toInt) * touchpadMouseSensitivity * scale + rem
  let d := f.toInt32.toInt
  (d, f - Float32.ofInt d)

def touchpadPointerMotion (prev : TouchpadReport) (prevValid : Bool) (report : TouchpadReport)
    (remX remY : Float32) : PointerMotion × Float32 × Float32 :=
  let continuous := prevValid && prev.finger0.active && report.finger0.active &&
    prev.finger0.trackingId == report.finger0.trackingId
  let dt := dtMs prev report
  let moved : (Int × Float32) × (Int × Float32) :=
    if continuous then
      if touchpadMouseMaxGapMs < dt then ((0, 0), (0, 0))
      else if 0 < dt then
        let clamped := if dt < touchpadMouseMinDtMs then touchpadMouseMinDtMs else dt
        let scale := Float32.ofInt touchpadMouseReferenceMs / Float32.ofInt clamped
        (axisMotion prev.finger0.x report.finger0.x scale remX,
          axisMotion prev.finger0.y report.finger0.y scale remY)
      -- a resend carries the time of the report it repeats
      else ((0, remX), (0, remY))
    else ((0, 0), (0, 0))
  ({ dx := moved.1.1
     dy := moved.2.1
     wheel := if prevValid && decide (dt ≤ 0) then 0 else report.scrollV.toInt
     buttons := ⟨report.buttonPressed, report.rightPressed, report.middlePressed⟩
     buttonsChanged :=
       if prevValid then
         prev.buttonPressed != report.buttonPressed || prev.rightPressed != report.rightPressed ||
           prev.middlePressed != report.middlePressed
       else report.buttonPressed || report.rightPressed || report.middlePressed },
    moved.1.2, moved.2.2)

/-! ## The worker -/

structure Pad where
  buttons : MouseButtons := {}
  releaseStamp : Nat := 0
  stamp : Nat := 0
  prev : TouchpadReport := {}
  prevValid : Bool := false
  remX : Float32 := 0
  remY : Float32 := 0

structure Session where
  row : Nat := 0
  refusedRun : UInt32 := 0
  refusalLogged : Bool := false
  /-- Clock ticks; 0 is "never", and a backdated time may lie before it. -/
  refusalLoggedAt : Int := 0

/-- The host's mouse: its button levels, and the motion it has accepted. -/
structure Host where
  levels : MouseButtons := {}
  x : Int := 0
  y : Int := 0
  wheel : Int := 0

inductive LogLevel
  | info
  | warn
  deriving DecidableEq

structure Worker where
  pads : Serial → Pad := fun _ => {}
  sessions : Nat → Session := fun _ => {}
  retryPending : Bool := false
  injected : UInt64 := 0
  refused : UInt64 := 0
  lastFrameOk : Bool := false
  host : Host := {}
  log : List (LogLevel × String) := []

/-- What the surroundings answer while one input is handled. -/
structure Answer where
  /-- The result of `submitRelativeMouse`, if it is called. -/
  submitted : Bool
  now : Int := 0
  /-- The result of `deviceName`, if it is called. -/
  name : Option String := none

def Host.submitRelativeMouse (h : Host) (dx dy : Int) (held : MouseButtons) (wheel : Int)
    (ok : Bool) : Host :=
  if ok then ⟨held, h.x + dx, h.y + dy, h.wheel + wheel⟩ else h

/-- The union over the pad array, in the order of the loop in `submit`. -/
def heldButtons (pads : Serial → Pad) : MouseButtons :=
  (List.finRange (maxBackendControllers + 1)).foldl (fun held s => held.or (pads s).buttons) {}

namespace Worker

def setPad (w : Worker) (s : Serial) (p : Pad) : Worker :=
  { w with pads := update w.pads s p }

def setSession (w : Worker) (slot : Nat) (s : Session) : Worker :=
  { w with sessions := update w.sessions slot s }

def session (w : Worker) (slot row : Nat) : Session :=
  let s := w.sessions slot
  if s.row ≠ row then { row := row } else s

/-- The call to the host, and the flag every caller sets from its result. -/
def submit (w : Worker) (dx dy wheel : Int) (ok : Bool) : Worker :=
  { w with
    host := w.host.submitRelativeMouse dx dy (heldButtons w.pads) wheel ok
    retryPending := !ok }

def acceptedAgainText (name : String) (refusedRun : UInt32) : String :=
  "Host is accepting pointer input for " ++ name ++ " again after " ++
    toString refusedRun.toNat ++ (if refusedRun = 1 then " refused frame" else " refused frames")

def refusedText (name : String) : String :=
  "Host refused to inject pointer input for " ++ name ++
    "; the frames arrive but the OS drops them (on Windows this happens while " ++
    "the foreground window belongs to a process with higher privileges than Satellite)"

def record (w : Worker) (slot row : Nat) (a : Answer) : Worker :=
  let s := w.session slot row
  if a.submitted then
    let lines := match s.refusalLogged, a.name with
      | true, some name => [(LogLevel.info, acceptedAgainText name s.refusedRun)]
      | _, _ => []
    { w.setSession slot { s with refusedRun := 0, refusalLogged := false } with
      injected := w.injected + 1
      log := w.log ++ lines }
  else
    let s := { s with refusedRun := s.refusedRun + 1 }
    let w := { w.setSession slot s with refused := w.refused + 1 }
    if s.refusedRun ≠ 1 then w
    else if s.refusalLoggedAt ≠ 0 ∧
        a.now - s.refusalLoggedAt < seconds pointerRefusalLogIntervalSec then w
    else match a.name with
      | none => w
      | some name =>
        { w.setSession slot { s with refusalLoggedAt := a.now, refusalLogged := true } with
          log := w.log ++ [(LogLevel.warn, refusedText name)] }

/-- The pad a frame is applied to: a stamp not seen before starts a new gesture. -/
def gesture (p : Pad) (stamp : Nat) : Pad :=
  if p.stamp ≠ stamp then { p with stamp := stamp, prevValid := false, remX := 0, remY := 0 } else p

/-- The pad after a frame that is not stale, and the motion to inject. -/
def contribute (p : Pad) (frame : PointerFrame) : Pad × PointerMotion :=
  let p := gesture p frame.stamp
  let m := touchpadPointerMotion p.prev p.prevValid frame.report p.remX p.remY
  ({ p with
     prev := frame.report, prevValid := true, remX := m.2.1, remY := m.2.2
     buttons := m.1.buttons }, m.1)

def process (w : Worker) (frame : PointerFrame) (a : Answer) : Worker :=
  if frame.stamp < (w.pads frame.serial).releaseStamp then { w with lastFrameOk := false }
  else
    let c := contribute (w.pads frame.serial) frame
    let motion := c.2
    let w := (w.setPad frame.serial c.1).submit motion.dx motion.dy motion.wheel a.submitted
    let w :=
      if motion.dx ≠ 0 ∨ motion.dy ≠ 0 ∨ motion.wheel ≠ 0 ∨ motion.buttonsChanged = true then
        w.record frame.slot frame.row a
      else w
    { w with lastFrameOk := a.submitted }

def apply (w : Worker) (command : PointerCommand) (a : Answer) : Worker :=
  match command with
  | .release serial stamp =>
    let pad := w.pads serial
    let w := w.setPad serial
      { pad with releaseStamp := max pad.releaseStamp stamp, buttons := {} }
    if pad.buttons.anyHeld then w.submit 0 0 0 a.submitted else w
  | .retry => if w.retryPending then w.submit 0 0 0 a.submitted else w
  | .backdateRefusalLog slot row secs =>
    w.setSession slot
      { w.session slot row with refusalLoggedAt := a.now - seconds secs }

end Worker

/-! ## Runs -/

inductive Input
  | frame (f : PointerFrame)
  | command (c : PointerCommand)

namespace Worker

def step (w : Worker) (i : Input × Answer) : Worker :=
  match i.1 with
  | .frame f => w.process f i.2
  | .command c => w.apply c i.2

def run (inputs : List (Input × Answer)) : Worker := inputs.foldl step {}

end Worker

/-! ## The union -/

theorem level_foldl (pads : Serial → Pad) (b : Button) (serials : List Serial) (m : MouseButtons) :
    (serials.foldl (fun held s => held.or (pads s).buttons) m).level b =
      (m.level b || serials.any fun s => (pads s).buttons.level b) := by
  induction serials generalizing m with
  | nil => simp
  | cons s serials ih =>
    rw [foldl_cons, ih, MouseButtons.level_or, any_cons, Bool.or_assoc]

theorem level_heldButtons (pads : Serial → Pad) (b : Button) :
    (heldButtons pads).level b = true ↔ ∃ s, (pads s).buttons.level b = true := by
  rw [heldButtons, level_foldl, MouseButtons.level_empty, Bool.false_or, any_eq_true]
  exact ⟨fun ⟨s, _, h⟩ => ⟨s, h⟩, fun ⟨s, h⟩ => ⟨s, mem_finRange s, h⟩⟩

theorem heldButtons_congr {p q : Serial → Pad} (h : ∀ s, (p s).buttons = (q s).buttons) :
    heldButtons p = heldButtons q := by
  simp only [heldButtons, h]

/-! ## What one input does -/

namespace Worker

variable {w w' : Worker}

theorem setPad_self (w : Worker) (s : Serial) (p : Pad) : (w.setPad s p).pads s = p := by
  simp only [setPad, update_self]

theorem setPad_of_ne (w : Worker) {s t : Serial} (h : t ≠ s) (p : Pad) :
    (w.setPad s p).pads t = w.pads t := by
  simp only [setPad, update_of_ne h]

/-- `record` keeps the books of a session and touches neither the pads nor the host. -/
theorem record_frame (w : Worker) (slot row : Nat) (a : Answer) :
    (w.record slot row a).pads = w.pads ∧ (w.record slot row a).host = w.host ∧
      (w.record slot row a).retryPending = w.retryPending := by
  unfold record
  dsimp only
  repeat' split
  all_goals exact ⟨rfl, rfl, rfl⟩

/-- A frame that is not stale is its pad's new contribution and one call to the host. -/
theorem process_fresh (w : Worker) (f : PointerFrame) (a : Answer)
    (h : ¬ f.stamp < (w.pads f.serial).releaseStamp) :
    let c := contribute (w.pads f.serial) f
    let v := (w.setPad f.serial c.1).submit c.2.dx c.2.dy c.2.wheel a.submitted
    (w.process f a).pads = v.pads ∧ (w.process f a).host = v.host ∧
      (w.process f a).retryPending = v.retryPending := by
  rw [process, if_neg h]
  dsimp only
  split
  · exact record_frame _ f.slot f.row a
  · exact ⟨rfl, rfl, rfl⟩

/-- The three ways an input ends: no contribution changes, the host takes the union of
the new contributions, or it refuses and the retry is pending. -/
inductive Effect (w w' : Worker) : Prop
  | same (pads : ∀ s, (w'.pads s).buttons = (w.pads s).buttons) (host : w'.host = w.host)
      (retry : w'.retryPending = w.retryPending)
  | accepted (host : w'.host.levels = heldButtons w'.pads) (retry : w'.retryPending = false)
  | refused (host : w'.host = w.host) (retry : w'.retryPending = true)

theorem submit_effect {v : Worker} (hv : v.host = w.host) (dx dy wheel : Int) (ok : Bool)
    (hpads : w'.pads = (v.submit dx dy wheel ok).pads)
    (hhost : w'.host = (v.submit dx dy wheel ok).host)
    (hretry : w'.retryPending = (v.submit dx dy wheel ok).retryPending) : Effect w w' := by
  cases ok with
  | true => exact .accepted (by rw [hhost, hpads]; rfl) hretry
  | false => exact .refused (hhost.trans hv) hretry

theorem process_effect (w : Worker) (f : PointerFrame) (a : Answer) : Effect w (w.process f a) := by
  by_cases h : f.stamp < (w.pads f.serial).releaseStamp
  · rw [process, if_pos h]
    exact .same (fun _ => rfl) rfl rfl
  · obtain ⟨hpads, hhost, hretry⟩ := process_fresh w f a h
    exact submit_effect (by exact rfl) _ _ _ a.submitted hpads hhost hretry

theorem apply_effect (w : Worker) (c : PointerCommand) (a : Answer) : Effect w (w.apply c a) := by
  cases c with
  | release serial stamp =>
    unfold apply
    dsimp only
    split
    · exact submit_effect (by exact rfl) 0 0 0 a.submitted rfl rfl rfl
    next hheld =>
      refine .same (fun s => ?_) rfl rfl
      by_cases hs : s = serial
      · subst hs
        rw [setPad_self]
        exact (MouseButtons.eq_empty_of_not_anyHeld (Bool.eq_false_iff.2 hheld)).symm
      · rw [setPad_of_ne _ hs]
  | retry =>
    unfold apply
    dsimp only
    split
    · exact submit_effect rfl 0 0 0 a.submitted rfl rfl rfl
    · exact .same (fun _ => rfl) rfl rfl
  | backdateRefusalLog slot row secs => exact .same (fun _ => rfl) rfl rfl

theorem step_effect (w : Worker) (i : Input × Answer) : Effect w (w.step i) := by
  obtain ⟨f | c, a⟩ := i
  · exact process_effect w f a
  · exact apply_effect w c a

/-- Unless a retry is pending, the host shows the union. -/
def Settled (w : Worker) : Prop := w.retryPending = false → w.host.levels = heldButtons w.pads

theorem Effect.settled (h : Effect w w') (hw : w.Settled) : w'.Settled := by
  intro hretry
  cases h with
  | same pads host retry =>
    rw [host, heldButtons_congr pads]
    exact hw (retry ▸ hretry)
  | accepted host _ => exact host
  | refused _ retry => exact absurd (retry.symm.trans hretry) Bool.noConfusion

theorem run_append (inputs : List (Input × Answer)) (i : Input × Answer) :
    run (inputs ++ [i]) = (run inputs).step i := by
  rw [run, foldl_append]
  rfl

theorem run_settled (inputs : List (Input × Answer)) : (run inputs).Settled := by
  induction inputs using List.reverseRecOn with
  | nil => exact fun _ => by decide
  | append_singleton inputs i ih =>
    rw [run_append]
    exact (step_effect _ i).settled ih

/-! ## Releases -/

theorem release_pads (w : Worker) (serial : Serial) (stamp : Nat) (a : Answer) :
    (w.apply (.release serial stamp) a).pads = update w.pads serial
      { w.pads serial with
        releaseStamp := max (w.pads serial).releaseStamp stamp, buttons := {} } := by
  unfold apply
  dsimp only
  split <;> rfl

theorem contribute_releaseStamp (p : Pad) (f : PointerFrame) :
    (contribute p f).1.releaseStamp = p.releaseStamp := by
  show (gesture p f.stamp).releaseStamp = p.releaseStamp
  unfold gesture
  split <;> rfl

theorem contribute_stamp (p : Pad) (f : PointerFrame) : (contribute p f).1.stamp = f.stamp := by
  show (gesture p f.stamp).stamp = f.stamp
  unfold gesture
  split
  · rfl
  next h => exact not_not.1 h

/-- A pad's stamp is the one of its last frame that was not stale. -/
theorem process_stamp (w : Worker) (f : PointerFrame) (a : Answer) (s : Serial) :
    ((w.process f a).pads s).stamp = (w.pads s).stamp ∨
      f.serial = s ∧ ((w.process f a).pads s).stamp = f.stamp := by
  by_cases h : f.stamp < (w.pads f.serial).releaseStamp
  · rw [process, if_pos h]
    exact .inl rfl
  · rw [(process_fresh w f a h).1, submit]
    by_cases hs : s = f.serial
    · subst hs
      rw [setPad_self, contribute_stamp]
      exact .inr ⟨rfl, rfl⟩
    · rw [setPad_of_ne _ hs]
      exact .inl rfl

theorem process_releaseStamp (w : Worker) (f : PointerFrame) (a : Answer) (s : Serial) :
    ((w.process f a).pads s).releaseStamp = (w.pads s).releaseStamp := by
  by_cases h : f.stamp < (w.pads f.serial).releaseStamp
  · rw [process, if_pos h]
  · rw [(process_fresh w f a h).1, submit]
    by_cases hs : s = f.serial
    · subst hs
      rw [setPad_self, contribute_releaseStamp]
    · rw [setPad_of_ne _ hs]

/-- The other commands leave the pads as they are. -/
theorem apply_pads (w : Worker) (c : PointerCommand) (a : Answer)
    (h : ∀ serial stamp, c ≠ .release serial stamp) : (w.apply c a).pads = w.pads := by
  cases c with
  | release serial stamp => exact absurd rfl (h serial stamp)
  | retry =>
    show (if w.retryPending then w.submit 0 0 0 a.submitted else w).pads = w.pads
    split <;> rfl
  | backdateRefusalLog slot row secs => rfl

theorem apply_stamp (w : Worker) (c : PointerCommand) (a : Answer) (s : Serial) :
    ((w.apply c a).pads s).stamp = (w.pads s).stamp := by
  cases c with
  | release serial stamp =>
    rw [release_pads]
    by_cases hs : s = serial
    · subst hs
      rw [update_self]
    · rw [update_of_ne hs]
  | retry => rw [apply_pads w .retry a nofun]
  | backdateRefusalLog slot row secs => rw [apply_pads w (.backdateRefusalLog slot row secs) a nofun]

theorem step_releaseStamp (w : Worker) (i : Input × Answer) (s : Serial) :
    (w.pads s).releaseStamp ≤ ((w.step i).pads s).releaseStamp := by
  obtain ⟨f | c, a⟩ := i
  · exact (process_releaseStamp w f a s).ge
  · cases c with
    | release serial stamp =>
      rw [step, release_pads]
      by_cases hs : s = serial
      · subst hs
        rw [update_self]
        exact le_max_left _ _
      · rw [update_of_ne hs]
    | retry => rw [step, apply_pads w .retry a nofun]
    | backdateRefusalLog slot row secs =>
      rw [step, apply_pads w (.backdateRefusalLog slot row secs) a nofun]

/-- Every Release a run has processed stays below the serial's release stamp. -/
theorem run_releaseStamp (inputs : List (Input × Answer)) {s : Serial} {t : Nat} {a : Answer}
    (h : (Input.command (.release s t), a) ∈ inputs) : t ≤ ((run inputs).pads s).releaseStamp := by
  induction inputs using List.reverseRecOn with
  | nil => cases h
  | append_singleton inputs i ih =>
    rw [run_append]
    rcases mem_append.1 h with h | h
    · exact (ih h).trans (step_releaseStamp _ i s)
    · rw [← mem_singleton.1 h, step, release_pads, update_self]
      exact le_max_right _ _

/-- The host after a Release: a button it had and another serial holds stays down. -/
theorem release_keeps {serial : Serial} {stamp : Nat} {a : Answer}
    (hw : (w.apply (.release serial stamp) a).host.levels = w.host.levels ∨
      (w.apply (.release serial stamp) a).host.levels =
        heldButtons (w.apply (.release serial stamp) a).pads)
    {b : Button} {other : Serial} (hne : other ≠ serial)
    (hheld : (w.pads other).buttons.level b = true) (hhost : w.host.levels.level b = true) :
    (w.apply (.release serial stamp) a).host.levels.level b = true := by
  rcases hw with hw | hw
  · rw [hw]
    exact hhost
  · rw [hw, level_heldButtons]
    refine ⟨other, ?_⟩
    rw [release_pads, update_of_ne hne]
    exact hheld

end Worker

/-- Over every sequence of frames and commands: without a pending retry the host's levels
are the union of the contributions; a frame older than a Release already processed for its
serial changes nothing; and a Release leaves what another serial holds. -/
theorem pointer_union (inputs : List (Input × Answer)) :
    let w := Worker.run inputs
    (w.retryPending = false →
        ∀ b, w.host.levels.level b = true ↔ ∃ s, (w.pads s).buttons.level b = true) ∧
      (∀ f a t a', (Input.command (.release f.serial t), a') ∈ inputs → f.stamp < t →
        w.step (.frame f, a) = { w with lastFrameOk := false }) ∧
      ∀ serial stamp a b other, other ≠ serial → (w.pads other).buttons.level b = true →
        w.host.levels.level b = true →
          (w.step (.command (.release serial stamp), a)).host.levels.level b = true := by
  intro w
  refine ⟨?_, ?_, ?_⟩
  · intro hretry b
    rw [Worker.run_settled inputs hretry, level_heldButtons]
  · intro f a t a' hmem hlt
    exact if_pos (hlt.trans_le (Worker.run_releaseStamp inputs hmem))
  · intro serial stamp a b other hne hheld hhost
    apply Worker.release_keeps _ hne hheld hhost
    cases Worker.apply_effect w (.release serial stamp) a with
    | same _ host _ | refused host _ => exact .inl (congrArg Host.levels host)
    | accepted host _ => exact .inr host

end Satellite.Pointer
