import Satellite.Lib.Program
import Satellite.Model.Topology
import Satellite.Net.Inner

/-!
# The fused gamepad path

`handleGamepadDataAndUpdate` records a datagram and submits its report from one read of the
slot; `updatePostDecryptV4` followed by `dispatchInnerMessage` reads the slot twice. The
programs of both, with the report and the answers: over words that no topology write changes
they agree, and whatever the loads answer, the fused path records before it submits.
-/

namespace Satellite.Fused

open Satellite.Inner (GamepadReport ServiceCall)
open Option
open Prog
open Machine

inductive RxInstr
  | load (l : Loc)
  | store (l : Loc) (w : Nat)
  /-- `hotTicks(steady_clock::now())`. -/
  | now
  | enter
  | exit
  | submitReport (serial : Nat) (report : GamepadReport)

@[reducible] def RxInstr.Res : RxInstr → Type
  | .load _ | .now => Nat
  | .submitReport .. => Bool
  | .store .. | .enter | .exit => Unit

abbrev RxProg := Prog RxInstr RxInstr.Res

abbrev run (i : RxInstr) : RxProg i.Res := Prog.call i

abbrev load (l : Loc) : RxProg Nat := run (.load l)
abbrev store (l : Loc) (w : Nat) : RxProg Unit := run (.store l w)
abbrev hotTicks : RxProg Nat := run .now
abbrev enter : RxProg Unit := run .enter
abbrev exit : RxProg Unit := run .exit
abbrev submitReport (serial : Nat) (report : GamepadReport) : RxProg Bool :=
  run (.submitReport serial report)

/-! ## Programs -/

/-- `HotTable::find`. -/
def find (token : Nat) : RxProg (Option Nat) :=
  if token = 0 then pure none
  else Prog.firstOf (List.range maxSessions) fun i => do
    let w ← load (.packed i)
    pure (if w = token then some i else none)

/-- `HotSlot::read`. -/
def readSlot {α : Type} (slot : Nat) (body : RxProg α) : RxProg (Option α) := do
  let before ← load (.gen slot)
  if before % 2 = 0 then do
    let a ← body
    let after ← load (.gen slot)
    pure (if after = before then some a else none)
  else pure none

def recordDatagram (slot keyEpoch counter clientAddr : Nat) : RxProg Unit := do
  let addr ← load (.clientAddr slot)
  if addr ≠ clientAddr then store (.clientAddr slot) clientAddr else pure ()
  store (.lastCounter slot) counter
  let now ← hotTicks
  store (.lastPacketTicks slot) now
  let replayKeyEpoch ← load (.replayKeyEpoch slot)
  if replayKeyEpoch = keyEpoch then pure ()
  else do
    store (.replayKeyEpoch slot) keyEpoch
    store (.feedbackPending slot) 1

def recordHotDatagram (token counter clientAddr : Nat) : RxProg Unit := do
  let index ← find token
  match index with
  | none => pure ()
  | some slot => do
    let read ← readSlot slot do
      let slotToken ← load (.token slot)
      let keyEpoch ← load (.keyEpoch slot)
      pure (slotToken, keyEpoch)
    match read with
    | none => pure ()
    | some (slotToken, keyEpoch) =>
      if slotToken = token then recordDatagram slot keyEpoch counter clientAddr else pure ()

def submitHotFrame (token ctrlIdx : Nat) (report : GamepadReport) (record : Bool)
    (counter clientAddr : Nat) : RxProg Bool := do
  let index ← find token
  match index with
  | none => pure false
  | some slot => do
    let read ← readSlot slot do
      let slotToken ← load (.token slot)
      let keyEpoch ← load (.keyEpoch slot)
      let word ← if ctrlIdx < maxControllersPerConn then load (.ctrl slot ctrlIdx) else pure 0
      pure (slotToken, keyEpoch, word)
    match read with
    | none => pure false
    | some (slotToken, keyEpoch, word) =>
      if slotToken = token then do
        if record then recordDatagram slot keyEpoch counter clientAddr else pure ()
        if ctrlWordActive word then submitReport (ctrlWordSerial word) report
        else pure false
      else pure false

def updatePostDecryptV4 (token counter clientAddr : Nat) : RxProg Unit := do
  enter
  recordHotDatagram token counter clientAddr
  exit

def handleGamepadData (token ctrlIdx : Nat) (report : GamepadReport) : RxProg Bool := do
  enter
  let ok ← submitHotFrame token ctrlIdx report false 0 0
  exit
  pure ok

def handleGamepadDataAndUpdate (token counter clientAddr ctrlIdx : Nat)
    (report : GamepadReport) : RxProg Bool := do
  enter
  let ok ← submitHotFrame token ctrlIdx report true counter clientAddr
  exit
  pure ok

structure DispatchResult where
  wasGamepadData : Bool := false
  gamepadOk : Bool := false
  handled : Bool := false
  deriving DecidableEq

/-- `dispatchInnerMessage` on a `MSG_GAMEPAD_DATA`; nothing where it reads past the payload. -/
def dispatchInnerMessage (token : Nat) (payload : List UInt8) (msgLen : Nat) :
    Option (RxProg DispatchResult) :=
  (Inner.dispatchInnerMessage payload Inner.msgGamepadData msgLen).map fun
    | some (.gamepadData ctrlIdx report) => do
      let ok ← handleGamepadData token ctrlIdx.toNat report
      pure { wasGamepadData := true, gamepadOk := ok, handled := true }
    | _ => pure {}

/-! ## Words that no topology write changes -/

structure Rx where
  words : Loc → Nat := fun _ => 0
  /-- The submit calls, in order. -/
  submits : List (Nat × GamepadReport) := []

namespace Rx

def set (s : Rx) (l : Loc) (w : Nat) : Rx := { s with words := Function.update s.words l w }

/-- An enter or an exit of the receive thread's epoch. -/
def bump (s : Rx) : Rx := s.set (.epoch 0) (s.words (.epoch 0) + 1)

def submitted (s : Rx) (serial : Nat) (report : GamepadReport) : Rx :=
  { s with submits := s.submits ++ [(serial, report)] }

def find (s : Rx) (token : Nat) : Option Nat :=
  if token = 0 then none
  else (List.range maxSessions).find? fun i => s.words (.packed i) = token

/-- The slot that a read for the token accepts. -/
def readable (s : Rx) (token : Nat) : Option Nat :=
  (s.find token).bind fun slot =>
    if s.words (.gen slot) % 2 = 0 ∧ s.words (.token slot) = token then some slot else none

def ctrlWord (s : Rx) (slot ctrlIdx : Nat) : Nat :=
  if ctrlIdx < maxControllersPerConn then s.words (.ctrl slot ctrlIdx) else 0

/-- What `recordDatagram` leaves at the time `now`. -/
def recorded (s : Rx) (slot keyEpoch counter clientAddr now : Nat) : Rx :=
  let s := if s.words (.clientAddr slot) ≠ clientAddr
    then s.set (.clientAddr slot) clientAddr else s
  let s := (s.set (.lastCounter slot) counter).set (.lastPacketTicks slot) now
  if s.words (.replayKeyEpoch slot) = keyEpoch then s
  else (s.set (.replayKeyEpoch slot) keyEpoch).set (.feedbackPending slot) 1

/-- Only words that the receive thread writes differ. -/
def Keeps (s t : Rx) : Prop := ∀ l, l.owned = true → t.words l = s.words l

variable {s t : Rx} {token : Nat}

theorem Keeps.set (h : Keeps s t) {l : Loc} (hl : l.owned = false) (w : Nat) :
    Keeps s (t.set l w) := by
  intro m hm
  have hne : m ≠ l := by
    rintro rfl
    rw [hl] at hm
    cases hm
  exact (Function.update_of_ne hne ..).trans (h m hm)

theorem Keeps.bump (h : Keeps s t) : Keeps s t.bump := h.set rfl _

theorem Keeps.recorded (h : Keeps s t) (slot keyEpoch counter clientAddr now : Nat) :
    Keeps s (t.recorded slot keyEpoch counter clientAddr now) := by
  have haddr : Keeps s (if t.words (.clientAddr slot) ≠ clientAddr
      then t.set (.clientAddr slot) clientAddr else t) := by
    split
    · exact h.set rfl _
    · exact h
  have hticks := (haddr.set (l := .lastCounter slot) rfl counter).set
    (l := .lastPacketTicks slot) rfl now
  by_cases hsame : (((if t.words (.clientAddr slot) ≠ clientAddr
      then t.set (.clientAddr slot) clientAddr else t).set (.lastCounter slot) counter).set
        (.lastPacketTicks slot) now).words (.replayKeyEpoch slot) = keyEpoch
  · simp only [Rx.recorded, if_pos hsame]
    exact hticks
  · simp only [Rx.recorded, if_neg hsame]
    exact (hticks.set (l := .replayKeyEpoch slot) rfl _).set (l := .feedbackPending slot) rfl _

/-- A lookup reads owned words only. -/
theorem Keeps.readable (h : Keeps s t) : t.readable token = s.readable token := by
  have hpacked : ∀ i, t.words (.packed i) = s.words (.packed i) := fun i => h _ rfl
  have hgen : ∀ i, t.words (.gen i) = s.words (.gen i) := fun i => h _ rfl
  have htoken : ∀ i, t.words (.token i) = s.words (.token i) := fun i => h _ rfl
  simp only [Rx.readable, Rx.find, hpacked, hgen, htoken]

theorem Keeps.ctrlWord (h : Keeps s t) (slot ctrlIdx : Nat) :
    t.ctrlWord slot ctrlIdx = s.ctrlWord slot ctrlIdx := by
  simp only [Rx.ctrlWord, h (.ctrl slot ctrlIdx) rfl]

end Rx

section Quiet

variable (now : Nat) (backend : Nat → GamepadReport → Bool)

/-- What the receive thread meets alone: the clock reads `now`, `backend` answers the submits. -/
def answer : (i : RxInstr) → Rx → i.Res × Rx
  | .load l, s => (s.words l, s)
  | .store l w, s => ((), s.set l w)
  | .now, s => (now, s)
  | .enter, s | .exit, s => ((), s.bump)
  | .submitReport serial report, s => (backend serial report, s.submitted serial report)

def quiet : Machine RxInstr RxInstr.Res Rx where
  pre _ _ := True
  step i s r t := answer now backend i s = (r, t)
  ends := True

variable {now backend} {s : Rx} {token counter clientAddr ctrlIdx : Nat}

theorem wp_run (i : RxInstr) {Q : i.Res → Rx → Prop} : (quiet now backend).wp (run i) Q s =
    Q (answer now backend i s).1 (answer now backend i s).2 := by
  refine propext ⟨fun h => h.2 _ _ rfl, fun h => ⟨trivial, fun r t heq => ?_⟩⟩
  rwa [show answer now backend i s = (r, t) from heq] at h

theorem wp_load {l : Loc} {Q : Nat → Rx → Prop} :
    (quiet now backend).wp (load l) Q s = Q (s.words l) s := wp_run (.load l)

variable {Q : Unit → Rx → Prop}

theorem wp_store {l : Loc} {w : Nat} :
    (quiet now backend).wp (store l w) Q s = Q () (s.set l w) := wp_run (.store l w)

theorem wp_now {Q : Nat → Rx → Prop} : (quiet now backend).wp hotTicks Q s = Q now s :=
  wp_run .now

theorem wp_enter :
    (quiet now backend).wp enter Q s = Q () s.bump := wp_run .enter

theorem wp_exit :
    (quiet now backend).wp exit Q s = Q () s.bump := wp_run .exit

variable {report : GamepadReport}

theorem wp_submitReport {serial : Nat} {Q : Bool → Rx → Prop} :
    (quiet now backend).wp (submitReport serial report) Q s =
      Q (backend serial report) (s.submitted serial report) := wp_run (.submitReport serial report)

theorem wp_find {Q : Option Nat → Rx → Prop} : (quiet now backend).wp (find token) Q s =
    Q (s.find token) s := by
  have hscan : ∀ l : List Nat, (quiet now backend).wp
      (firstOf l fun i => (load (.packed i)).bind fun w =>
        .ret (if w = token then some i else none)) Q s =
      Q (l.find? fun i => s.words (.packed i) = token) s := by
    intro l
    induction l with
    | nil => rfl
    | cons i l ih =>
      simp only [firstOf, wp_bind, wp_load, wp_ret, List.find?_cons]
      by_cases hi : s.words (.packed i) = token
      · simp only [hi, if_true, decide_true, wp_ret]
      · simpa only [hi, if_false, decide_false] using ih
  unfold find Rx.find
  split
  · rfl
  · exact hscan _

theorem wp_recordDatagram {slot keyEpoch : Nat} :
    (quiet now backend).wp (recordDatagram slot keyEpoch counter clientAddr) Q s =
      Q () (s.recorded slot keyEpoch counter clientAddr now) := by
  simp only [recordDatagram, Rx.recorded, bind_eq, pure_eq, wp_bind, wp_load]
  split <;> simp only [wp_bind, wp_store, wp_now, wp_load] <;> split <;>
    simp only [wp_bind, wp_store, wp_ret]

theorem wp_readSlot {α : Type} {slot : Nat} {body : RxProg α} {a : α}
    {Q : Option α → Rx → Prop}
    (hbody : ∀ R : α → Rx → Prop, (quiet now backend).wp body R s = R a s) :
    (quiet now backend).wp (readSlot slot body) Q s =
      Q (if s.words (.gen slot) % 2 = 0 then some a else none) s := by
  simp only [readSlot, bind_eq, pure_eq, wp_bind, wp_load]
  split
  · simp only [wp_bind, hbody, wp_load, wp_ret, if_true]
  · rfl

theorem wp_recordHotDatagram :
    (quiet now backend).wp (recordHotDatagram token counter clientAddr) Q s =
      Q () ((s.readable token).elim s fun slot =>
        s.recorded slot (s.words (.keyEpoch slot)) counter clientAddr now) := by
  simp only [recordHotDatagram, bind_eq, pure_eq, wp_bind, wp_find, Rx.readable]
  cases s.find token with
  | none => rfl
  | some slot =>
    rw [wp_bind, wp_readSlot (a := (s.words (.token slot), s.words (.keyEpoch slot)))]
    · by_cases hgen : s.words (.gen slot) % 2 = 0
      · by_cases htoken : s.words (.token slot) = token
        · simp [hgen, htoken, wp_recordDatagram]
        · simp [hgen, htoken]
      · simp [hgen]
    · intro R
      simp only [wp_bind, wp_load, wp_ret]

theorem wp_submitHotFrame {record : Bool} {Q : Bool → Rx → Prop} :
    (quiet now backend).wp (submitHotFrame token ctrlIdx report record counter clientAddr) Q s =
      (s.readable token).elim (Q false s) fun slot =>
        let t := if record
          then s.recorded slot (s.words (.keyEpoch slot)) counter clientAddr now else s
        let word := s.ctrlWord slot ctrlIdx
        if ctrlWordActive word then Q (backend (ctrlWordSerial word) report)
          (t.submitted (ctrlWordSerial word) report)
        else Q false t := by
  simp only [submitHotFrame, bind_eq, pure_eq, wp_bind, wp_find, Rx.readable]
  cases s.find token with
  | none => rfl
  | some slot =>
    rw [wp_bind, wp_readSlot
      (a := (s.words (.token slot), s.words (.keyEpoch slot), s.ctrlWord slot ctrlIdx))]
    · by_cases hgen : s.words (.gen slot) % 2 = 0
      · by_cases htoken : s.words (.token slot) = token
        · cases hactive : ctrlWordActive (s.ctrlWord slot ctrlIdx) <;> cases record <;>
            simp [hgen, htoken, hactive, wp_recordDatagram, wp_submitReport, -wp_call]
        · simp [hgen, htoken]
      · simp [hgen]
    · intro R
      simp only [wp_bind, wp_load, Rx.ctrlWord]
      split <;> simp only [wp_bind, wp_load, wp_ret]

/-- The same submits, and the same words but for the epoch of the receive thread. -/
structure Rx.Agrees (s t : Rx) : Prop where
  submits : s.submits = t.submits
  words : ∀ l, l ≠ .epoch 0 → s.words l = t.words l

theorem Rx.Agrees.bump {s t : Rx} (h : s.Agrees t) : s.bump.Agrees t.bump where
  submits := h.submits
  words l hl := by
    simp only [Rx.bump, Rx.set, Function.update_of_ne hl]
    exact h.words l hl

theorem Rx.Agrees.submitted {s t : Rx} (h : s.Agrees t) (serial : Nat) (report : GamepadReport) :
    (s.submitted serial report).Agrees (t.submitted serial report) :=
  ⟨congrArg (· ++ [(serial, report)]) h.submits, h.words⟩

/-- Entering and leaving once more shows in the epoch only. -/
theorem Rx.agrees_bump (s : Rx) : s.Agrees s.bump.bump where
  submits := rfl
  words l hl := by simp only [Rx.bump, Rx.set, Function.update_of_ne hl]

/-- Where the fused path ends, with its answer. -/
theorem wp_handleGamepadDataAndUpdate {Q : Bool → Rx → Prop} :
    (quiet now backend).wp (handleGamepadDataAndUpdate token counter clientAddr ctrlIdx report) Q s =
      (s.bump.readable token).elim (Q false s.bump.bump) fun slot =>
        let t := s.bump.recorded slot (s.bump.words (.keyEpoch slot)) counter clientAddr now
        let word := s.bump.ctrlWord slot ctrlIdx
        if ctrlWordActive word then Q (backend (ctrlWordSerial word) report)
          (t.submitted (ctrlWordSerial word) report).bump
        else Q false t.bump := by
  simp only [handleGamepadDataAndUpdate, bind_eq, pure_eq, wp_bind, wp_enter,
    wp_submitHotFrame, wp_exit, wp_ret, if_true]

/-- Where the two-step path ends: what it read at first it reads again. -/
theorem wp_twoStep {Q : Bool → Rx → Prop} :
    (quiet now backend).wp (updatePostDecryptV4 token counter clientAddr >>= fun _ =>
        handleGamepadData token ctrlIdx report) Q s =
      (s.bump.readable token).elim (Q false s.bump.bump.bump.bump) fun slot =>
        let t := s.bump.recorded slot (s.bump.words (.keyEpoch slot)) counter clientAddr now
        let word := s.bump.ctrlWord slot ctrlIdx
        if ctrlWordActive word then Q (backend (ctrlWordSerial word) report)
          (t.bump.bump.submitted (ctrlWordSerial word) report).bump
        else Q false t.bump.bump.bump := by
  have hself : Rx.Keeps s.bump s.bump := fun _ _ => rfl
  simp only [updatePostDecryptV4, handleGamepadData, bind_eq, pure_eq, wp_bind,
    wp_enter, wp_recordHotDatagram, wp_exit, wp_submitHotFrame, wp_ret]
  cases hread : s.bump.readable token with
  | none =>
    rw [elim_none, hself.bump.bump.readable, hread]
    rfl
  | some slot =>
    have hkeeps := (hself.recorded slot (s.bump.words (.keyEpoch slot)) counter clientAddr
      now).bump.bump
    rw [elim_some, hkeeps.readable, hread]
    simp only [elim_some, hkeeps.ctrlWord]
    rfl

/-- A program that can only end in one way ends so. -/
theorem exec_iff {α : Type} {p : RxProg α} {a : α} {u : Rx}
    (h : ∀ Q : α → Rx → Prop, (quiet now backend).wp p Q s = Q a u) {b : α} {v : Rx} :
    (quiet now backend).Exec p s b v ↔ b = a ∧ v = u := by
  have hends : ∀ b v, (quiet now backend).Exec p s b v → b = a ∧ v = u := fun b v hrun =>
    wp_sound (Q := fun b v => b = a ∧ v = u) hrun ((h _).symm ▸ ⟨rfl, rfl⟩)
  refine ⟨hends b v, ?_⟩
  rintro ⟨rfl, rfl⟩
  obtain ⟨b, v, hrun⟩ := wp_exec (M := quiet now backend) trivial
    (fun i s _ => ⟨_, _, rfl⟩) (Q := fun _ _ => True) (s := s) (p := p) ((h _).symm ▸ trivial)
  obtain ⟨rfl, rfl⟩ := hends b v hrun
  exact hrun

variable (now backend s token counter clientAddr ctrlIdx)

theorem paths_agree (report : GamepadReport) : ∃ ok u v, u.Agrees v ∧
    (∀ Q, (quiet now backend).wp
      (handleGamepadDataAndUpdate token counter clientAddr ctrlIdx report) Q s = Q ok u) ∧
    ∀ Q, (quiet now backend).wp (updatePostDecryptV4 token counter clientAddr >>= fun _ =>
      handleGamepadData token ctrlIdx report) Q s = Q ok v := by
  simp only [wp_handleGamepadDataAndUpdate, wp_twoStep]
  cases s.bump.readable token with
  | none => exact ⟨false, _, _, s.bump.bump.agrees_bump, fun _ => rfl, fun _ => rfl⟩
  | some slot =>
    simp only [elim_some]
    split
    · exact ⟨_, _, _, ((Rx.agrees_bump _).submitted _ report).bump, fun _ => rfl, fun _ => rfl⟩
    · exact ⟨false, _, _, (Rx.agrees_bump _).bump, fun _ => rfl, fun _ => rfl⟩

end Quiet

/-! ## Beside a topology write -/

/-- What the receive thread did, with the answers it got, the latest first. -/
abbrev Trace := List (Σ i : RxInstr, i.Res)

/-- All of `recordDatagram` was done on a slot, under a key epoch that the slot answered. -/
structure RecordedOn (slot keyEpoch counter clientAddr : Nat) (u : Trace) : Prop where
  addr : ⟨.load (.clientAddr slot), clientAddr⟩ ∈ u ∨
    ⟨.store (.clientAddr slot) clientAddr, ()⟩ ∈ u
  last : ⟨.store (.lastCounter slot) counter, ()⟩ ∈ u
  ticks : ∃ now : Nat, ⟨.now, now⟩ ∈ u ∧ ⟨.store (.lastPacketTicks slot) now, ()⟩ ∈ u
  epoch : ⟨.load (.keyEpoch slot), keyEpoch⟩ ∈ u
  replay : ⟨.load (.replayKeyEpoch slot), keyEpoch⟩ ∈ u ∨
    ⟨.store (.replayKeyEpoch slot) keyEpoch, ()⟩ ∈ u ∧ ⟨.store (.feedbackPending slot) 1, ()⟩ ∈ u

def Recorded (counter clientAddr : Nat) (u : Trace) : Prop :=
  ∃ slot keyEpoch, RecordedOn slot keyEpoch counter clientAddr u

section Loose

variable (counter clientAddr : Nat)

/-- Other threads may write between any two accesses, so every answer is possible. A submit
needs a recorded datagram. -/
def loose : Machine RxInstr RxInstr.Res Trace where
  pre
    | .submitReport .., u => Recorded counter clientAddr u
    | _, _ => True
  step i u r v := v = ⟨i, r⟩ :: u

variable {counter clientAddr} {u : Trace}

theorem loose_run (i : RxInstr) {Q : i.Res → Trace → Prop} :
    (loose counter clientAddr).wp (run i) Q u =
      ((loose counter clientAddr).pre i u ∧ ∀ r, Q r (⟨i, r⟩ :: u)) :=
  propext (and_congr_right fun _ => ⟨fun h r => h r _ rfl, by rintro h r _ rfl; exact h r⟩)

theorem loose_load {l : Loc} {Q : Nat → Trace → Prop} :
    (loose counter clientAddr).wp (load l) Q u = ∀ w, Q w (⟨.load l, w⟩ :: u) :=
  (loose_run (.load l)).trans (true_and _)

theorem loose_store {l : Loc} {w : Nat} {Q : Unit → Trace → Prop} :
    (loose counter clientAddr).wp (store l w) Q u = Q () (⟨.store l w, ()⟩ :: u) :=
  (loose_run (.store l w)).trans (propext ⟨fun h => h.2 (), fun h => ⟨trivial, fun _ => h⟩⟩)

theorem loose_now {Q : Nat → Trace → Prop} :
    (loose counter clientAddr).wp hotTicks Q u = ∀ now, Q now (⟨.now, now⟩ :: u) :=
  (loose_run .now).trans (true_and _)

theorem loose_exit {Q : Unit → Trace → Prop} (hQ : ∀ v, Q () v) :
    (loose counter clientAddr).wp exit Q u := ⟨trivial, fun _ v _ => hQ v⟩

theorem loose_find {token : Nat} {Q : Option Nat → Trace → Prop} (hQ : ∀ index v, Q index v) :
    (loose counter clientAddr).wp (find token) Q u := by
  unfold find
  split
  · exact hQ none u
  · refine wp_firstOf (fun _ _ => True) Q trivial ?_ fun v _ => hQ none v
    intro done i rest v _ _
    simp only [bind_eq, pure_eq, wp_bind, loose_load, wp_ret]
    intro w
    split
    · exact hQ (some i) _
    · trivial

theorem loose_recordDatagram {slot keyEpoch : Nat} {Q : Unit → Trace → Prop}
    (hepoch : (⟨.load (.keyEpoch slot), keyEpoch⟩ : Σ i : RxInstr, i.Res) ∈ u)
    (hQ : ∀ v, RecordedOn slot keyEpoch counter clientAddr v → Q () v) :
    (loose counter clientAddr).wp (recordDatagram slot keyEpoch counter clientAddr) Q u := by
  simp only [recordDatagram, bind_eq, pure_eq, wp_bind, loose_load]
  intro addr
  split
  case' isFalse haddr => obtain rfl := not_not.1 haddr
  all_goals
    simp only [wp_bind, loose_store, loose_now, loose_load]
    intro now replayKeyEpoch
    split
    case' isTrue hsame => subst hsame
    all_goals
      simp only [wp_bind, loose_store, wp_ret]
      exact hQ _ ⟨by simp, by simp, ⟨now, by simp, by simp⟩, by simp [hepoch], by simp⟩

/-- The fused path submits only what it has recorded. -/
theorem loose_handleGamepadDataAndUpdate (token ctrlIdx : Nat) (report : GamepadReport) :
    (loose counter clientAddr).wp
      (handleGamepadDataAndUpdate token counter clientAddr ctrlIdx report) (fun _ _ => True) u := by
  simp only [handleGamepadDataAndUpdate, submitHotFrame, bind_eq, pure_eq,
    wp_bind, wp_ret, if_true]
  refine ⟨trivial, fun _ _ _ => loose_find fun index v => ?_⟩
  cases index with
  | none => exact loose_exit fun _ => trivial
  | some slot =>
    -- The key epoch that is recorded is the one this read answered.
    have hread : ∀ before slotToken keyEpoch word after : Nat, ∀ v : Trace,
        (⟨.load (.keyEpoch slot), keyEpoch⟩ : Σ i : RxInstr, i.Res) ∈ v →
        (loose counter clientAddr).wp
          (match if after = before then some (slotToken, keyEpoch, word) else none with
            | none => ret false
            | some (slotToken, keyEpoch, word) =>
              if slotToken = token then
                (recordDatagram slot keyEpoch counter clientAddr).bind fun _ =>
                  if ctrlWordActive word then submitReport (ctrlWordSerial word) report
                  else ret false
              else ret false)
          (fun _ t => (loose counter clientAddr).wp exit (fun _ _ => True) t) v := by
      intro before slotToken keyEpoch word after v hepoch
      by_cases hstable : after = before ∧ slotToken = token
      · simp only [hstable.1, hstable.2, if_true, wp_bind]
        refine loose_recordDatagram hepoch fun w hrecorded => ?_
        split
        · exact ⟨⟨slot, keyEpoch, hrecorded⟩, fun _ _ _ => loose_exit fun _ => trivial⟩
        · exact loose_exit fun _ => trivial
      · by_cases hsame : after = before
        · simp only [hsame, if_true, if_neg fun h => hstable ⟨hsame, h⟩]
          exact loose_exit fun _ => trivial
        · simp only [if_neg hsame]
          exact loose_exit fun _ => trivial
    simp only [readSlot, bind_eq, pure_eq, wp_bind, loose_load]
    intro before
    split
    · simp only [wp_bind, loose_load]
      intro slotToken keyEpoch
      split
      all_goals
        simp only [wp_bind, loose_load, wp_ret]
        intros
        exact hread _ _ _ _ _ _ (by simp)
    · exact loose_exit fun _ => trivial

end Loose

/-! ## The two paths -/

/-- A gamepad message has the same effect through the fused path and through the two steps:
the same words but for the epoch, the same submits and the same answer, whatever the words are
and with one clock and one backend for both. And whatever the loads answer, the fused path
submits no report of a datagram that it did not record. -/
theorem fused_path (token counter clientAddr : Nat) (payload : List UInt8)
    (hlen : Inner.gamepadDataMinLen ≤ payload.length) : ∃ ctrlIdx report dispatch,
    Inner.gamepadMessage payload = some (.gamepadData ctrlIdx report) ∧
    dispatchInnerMessage token payload payload.length = some dispatch ∧
    (∀ now backend s, ∃ ok u v, u.Agrees v ∧
      (∀ ok' u', (quiet now backend).Exec (handleGamepadDataAndUpdate token counter clientAddr
        ctrlIdx.toNat report) s ok' u' ↔ ok' = ok ∧ u' = u) ∧
      ∀ r v', (quiet now backend).Exec (updatePostDecryptV4 token counter clientAddr >>= fun _ =>
        dispatch) s r v' ↔ r = ⟨true, ok, true⟩ ∧ v' = v) ∧
    ∀ serial sent u, (loose counter clientAddr).Issues (handleGamepadDataAndUpdate token counter
      clientAddr ctrlIdx.toNat report) [] (.submitReport serial sent) u →
        Recorded counter clientAddr u := by
  obtain ⟨ctrlIdx, report, hmessage⟩ : ∃ ctrlIdx report,
      Inner.gamepadMessage payload = some (.gamepadData ctrlIdx report) := by
    obtain ⟨call, hcall⟩ := Inner.reads_gamepadMessage.defined payload hlen
    simp only [Inner.gamepadMessage, bind_eq_some_iff] at hcall ⊢
    obtain ⟨ctrlIdx, hindex, report, hreport, -⟩ := hcall
    exact ⟨ctrlIdx, report, ctrlIdx, hindex, report, hreport, rfl⟩
  have hdispatch : Inner.dispatchInnerMessage payload Inner.msgGamepadData payload.length =
      some (some (.gamepadData ctrlIdx report)) := by
    have hlong : ¬payload.length < 13 := Nat.not_lt.2 hlen
    rw [Inner.dispatchInnerMessage, if_pos rfl, if_neg hlong, hmessage]
    rfl
  refine ⟨ctrlIdx, report, _, hmessage, by rw [dispatchInnerMessage, hdispatch, map_some],
    fun now backend s => ?_, fun serial sent u hissue =>
      wp_issues hissue (loose_handleGamepadDataAndUpdate token ctrlIdx.toNat report)⟩
  obtain ⟨ok, u, v, hagrees, hfused, htwo⟩ :=
    paths_agree now backend s token counter clientAddr ctrlIdx.toNat report
  refine ⟨ok, u, v, hagrees, fun _ _ => exec_iff hfused, fun _ _ => exec_iff fun Q => ?_⟩
  have hthen := htwo fun a t => Q ⟨true, a, true⟩ t
  simp only [bind_eq, wp_bind] at hthen ⊢
  exact hthen

/-- Controller 2 with a button and the left trigger pressed and both sticks off their centre. -/
def pressed : List UInt8 := [2, 0x00, 0x10, 200, 0, 0xff, 0x7f, 0x00, 0x80, 1, 2, 3, 4]

theorem fused_path_pressed :
    let report : GamepadReport := ⟨0x1000, 200, 0, 32767, -32768, 0x201, 0x403⟩
    Inner.gamepadMessage pressed = some (.gamepadData 2 report) ∧ ∀ now backend s, ∃ ok u, ∀ ok' u',
      (quiet now backend).Exec (handleGamepadDataAndUpdate 7 1 0 2 report) s ok' u' ↔
        ok' = ok ∧ u' = u := by
  intro report
  obtain ⟨ctrlIdx, _, _, hmessage, -, hpaths, -⟩ := fused_path 7 1 0 pressed (by decide)
  have hread : Inner.gamepadMessage pressed = some (.gamepadData 2 report) := rfl
  obtain ⟨rfl, rfl⟩ := ServiceCall.gamepadData.inj (Option.some.inj (hread.symm.trans hmessage))
  refine ⟨hread, fun now backend s => ?_⟩
  obtain ⟨ok, u, -, -, hfused, -⟩ := hpaths now backend s
  exact ⟨ok, u, hfused⟩

end Satellite.Fused
