import Satellite.Pointer.Worker

/-!
# Pointer injection and touch contacts in the platform backends

`injectRelativeMouse` of `platform/windows/pointer_inject.h` over `core/pointer_frame.h`,
`submitRelativeMouse` of `platform/linux/gamepad_adapter.cpp`, and what `submitTouchpad`
of the four adapters does to the contact ids. Both pointer backends keep the levels they
believe in and write edges only; the host has what was really injected.
-/

namespace Satellite.Injection

open Pointer List

/-- The assignment to one level that the member pointers of `POINTER_BUTTONS` make. -/
def setLevel (m : MouseButtons) (b : Button) (v : Bool) : MouseButtons :=
  match b with
  | .left => { m with left := v }
  | .right => { m with right := v }
  | .middle => { m with middle := v }

theorem level_setLevel (m : MouseButtons) (b c : Button) (v : Bool) :
    (setLevel m b v).level c = if b = c then v else m.level c := by
  cases b <;> cases c <;> rfl

theorem buttons_ext {m n : MouseButtons} (h : ∀ b, m.level b = n.level b) : m = n := by
  cases m
  cases n
  exact congr (congrArg₂ _ (h .left) (h .right)) (h .middle)

def pointerButtons : List Button := [.left, .right, .middle]

/-! ## Windows -/

inductive PointerEventKind
  | move
  | button (b : Button)
  | wheel
  deriving DecidableEq

structure PointerEvent where
  kind : PointerEventKind
  x : Int := 0
  y : Int := 0
  pressed : Bool := false

/-- The events are the first `count` cells of the source's array. -/
structure PointerFrame where
  events : List PointerEvent
  before : MouseButtons

/-- The button events of a frame, in the order of `POINTER_BUTTONS`. -/
def buttonEvents (before desired : MouseButtons) : List PointerEvent :=
  pointerButtons.filterMap fun b =>
    if desired.level b ≠ before.level b then some ⟨.button b, 0, 0, desired.level b⟩ else none

def planPointerFrame (before desired : MouseButtons) (dx dy wheel : Int) : PointerFrame where
  events := (if dx ≠ 0 ∨ dy ≠ 0 then [⟨.move, dx, dy, false⟩] else []) ++
    (buttonEvents before desired ++ if wheel ≠ 0 then [⟨.wheel, 0, wheel, false⟩] else [])
  before := before

def pointerButtonsAfter (frame : PointerFrame) (accepted : Nat) : MouseButtons :=
  (frame.events.take (min accepted frame.events.length)).foldl (fun buttons event =>
    pointerButtons.foldl (fun buttons b =>
      if event.kind = .button b then setLevel buttons b event.pressed else buttons) buttons)
    frame.before

/-- A mouse `INPUT` by its `dwFlags`. -/
inductive Input
  | move (dx dy : Int)
  | button (b : Button) (down : Bool)
  | wheel (mouseData : Int)

def pointerInput (event : PointerEvent) : Input :=
  match event.kind with
  | .move => .move event.x event.y
  | .button b => .button b event.pressed
  | .wheel => .wheel event.y

/-- What an injected input does to the host's buttons. -/
def receive (m : MouseButtons) : Input → MouseButtons
  | .button b down => setLevel m b down
  | _ => m

/-- Every button input changes the level it finds. -/
def OnlyChanges : MouseButtons → List Input → Prop
  | _, [] => True
  | m, i :: is => (∀ b down, i = .button b down → m.level b ≠ down) ∧ OnlyChanges (receive m i) is

theorem onlyChanges_append {m : MouseButtons} {is js : List Input} :
    OnlyChanges m (is ++ js) ↔ OnlyChanges m is ∧ OnlyChanges (is.foldl receive m) js := by
  induction is generalizing m with
  | nil => simp [OnlyChanges]
  | cons i is ih => simp [OnlyChanges, ih, and_assoc]

/-- The atomics of the caller, and every input the host has received. -/
structure Desk where
  levels : MouseButtons := {}
  injected : List Input := []

def Desk.host (d : Desk) : MouseButtons := d.injected.foldl receive {}

/-- One call; `SendInput` takes the first `accepts` of the inputs, or all of them. -/
structure Call where
  dx : Int := 0
  dy : Int := 0
  wheel : Int := 0
  buttons : MouseButtons
  accepts : Nat

def Desk.frame (d : Desk) (c : Call) : PointerFrame :=
  planPointerFrame d.levels c.buttons c.dx c.dy c.wheel

def Desk.inputs (d : Desk) (c : Call) : List Input := (d.frame c).events.map pointerInput

def Desk.injectRelativeMouse (d : Desk) (c : Call) : Desk × Bool :=
  if (d.frame c).events.length = 0 then (d, true)
  else
    let injected := ((d.inputs c).take c.accepts).length
    ({ levels := pointerButtonsAfter (d.frame c) injected
       injected := d.injected ++ (d.inputs c).take c.accepts }, injected = (d.inputs c).length)

/-- The frame's own account of an event is what the host does with its input. -/
theorem foldl_pointerButtons (m : MouseButtons) (e : PointerEvent) :
    pointerButtons.foldl (fun m b => if e.kind = .button b then setLevel m b e.pressed else m) m =
      receive m (pointerInput e) := by
  obtain ⟨kind, x, y, pressed⟩ := e
  cases kind with
  | move => rfl
  | wheel => rfl
  | button b => cases b <;> rfl

theorem Desk.pointerButtonsAfter_take (d : Desk) (c : Call) (n : Nat) :
    pointerButtonsAfter (d.frame c) ((d.inputs c).take n).length =
      ((d.inputs c).take n).foldl receive d.levels := by
  simp only [pointerButtonsAfter, foldl_pointerButtons, Desk.inputs, ← map_take,
    foldl_map, length_map, length_take]
  rw [min_assoc, min_self, ← take_eq_take_min]
  rfl

theorem buttonEvents_spec (before desired : MouseButtons) :
    ((buttonEvents before desired).map pointerInput).foldl receive before = desired ∧
      OnlyChanges before ((buttonEvents before desired).map pointerInput) := by
  obtain ⟨l, r, m⟩ := before
  obtain ⟨l', r', m'⟩ := desired
  cases l <;> cases l' <;> cases r <;> cases r' <;> cases m <;> cases m' <;>
    simp [buttonEvents, pointerButtons, MouseButtons.level, pointerInput, receive, setLevel,
      OnlyChanges]

/-- A whole frame brings the host from the stored levels to the requested ones, by changes
only: a move and a wheel turn neither change a level nor repeat one. -/
theorem Desk.inputs_spec (d : Desk) (c : Call) :
    (d.inputs c).foldl receive d.levels = c.buttons ∧ OnlyChanges d.levels (d.inputs c) := by
  obtain ⟨hfold, hchanges⟩ := buttonEvents_spec d.levels c.buttons
  simp only [Desk.inputs, Desk.frame, planPointerFrame, map_append, foldl_append,
    onlyChanges_append]
  split <;> split <;> simp [hfold, hchanges, receive, pointerInput, OnlyChanges]

/-- What one call does: the atomics follow the host, whatever prefix was accepted. -/
theorem Desk.injectRelativeMouse_spec {d : Desk} (c : Call) (h : d.levels = d.host)
    (hd : OnlyChanges {} d.injected) :
    (d.injectRelativeMouse c).1.levels = (d.injectRelativeMouse c).1.host ∧
      ((d.injectRelativeMouse c).2 = true →
        (d.injectRelativeMouse c).1.injected = d.injected ++ d.inputs c ∧
          (d.injectRelativeMouse c).1.host = c.buttons) ∧
      OnlyChanges {} (d.injectRelativeMouse c).1.injected := by
  obtain ⟨hfold, hchanges⟩ := d.inputs_spec c
  unfold Desk.injectRelativeMouse
  split
  next hempty =>
    have hnil : d.inputs c = [] := by rw [Desk.inputs, eq_nil_of_length_eq_zero hempty]; rfl
    rw [hnil] at hfold ⊢
    exact ⟨h, fun _ => ⟨(append_nil _).symm, h.symm.trans hfold⟩, hd⟩
  · simp only [Desk.pointerButtonsAfter_take, Desk.host, foldl_append, decide_eq_true_eq]
    rw [← Desk.host, ← h, onlyChanges_append]
    refine ⟨rfl, fun hall => ?_, hd, ?_⟩
    · rw [(take_sublist _ _).eq_of_length hall]
      exact ⟨rfl, hfold⟩
    · rw [← take_append_drop c.accepts (d.inputs c), onlyChanges_append, h] at hchanges
      exact hchanges.1

def Desk.after (calls : List Call) : Desk :=
  calls.foldl (fun d c => (d.injectRelativeMouse c).1) {}

theorem Desk.after_spec (calls : List Call) :
    (Desk.after calls).levels = (Desk.after calls).host ∧
      OnlyChanges {} (Desk.after calls).injected := by
  induction calls using List.reverseRecOn with
  | nil => exact ⟨rfl, trivial⟩
  | append_singleton calls c ih =>
    obtain ⟨hlevels, -, hchanges⟩ := Desk.injectRelativeMouse_spec c ih.1 ih.2
    rw [Desk.after, foldl_append]
    exact ⟨hlevels, hchanges⟩

/-- After any sequence of calls, and for one more: the stored levels are the host's, success
means the whole frame was injected and the host has what was asked for, and no input ever
repeated a level the host already had. -/
theorem windows_pointer_levels (calls : List Call) (c : Call) :
    let d := Desk.after calls
    let r := d.injectRelativeMouse c
    r.1.levels = r.1.host ∧
      (r.2 = true → r.1.injected = d.injected ++ d.inputs c ∧ r.1.host = c.buttons) ∧
      OnlyChanges {} r.1.injected :=
  Desk.injectRelativeMouse_spec c (Desk.after_spec calls).1 (Desk.after_spec calls).2

/-! ## Linux -/

inductive Code
  | relX
  | relY
  | relWheelHiRes
  | relWheel
  | btn (b : Button)
  | synReport
  deriving DecidableEq

/-- The pointer node: whether it is open, the cached levels, and the levels that were last
written to the device, with every event written so far. -/
structure Node where
  opened : Bool := false
  relMouseBtns : MouseButtons := {}
  device : MouseButtons := {}
  written : List (Code × Int) := []

/-- One call: what it asks for, whether the node can be opened, and which writes succeed.
A call writes no code twice. -/
structure Submit where
  dx : Int := 0
  dy : Int := 0
  wheel : Int := 0
  buttons : MouseButtons
  opens : Bool := true
  writes : Code → Bool := fun _ => true

def Code.write (value : Int) (device : MouseButtons) : Code → MouseButtons
  | .btn b => setLevel device b (value = 1)
  | _ => device

/-- `ok &= emit(…)`. -/
def Submit.emit (c : Submit) (r : Node × Bool) (code : Code) (value : Int) : Node × Bool :=
  if c.writes code then
    ({ r.1 with device := code.write value r.1.device, written := r.1.written ++ [(code, value)] },
      r.2)
  else (r.1, false)

def Submit.motion (c : Submit) (r : Node × Bool) : Node × Bool :=
  let r := if c.dx ≠ 0 then c.emit r .relX c.dx else r
  let r := if c.dy ≠ 0 then c.emit r .relY c.dy else r
  if c.wheel ≠ 0 then
    let r := c.emit r .relWheelHiRes c.wheel
    let notches := c.wheel.tdiv 120
    if notches ≠ 0 then c.emit r .relWheel notches else r
  else r

/-- The cached level moves before the write is tried. -/
def Submit.button (c : Submit) (r : Node × Bool) (b : Button) : Node × Bool :=
  if c.buttons.level b ≠ r.1.relMouseBtns.level b then
    c.emit ({ r.1 with relMouseBtns := setLevel r.1.relMouseBtns b (c.buttons.level b) }, r.2)
      (.btn b) (if c.buttons.level b then 1 else 0)
  else r

def Node.submitRelativeMouse (n : Node) (c : Submit) : Node × Bool :=
  if n.opened || c.opens then
    let r := c.motion ({ n with opened := true }, true)
    c.emit (pointerButtons.foldl c.button r) .synReport 0
  else (n, false)

theorem Submit.emit_spec (c : Submit) (r : Node × Bool) (code : Code) (value : Int) :
    (c.emit r code value).1.relMouseBtns = r.1.relMouseBtns ∧
      ((c.emit r code value).2 = true ↔ r.2 = true ∧ c.writes code = true) ∧
      (c.emit r code value).1.device =
        if c.writes code then code.write value r.1.device else r.1.device := by
  unfold Submit.emit
  split <;> simp_all

theorem Submit.motion_spec (c : Submit) (r : Node × Bool) :
    (c.motion r).1.relMouseBtns = r.1.relMouseBtns ∧ (c.motion r).1.device = r.1.device := by
  simp only [Submit.motion]
  split <;> split <;> split <;> (try split) <;> simp [Submit.emit_spec, Code.write]

theorem Submit.button_spec (c : Submit) (r : Node × Bool) (b : Button) :
    (c.button r b).1.relMouseBtns = setLevel r.1.relMouseBtns b (c.buttons.level b) ∧
      ((c.button r b).2 = true ↔ r.2 = true ∧
        (c.buttons.level b ≠ r.1.relMouseBtns.level b → c.writes (.btn b) = true)) ∧
      ∀ b', (c.button r b).1.device.level b' =
        if (c.buttons.level b ≠ r.1.relMouseBtns.level b ∧ c.writes (.btn b) = true) ∧ b = b' then
          c.buttons.level b
        else r.1.device.level b' := by
  unfold Submit.button
  split
  next h =>
    have hvalue : decide ((if c.buttons.level b = true then 1 else 0 : Int) = 1) =
        c.buttons.level b := by
      cases c.buttons.level b <;> rfl
    simp only [Submit.emit_spec, Code.write, hvalue]
    refine ⟨trivial, by simp [h], fun b' => ?_⟩
    split <;> simp_all [level_setLevel]
  next h =>
    have hsame : c.buttons.level b = r.1.relMouseBtns.level b := not_not.1 h
    refine ⟨buttons_ext fun b' => ?_, by simp [hsame], by simp [hsame]⟩
    rw [level_setLevel]
    split <;> simp_all

/-- A call through an open node caches every requested level. It succeeds only if the write
of every level it changed did, and a level reaches the device only by such a write. -/
theorem Node.submitRelativeMouse_spec (n : Node) (c : Submit) (h : (n.opened || c.opens) = true) :
    (n.submitRelativeMouse c).1.relMouseBtns = c.buttons ∧
      ((n.submitRelativeMouse c).2 = true → ∀ b,
        c.buttons.level b ≠ n.relMouseBtns.level b → c.writes (.btn b) = true) ∧
      ∀ b, (n.submitRelativeMouse c).1.device.level b =
        if c.buttons.level b ≠ n.relMouseBtns.level b ∧ c.writes (.btn b) = true then
          c.buttons.level b
        else n.device.level b := by
  rw [Node.submitRelativeMouse, if_pos h]
  obtain ⟨hcached, hdevice⟩ := c.motion_spec ({ n with opened := true }, true)
  simp only [pointerButtons, foldl_cons, foldl_nil, Submit.emit_spec, Code.write, ite_self,
    Submit.button_spec, hcached, hdevice, level_setLevel]
  refine ⟨buttons_ext fun b => ?_, ?_, fun b => ?_⟩
  · cases b <;> simp [level_setLevel]
  · rintro ⟨⟨⟨⟨-, hleft⟩, hright⟩, hmiddle⟩, -⟩ b
    cases b
    · exact hleft
    · simpa using hright
    · simpa using hmiddle
  · cases b <;> simp

def Node.after (calls : List Submit) : Node :=
  calls.foldl (fun n c => (n.submitRelativeMouse c).1) {}

/-- While no write of a button fails, the device has the cached levels. -/
theorem Node.after_device (calls : List Submit)
    (h : ∀ c ∈ calls, ∀ b, c.writes (.btn b) = true) :
    (Node.after calls).device = (Node.after calls).relMouseBtns := by
  induction calls using List.reverseRecOn with
  | nil => rfl
  | append_singleton calls c ih =>
    have hkept := ih fun c' hc' => h c' (mem_append_left _ hc')
    rw [Node.after, foldl_append, ← Node.after, foldl_cons, foldl_nil]
    by_cases hopen : ((Node.after calls).opened || c.opens) = true
    · obtain ⟨hcached, -, hdevice⟩ := (Node.after calls).submitRelativeMouse_spec c hopen
      refine buttons_ext fun b => ?_
      rw [hcached, hdevice, hkept, h c (by simp)]
      split <;> simp_all
    · rw [Node.submitRelativeMouse, if_neg hopen]
      exact hkept

/-- A call that reports success has brought the device to the requested levels exactly when
every button it left alone has its cached level at the device; so it has in every run in
which no write of a button failed before. -/
theorem linux_pointer_levels (calls : List Submit) (c : Submit) :
    let n := Node.after calls
    let r := n.submitRelativeMouse c
    (r.2 = true →
      (r.1.device = c.buttons ↔ ∀ b, c.buttons.level b = n.relMouseBtns.level b →
        n.device.level b = n.relMouseBtns.level b)) ∧
    ((∀ c' ∈ calls, ∀ b, c'.writes (.btn b) = true) → r.2 = true → r.1.device = c.buttons) := by
  intro n r
  have hlaw : r.2 = true → (r.1.device = c.buttons ↔
      ∀ b, c.buttons.level b = n.relMouseBtns.level b →
        n.device.level b = n.relMouseBtns.level b) := by
    intro hok
    have hopen : (n.opened || c.opens) = true := by
      by_contra hclosed
      have hr : r = (n, false) := if_neg hclosed
      simp [hr] at hok
    obtain ⟨-, hwrites, hdevice⟩ := n.submitRelativeMouse_spec c hopen
    have hlevel : ∀ b, r.1.device.level b = c.buttons.level b ↔
        (c.buttons.level b = n.relMouseBtns.level b →
          n.device.level b = n.relMouseBtns.level b) := by
      intro b
      rw [hdevice]
      by_cases hb : c.buttons.level b = n.relMouseBtns.level b
      · simp [hb]
      · simp [hb, hwrites hok b hb]
    rw [← forall_congr' hlevel]
    exact ⟨fun h b => h ▸ rfl, buttons_ext⟩
  refine ⟨hlaw, fun hwrites hok => (hlaw hok).2 fun b _ => ?_⟩
  rw [show n.device = n.relMouseBtns from Node.after_device calls hwrites]

/-- A press whose write failed is not written again: the next call for the same level
reports success and the device's button is still up. -/
theorem lost_press :
    let press : Submit := { buttons := { left := true } }
    let n := Node.after [{ press with writes := fun code => decide (code ≠ .btn .left) }]
    (n.submitRelativeMouse press).2 = true ∧
      (n.submitRelativeMouse press).1.device ≠ press.buttons := by
  decide

/-! ## The Linux wheel -/

/-- What `motion` writes, in order. -/
def Submit.motionEvents (c : Submit) : List (Code × Int) :=
  (if c.dx ≠ 0 then [(.relX, c.dx)] else []) ++ ((if c.dy ≠ 0 then [(.relY, c.dy)] else []) ++
    if c.wheel ≠ 0 then
      (.relWheelHiRes, c.wheel) ::
        if c.wheel.tdiv 120 ≠ 0 then [(.relWheel, c.wheel.tdiv 120)] else []
    else [])

theorem Submit.motion_eq (c : Submit) (r : Node × Bool) :
    c.motion r = c.motionEvents.foldl (fun r e => c.emit r e.1 e.2) r := by
  simp only [Submit.motion, Submit.motionEvents]
  split <;> split <;> split <;> (try split) <;> rfl

/-- The sum of the values written to a code. -/
def sumOf (code : Code) (events : List (Code × Int)) : Int :=
  ((events.filter fun e => e.1 = code).map Prod.snd).sum

/-- The sum of the values the motion of one call writes to a code. -/
def Submit.total (c : Submit) (code : Code) : Int := sumOf code c.motionEvents

/-- The sum of a stream over calls whose writes all succeed. -/
def streamTotal (code : Code) (calls : List Submit) : Int :=
  (calls.map fun c => c.total code).sum

theorem sumOf_append (code : Code) (l m : List (Code × Int)) :
    sumOf code (l ++ m) = sumOf code l + sumOf code m := by
  simp [sumOf]

theorem Submit.emit_written {c : Submit} (h : ∀ code, c.writes code = true) (r : Node × Bool)
    (code : Code) (value : Int) :
    (c.emit r code value).1.written = r.1.written ++ [(code, value)] := by
  rw [Submit.emit, if_pos (h code)]

theorem Submit.motion_written {c : Submit} (h : ∀ code, c.writes code = true) (r : Node × Bool) :
    (c.motion r).1.written = r.1.written ++ c.motionEvents := by
  rw [Submit.motion_eq]
  generalize c.motionEvents = events
  induction events generalizing r with
  | nil => simp
  | cons e events ih => rw [foldl_cons, ih, Submit.emit_written h, append_assoc, singleton_append]

/-- A call that opens and writes adds its motion to every stream but the buttons'. -/
theorem Node.submitRelativeMouse_written (n : Node) {c : Submit} (hopens : c.opens = true)
    (h : ∀ code, c.writes code = true) {code : Code} (hcode : ∀ b, Code.btn b ≠ code) :
    sumOf code (n.submitRelativeMouse c).1.written = sumOf code n.written + c.total code := by
  have hbutton : ∀ r b, sumOf code (c.button r b).1.written = sumOf code r.1.written := by
    intro r b
    unfold Submit.button
    split
    · rw [Submit.emit_written h, sumOf_append]
      simp [sumOf, hcode]
    · rfl
  rw [Node.submitRelativeMouse, hopens, Bool.or_true, if_pos rfl, Submit.emit_written h,
    sumOf_append]
  simp only [pointerButtons, foldl_cons, foldl_nil, hbutton, Submit.motion_written h, sumOf_append]
  cases code <;> simp [sumOf, Submit.total]

/-- What a run of such calls has written to a code sums to its stream. -/
theorem Node.after_written (calls : List Submit)
    (h : ∀ c ∈ calls, c.opens = true ∧ ∀ code, c.writes code = true) {code : Code}
    (hcode : ∀ b, Code.btn b ≠ code) :
    sumOf code (Node.after calls).written = streamTotal code calls := by
  induction calls using List.reverseRecOn with
  | nil => rfl
  | append_singleton calls c ih =>
    obtain ⟨hopens, hwrites⟩ := h c (by simp)
    rw [Node.after, foldl_append, ← Node.after, foldl_cons, foldl_nil,
      Node.submitRelativeMouse_written _ hopens hwrites hcode,
      ih fun c' hc' => h c' (mem_append_left _ hc')]
    simp [streamTotal]

/-- After every call the classic wheel is less than a notch away from the high-resolution one. -/
def WheelInStep (calls : List Submit) : Prop :=
  ∀ n, (120 * streamTotal .relWheel (calls.take n) -
    streamTotal .relWheelHiRes (calls.take n)).natAbs < 120

/-- A call drops the remainder of its division by 120. -/
theorem Submit.total_wheel (c : Submit) :
    120 * c.total .relWheel = c.total .relWheelHiRes - c.wheel.tmod 120 := by
  have hdiv := Int.mul_tdiv_add_tmod c.wheel 120
  simp only [Submit.total, sumOf, Submit.motionEvents, filter_append, map_append, sum_append]
  split <;> split <;> split <;> (try split) <;> simp_all <;> omega

theorem streamTotal_wheel (calls : List Submit) :
    120 * streamTotal .relWheel calls =
      streamTotal .relWheelHiRes calls - (calls.map fun c => c.wheel.tmod 120).sum := by
  induction calls with
  | nil => rfl
  | cons c calls ih =>
    have hc := c.total_wheel
    simp only [streamTotal, map_cons, sum_cons] at ih ⊢
    omega

/-- The streams stay in step exactly while the dropped remainders sum to less than a notch. -/
theorem linux_wheel_in_step (calls : List Submit) :
    WheelInStep calls ↔
      ∀ n, ((calls.take n).map fun c : Submit => c.wheel.tmod 120).sum.natAbs < 120 := by
  refine forall_congr' fun n => ?_
  have hsum := streamTotal_wheel (calls.take n)
  omega

/-- Two scrolls of half a notch write no notch. -/
theorem small_scrolls_lost :
    let scroll : Submit := { wheel := 60, buttons := {} }
    ¬ WheelInStep [scroll, scroll] ∧ streamTotal .relWheel [scroll, scroll] = 0 :=
  ⟨fun h => absurd (h 2) (by decide), by decide⟩

/-! ## Touch contacts -/

/-- The fingers of a touchpad report, by slot. -/
abbrev Fingers := Fin 2 → TouchpadFinger

/-- What an adapter keeps of a pad's contacts, what a report does to it, and the id it then
emits for a slot. -/
structure Contacts where
  State : Type
  init : State
  submitTouchpad : State → Fingers → State
  emitted : State → Fin 2 → Int

/-- `touchSlotId` (-1 while lifted) and the counter both slots draw from. -/
structure LinuxContacts where
  touchTrackingId : Nat := 0
  touchSlotId : Fin 2 → Int := fun _ => -1

def LinuxContacts.slot (d : LinuxContacts) (report : Fingers) (slot : Fin 2) : LinuxContacts :=
  if (report slot).active then
    if d.touchSlotId slot < 0 then
      { touchTrackingId := d.touchTrackingId + 1
        touchSlotId := Function.update d.touchSlotId slot (d.touchTrackingId % 0x10000 : Nat) }
    else d
  else if 0 ≤ d.touchSlotId slot then
    { d with touchSlotId := Function.update d.touchSlotId slot (-1) }
  else d

def linuxContacts : Contacts where
  State := LinuxContacts
  init := {}
  submitTouchpad d report := (d.slot report 0).slot report 1
  emitted d slot := d.touchSlotId slot

/-- The tracking ids of the packed DualShock and DualSense reports, and whether each finger
was down in the last touch report. -/
structure SonyContacts where
  fingerDown : Fin 2 → Bool := fun _ => false
  trackingId : Fin 2 → UInt8 := fun _ => 0

def SonyContacts.submitTouchpad (st : SonyContacts) (report : Fingers) : SonyContacts where
  fingerDown slot := (report slot).active
  trackingId slot :=
    if (report slot).active && !st.fingerDown slot then (st.trackingId slot + 1) &&& 0x7F
    else st.trackingId slot

/-- The low bits of the first byte of `ds4PackTouchFinger`. -/
def SonyContacts.emitted (st : SonyContacts) (slot : Fin 2) : Int :=
  (st.trackingId slot &&& 0x7F).toNat

def vigemContacts : Contacts := ⟨_, {}, SonyContacts.submitTouchpad, SonyContacts.emitted⟩

/-- The macOS slot keeps the last fingers themselves where the others keep a flag. -/
structure MacContacts where
  finger : Fingers := fun _ => {}
  touchTrackingId : Fin 2 → UInt8 := fun _ => 0

def macosContacts : Contacts where
  State := MacContacts
  init := {}
  submitTouchpad st report :=
    { finger := report
      touchTrackingId := fun slot =>
        if (report slot).active && !(st.finger slot).active then
          (st.touchTrackingId slot + 1) &&& 0x7F
        else st.touchTrackingId slot }
  emitted st slot := (st.touchTrackingId slot &&& 0x7F).toNat

/-- Both report layouts are kept, and move together; the pad's identity picks one. -/
def hidMaestroContacts (dualSense : Bool) : Contacts where
  State := SonyContacts × SonyContacts
  init := ({}, {})
  submitTouchpad st report := (st.1.submitTouchpad report, st.2.submitTouchpad report)
  emitted st slot := if dualSense then st.2.emitted slot else st.1.emitted slot

inductive Adapter
  | linux
  | vigem
  | hidMaestro (dualSense : Bool)
  | macos

def Adapter.contacts : Adapter → Contacts
  | linux => linuxContacts
  | vigem => vigemContacts
  | hidMaestro dualSense => hidMaestroContacts dualSense
  | macos => macosContacts

/-- The id emitted for a slot after the delivered reports. -/
def Adapter.emitted (a : Adapter) (reports : List Fingers) (slot : Fin 2) : Int :=
  a.contacts.emitted (reports.foldl a.contacts.submitTouchpad a.contacts.init) slot

theorem LinuxContacts.slot_of_ne (d : LinuxContacts) (report : Fingers) {slot other : Fin 2}
    (h : other ≠ slot) : (d.slot report slot).touchSlotId other = d.touchSlotId other := by
  unfold LinuxContacts.slot
  split_ifs <;> simp [Function.update_of_ne h]

theorem LinuxContacts.slot_self (d : LinuxContacts) {report : Fingers} {slot : Fin 2}
    (h : (report slot).active = true) :
    0 ≤ (d.slot report slot).touchSlotId slot ∧
      (0 ≤ d.touchSlotId slot → (d.slot report slot).touchSlotId slot = d.touchSlotId slot) := by
  rw [LinuxContacts.slot, if_pos h]
  split
  case isTrue hlifted =>
    simp only [Function.update_self]
    exact ⟨by omega, fun hdown => absurd hdown (by omega)⟩
  case isFalse hdown => exact ⟨not_lt.1 hdown, fun _ => rfl⟩

/-- The two slots of a report are handled apart. -/
theorem linuxContacts_submit (d : LinuxContacts) {report : Fingers} {slot : Fin 2}
    (h : (report slot).active = true) :
    0 ≤ linuxContacts.emitted (linuxContacts.submitTouchpad d report) slot ∧
      (0 ≤ linuxContacts.emitted d slot →
        linuxContacts.emitted (linuxContacts.submitTouchpad d report) slot =
          linuxContacts.emitted d slot) := by
  obtain rfl | rfl : slot = 0 ∨ slot = 1 := by omega
  · simpa [linuxContacts, LinuxContacts.slot_of_ne] using d.slot_self h
  · simpa [linuxContacts, LinuxContacts.slot_of_ne] using (d.slot report 0).slot_self h

theorem SonyContacts.submitTouchpad_active (st : SonyContacts) {r r' : Fingers} {slot : Fin 2}
    (h : (r slot).active = true) :
    ((st.submitTouchpad r).submitTouchpad r').emitted slot =
      (st.submitTouchpad r).emitted slot := by
  simp [SonyContacts.emitted, SonyContacts.submitTouchpad, h]

/-- An active finger that stays active keeps its id, whatever the reports say of it. -/
theorem Adapter.emitted_active (a : Adapter) (before : List Fingers) {r r' : Fingers}
    {slot : Fin 2} (h : (r slot).active = true) (h' : (r' slot).active = true) :
    a.emitted (before ++ [r, r']) slot = a.emitted (before ++ [r]) slot := by
  simp only [Adapter.emitted, foldl_append, foldl_cons, foldl_nil]
  cases a with
  | linux => exact (linuxContacts_submit _ h').2 (linuxContacts_submit _ h).1
  | vigem => exact SonyContacts.submitTouchpad_active _ h
  | hidMaestro dualSense =>
    cases dualSense <;> exact SonyContacts.submitTouchpad_active _ h
  | macos => simp [Adapter.contacts, macosContacts, h]

/-- Between consecutive delivered reports of an active finger the emitted id changes exactly
when the tracking id on the wire does. -/
def Adapter.NewTouchNewContact (a : Adapter) (before : List Fingers) (r r' : Fingers) : Prop :=
  ∀ slot, (r slot).active = true → (r' slot).active = true →
    (a.emitted (before ++ [r, r']) slot ≠ a.emitted (before ++ [r]) slot ↔
      (r' slot).trackingId ≠ (r slot).trackingId)

/-- No adapter reads the tracking id on the wire: after any delivered reports the law holds of
the next two exactly when no finger is active in both under different ids. -/
theorem new_touch_new_contact (a : Adapter) (before : List Fingers) (r r' : Fingers) :
    a.NewTouchNewContact before r r' ↔ ∀ slot, (r slot).active = true →
      (r' slot).active = true → (r' slot).trackingId = (r slot).trackingId := by
  refine forall₃_congr fun slot h h' => ?_
  simp [a.emitted_active before h h']

/-- The lift between two touches was lost: every adapter goes on with the first contact. -/
theorem lost_lift :
    let touch (id : UInt8) : Fingers := fun _ => { active := true, trackingId := id }
    ¬ ∃ a : Adapter, a.NewTouchNewContact [] (touch 1) (touch 2) := by
  rintro touch ⟨a, hlaw⟩
  have hchanged := (hlaw 0 rfl rfl).2 (by simp [touch])
  exact hchanged (a.emitted_active [] rfl rfl)

end Satellite.Injection
