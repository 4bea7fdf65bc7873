import Satellite.Model.Types

/-!
# The game's feedback state on the client

Light bar, trigger effects and player LEDs are states: the satellite caches what the game
last set, sends a change to a client whose caps admit it, and never sends a value twice on
its own. A client that could not be reached then, or whose key is new, is served by a
replay: the first datagram under a key marks the session, and the next maintenance tick
sends every cached state that the caps admit.

Each event below is one locked section of `core/session_service.cpp`, the record of one
datagram, or the backend plugging a device in, which it does outside the lock and before
the commit that binds the device to its pad. A session PUT commits its pads and publishes
the new key in one section. The socket is open. An unknown client address is the zero word
of the source.
-/

namespace Satellite.Feedback

open Function

inductive Kind
  | lightbar
  | triggerEffects
  | playerLeds
  deriving DecidableEq

def Kind.all : List Kind := [.lightbar, .triggerEffects, .playerLeds]

theorem Kind.mem_all (k : Kind) : k ∈ all := by
  cases k <;> decide

/-- `CAP_LIGHTBAR`, `CAP_TRIGGER_EFFECTS` and `CAP_PLAYER_LEDS`. -/
def Kind.cap : Kind → UInt16
  | .lightbar => 0x0008
  | .triggerEffects => 0x0010
  | .playerLeds => 0x0020

/-- A whole state, as the game sets it and as it goes over the wire. -/
inductive GameState
  | lightbar (r g b : UInt8)
  | triggerEffects (left right : List UInt8)
  | playerLeds (ledMask : UInt8)
  deriving DecidableEq

def GameState.kind : GameState → Kind
  | .lightbar .. => .lightbar
  | .triggerEffects .. => .triggerEffects
  | .playerLeds _ => .playerLeds

/-- What a game has set on a device, by kind. -/
abbrev GameSet := Kind → Option GameState

/-- A controller with its feedback caches. What the game has set since the pad was plugged is
kept beside them, for the statement only. -/
structure Pad where
  active : Bool := false
  serialNo : Nat := 0
  caps : UInt16 := 0
  cached : Kind → Option GameState := fun _ => none
  gameSet : GameSet := fun _ => none

def Pad.admits (p : Pad) (k : Kind) : Bool := p.caps &&& k.cap != 0

abbrev PadIndex := Fin maxControllersPerConn
abbrev Row := Fin maxSessions

/-- What a commit does to one pad: `updatePadLocked`, `takeDescriptorLocked` of a plugged device
(an add, a replug or a refit), or the pad's end. -/
inductive PadEdit
  | update (caps : UInt16)
  | bind (serial : Nat) (caps : UInt16)
  | vacate

/-- The caches of a pad that is bound are empty, whatever the game has already set on the device. -/
def Pad.edit (unbound : Nat → GameSet) (p : Pad) : PadEdit → Pad
  | .update caps => if p.active then { p with caps := caps } else p
  | .bind serial caps =>
    { active := true, serialNo := serial, caps := caps, gameSet := unbound serial }
  | .vacate => {}

/-- A session with its hot slot, which outlives it. Whether a datagram has come under the current
key, and what was sent under it with the latest first, is kept for the statement only. -/
structure Slot where
  live : Bool := false
  keyEpoch : UInt32 := 0
  replayKeyEpoch : UInt32 := 0
  clientAddr : Option Nat := none
  feedbackPending : Bool := false
  pads : PadIndex → Pad := fun _ => {}
  received : Bool := false
  sent : List (PadIndex × GameState) := []

namespace Slot

def setPad (s : Slot) (i : PadIndex) (p : Pad) : Slot :=
  { s with pads := update s.pads i p }

/-- A send to an unknown address is dropped. -/
def send (s : Slot) (i : PadIndex) (m : GameState) : Slot :=
  if s.clientAddr.isSome then { s with sent := (i, m) :: s.sent } else s

def isFor (i : PadIndex) (k : Kind) (e : PadIndex × GameState) : Bool :=
  e.1 == i && e.2.kind == k

def lastSent (s : Slot) (i : PadIndex) (k : Kind) : Option GameState :=
  (s.sent.find? (isFor i k)).map Prod.snd

/-- The body the three backend handlers share, for the pad the serial was found on. -/
def handleState (s : Slot) (i : PadIndex) (m : GameState) : Slot :=
  let p := s.pads i
  let p := { p with gameSet := update p.gameSet m.kind (some m) }
  if p.cached m.kind = some m then s.setPad i p
  else
    let p := { p with cached := update p.cached m.kind (some m) }
    if p.admits m.kind then (s.setPad i p).send i m else s.setPad i p

def resendState (s : Slot) (i : PadIndex) (k : Kind) : Slot :=
  match (s.pads i).cached k with
  | none => s
  | some m => if (s.pads i).admits k then s.send i m else s

def resendControllerFeedbackState (s : Slot) (i : PadIndex) : Slot :=
  Kind.all.foldl (resendState · i) s

def resendFeedbackState (s : Slot) : Slot :=
  (List.finRange maxControllersPerConn).foldl
    (fun s i => if (s.pads i).active then s.resendControllerFeedbackState i else s) s

/-- What `refreshRumble` does about feedback. -/
def tick (s : Slot) : Slot :=
  if s.live && s.feedbackPending then { s with feedbackPending := false }.resendFeedbackState else s

def recordDatagram (s : Slot) (clientAddr : Nat) : Slot :=
  let s := { s with clientAddr := some clientAddr, received := true }
  if s.replayKeyEpoch = s.keyEpoch then s
  else { s with replayKeyEpoch := s.keyEpoch, feedbackPending := true }

def edit (unbound : Nat → GameSet) (s : Slot) (e : PadIndex × PadEdit) : Slot :=
  s.setPad e.1 ((s.pads e.1).edit unbound e.2)

/-- `publishSessionKeyLocked`. -/
def publishSessionKey (s : Slot) : Slot :=
  { s with
    live := true
    keyEpoch := s.keyEpoch + 1
    clientAddr := none
    feedbackPending := false
    received := false
    sent := [] }

def upsertSession (unbound : Nat → GameSet) (s : Slot) (edits : List (PadIndex × PadEdit)) : Slot :=
  (edits.foldl (edit unbound) s).publishSessionKey

def close (s : Slot) : Slot :=
  { s with live := false, pads := fun _ => {}, received := false }

end Slot

/-! ## Histories -/

/-- The sessions, and for the statement only what the game has set on a plugged device that no
pad holds yet. -/
structure Sessions where
  slots : Row → Slot := fun _ => {}
  unbound : Nat → GameSet := fun _ _ => none

inductive Event
  /-- The backend plugs a device in under a serial. -/
  | plug (serial : Nat)
  /-- A state the game sets on the device of a serial. -/
  | state (serial : Nat) (m : GameState)
  | sessionPut (row : Row) (edits : List (PadIndex × PadEdit))
  /-- A controller PUT or removal, or a pad of the second round of a commit. -/
  | controllerPut (row : Row) (i : PadIndex) (e : PadEdit)
  | close (row : Row)
  | datagram (row : Row) (clientAddr : Nat)
  | tick

namespace Sessions

def setSlot (s : Sessions) (row : Row) (slot : Slot) : Sessions :=
  { s with slots := update s.slots row slot }

def setUnbound (s : Sessions) (serial : Nat) (states : GameSet) : Sessions :=
  { s with unbound := update s.unbound serial states }

def findBySerial (s : Sessions) (serial : Nat) : Option (Row × PadIndex) :=
  ((List.finRange maxSessions).product (List.finRange maxControllersPerConn)).find? fun place =>
    (s.slots place.1).live && ((s.slots place.1).pads place.2).active &&
      ((s.slots place.1).pads place.2).serialNo == serial

/-- Without a pad for the serial the source returns; only the record keeps the state. -/
def handleStateFromBackend (s : Sessions) (serial : Nat) (m : GameState) : Sessions :=
  match s.findBySerial serial with
  | none => s.setUnbound serial (update (s.unbound serial) m.kind (some m))
  | some (row, i) => s.setSlot row ((s.slots row).handleState i m)

def handleLightbarFromBackend (s : Sessions) (serial : Nat) (r g b : UInt8) : Sessions :=
  s.handleStateFromBackend serial (.lightbar r g b)

def handleTriggerEffectsFromBackend (s : Sessions) (serial : Nat) (left right : List UInt8) :
    Sessions :=
  s.handleStateFromBackend serial (.triggerEffects left right)

def handlePlayerLedsFromBackend (s : Sessions) (serial : Nat) (ledMask : UInt8) : Sessions :=
  s.handleStateFromBackend serial (.playerLeds ledMask)

/-- A datagram, and a change to the pads, need the session to be there. -/
def onLive (s : Sessions) (row : Row) (f : Slot → Slot) : Sessions :=
  if (s.slots row).live then s.setSlot row (f (s.slots row)) else s

def step (s : Sessions) : Event → Sessions
  | .plug serial => s.setUnbound serial fun _ => none
  | .state serial (.lightbar r g b) => s.handleLightbarFromBackend serial r g b
  | .state serial (.triggerEffects left right) =>
    s.handleTriggerEffectsFromBackend serial left right
  | .state serial (.playerLeds ledMask) => s.handlePlayerLedsFromBackend serial ledMask
  | .sessionPut row edits => s.setSlot row (Slot.upsertSession s.unbound (s.slots row) edits)
  | .controllerPut row i e => s.onLive row fun slot => slot.edit s.unbound (i, e)
  | .close row => s.setSlot row (s.slots row).close
  | .datagram row clientAddr => s.onLive row (·.recordDatagram clientAddr)
  | .tick => { s with slots := fun row => (s.slots row).tick }

inductive Reaches (allowed : Sessions → Event → Prop) : Sessions → Prop
  | start : Reaches allowed {}
  | event {s : Sessions} {e : Event} (h : Reaches allowed s) (ha : allowed s e) :
      Reaches allowed (s.step e)

end Sessions

/-- The caps admit no state the game has set that they did not admit before. -/
def Pad.AdmitsNoMore (p : Pad) : PadEdit → Prop
  | .update caps => ∀ k, (p.cached k).isSome → { p with caps := caps }.admits k → p.admits k
  | _ => True

/-- The game has set nothing on the device before the commit that binds it. -/
def PadEdit.Untouched (unbound : Nat → GameSet) : PadEdit → Prop
  | .bind serial _ => unbound serial = fun _ => none
  | _ => True

/-- Once a key's replay is done, no pad is given a cap for a state already set; a new key's epoch
is not that of the datagram last recorded in the slot; and between its plug and the commit of its
pad no state is set on a device. -/
def Sessions.Unwidened (s : Sessions) : Event → Prop
  | .controllerPut row i e => e.Untouched s.unbound ∧ ((s.slots row).received = true →
      (s.slots row).feedbackPending = false → ((s.slots row).pads i).AdmitsNoMore e)
  | .sessionPut row edits => (∀ e ∈ edits, e.2.Untouched s.unbound) ∧
      (s.slots row).keyEpoch + 1 ≠ (s.slots row).replayKeyEpoch
  | _ => True

/-! ## What was sent last -/

namespace Slot

variable {s : Slot} {i j : PadIndex} {k : Kind} {m : GameState}

theorem lastSent_send_self (h : s.clientAddr.isSome = true) :
    (s.send i m).lastSent i m.kind = some m := by
  simp [send, h, lastSent, isFor]

theorem lastSent_send_of_ne (h : ¬ (j = i ∧ m.kind = k)) :
    (s.send j m).lastSent i k = s.lastSent i k := by
  unfold send
  split
  · have hnot : isFor i k (j, m) = false := by
      simpa [isFor] using h
    simp [lastSent, hnot]
  · rfl

@[simp] theorem pads_send : (s.send i m).pads = s.pads := by
  unfold send
  split <;> rfl

/-- Every admitted state the game has set on an active pad was the last of its kind sent. -/
def Shown (s : Slot) : Prop := ∀ i k m, (s.pads i).active = true →
  (s.pads i).cached k = some m → (s.pads i).admits k = true → s.lastSent i k = some m

/-- A cache holds states of its own kind. -/
def Kinds (s : Slot) : Prop := ∀ i k m, (s.pads i).cached k = some m → m.kind = k

/-! ## Replay -/

/-- A replay only adds to what was sent. -/
def Resent (s t : Slot) : Prop := ∃ sent, t = { s with sent := sent }

theorem Resent.refl (s : Slot) : Resent s s := ⟨s.sent, rfl⟩

theorem Resent.trans {s t u : Slot} (h : Resent s t) (h' : Resent t u) : Resent s u := by
  obtain ⟨l, rfl⟩ := h
  obtain ⟨l', rfl⟩ := h'
  exact ⟨l', rfl⟩

theorem resent_send (s : Slot) (i : PadIndex) (m : GameState) : Resent s (s.send i m) := by
  unfold send
  split
  · exact ⟨_, rfl⟩
  · exact .refl s

theorem resent_resendState (s : Slot) (i : PadIndex) (k : Kind) : Resent s (s.resendState i k) := by
  unfold resendState
  split
  · exact .refl s
  · split
    · exact resent_send s i _
    · exact .refl s

/-- The last message of a pad's state is the cached one. -/
def Current (s : Slot) (i : PadIndex) (k : Kind) : Prop := s.lastSent i k = (s.pads i).cached k

theorem current_send (hm : (s.pads j).cached m.kind = some m) (haddr : s.clientAddr.isSome = true)
    (h : (j = i ∧ m.kind = k) ∨ s.Current i k) : (s.send j m).Current i k := by
  unfold Current
  rw [pads_send]
  by_cases hsame : j = i ∧ m.kind = k
  · obtain ⟨rfl, rfl⟩ := hsame
    rw [hm, lastSent_send_self haddr]
  · rw [lastSent_send_of_ne hsame]
    exact h.resolve_left hsame

/-- Sending a cached state again leaves the messages of every pad current that were. -/
theorem current_resendState (hk : s.Kinds) (haddr : s.clientAddr.isSome = true) {k' : Kind}
    (h : (j = i ∧ k' = k ∧ (s.pads i).admits k = true ∧ ((s.pads i).cached k).isSome) ∨
      s.Current i k) : (s.resendState j k').Current i k := by
  unfold resendState
  split
  next hnone =>
    rcases h with ⟨rfl, rfl, _, hsome⟩ | h
    · rw [hnone] at hsome
      cases hsome
    · exact h
  next m hm =>
    have hkind := hk j k' m hm
    subst hkind
    split
    · exact current_send hm haddr (h.imp_left fun h => ⟨h.1, h.2.1⟩)
    next hno =>
      rcases h with ⟨rfl, rfl, hadm, _⟩ | h
      · exact absurd hadm hno
      · exact h

end Slot

/-- A fact that one round of a fold establishes and every round keeps, under an invariant of the
rounds, holds after it. -/
theorem foldl_of_mem {α β : Type} {f : β → α → β} {J P : β → Prop} {x : α}
    (hJ : ∀ b a, J b → J (f b a)) (hkeep : ∀ b a, J b → P b → P (f b a))
    (hset : ∀ b, J b → P (f b x)) : ∀ (l : List α) (b : β), J b → (x ∈ l ∨ P b) → P (l.foldl f b)
  | [], _, _, h => h.resolve_left (List.not_mem_nil)
  | a :: l, b, hb, h => by
    apply foldl_of_mem hJ hkeep hset l _ (hJ b a hb)
    rcases h with h | h
    · rcases List.mem_cons.mp h with rfl | h
      · exact .inr (hset b hb)
      · exact .inl h
    · exact .inr (hkeep b a hb h)

namespace Slot

variable {s : Slot} {i : PadIndex} {k : Kind} {m : GameState}

theorem resent_resendController (s : Slot) (i : PadIndex) :
    Resent s (s.resendControllerFeedbackState i) :=
  List.foldlRecOn Kind.all _ (Resent.refl s) fun b hb k _ => hb.trans (resent_resendState b i k)

theorem resent_round (s : Slot) (i : PadIndex) :
    Resent s (if (s.pads i).active then s.resendControllerFeedbackState i else s) := by
  split
  · exact resent_resendController s i
  · exact .refl s

theorem Resent.kinds {t : Slot} (h : Resent s t) (hk : s.Kinds) : t.Kinds := by
  obtain ⟨l, rfl⟩ := h
  exact hk

theorem Resent.addr {t : Slot} (h : Resent s t) (haddr : s.clientAddr.isSome = true) :
    t.clientAddr.isSome = true := by
  obtain ⟨l, rfl⟩ := h
  exact haddr

/-- What a replay needs of a state, whatever it has sent before. -/
def Replayable (s : Slot) : Prop := s.Kinds ∧ s.clientAddr.isSome = true

theorem Resent.replayable {t : Slot} (h : Resent s t) (hs : s.Replayable) : t.Replayable :=
  ⟨h.kinds hs.1, h.addr hs.2⟩

theorem current_of_current_resendController (hs : s.Replayable) (j : PadIndex)
    (h : s.Current i k) : (s.resendControllerFeedbackState j).Current i k := by
  have hboth : Resent s (s.resendControllerFeedbackState j) ∧
      (s.resendControllerFeedbackState j).Current i k := by
    apply List.foldlRecOn Kind.all _ (motive := fun t => Resent s t ∧ t.Current i k) ⟨.refl s, h⟩
    intro b hb k' _
    have hr := hb.1.replayable hs
    exact ⟨hb.1.trans (resent_resendState b j k'), current_resendState hr.1 hr.2 (.inr hb.2)⟩
  exact hboth.2

theorem current_resendController (hs : s.Replayable) (hadm : (s.pads i).admits k = true)
    (hset : ((s.pads i).cached k).isSome) : (s.resendControllerFeedbackState i).Current i k := by
  apply foldl_of_mem (J := Resent s) (P := (Slot.Current · i k)) (x := k)
    (fun b a hb => hb.trans (resent_resendState b i a)) _ _ Kind.all s (.refl s) (.inl k.mem_all)
  · intro b a hb hcur
    have hr := hb.replayable hs
    exact current_resendState hr.1 hr.2 (.inr hcur)
  · intro b hb
    have hr := hb.replayable hs
    apply current_resendState hr.1 hr.2
    -- a replay leaves the pads as they were
    obtain ⟨l, rfl⟩ := hb
    exact .inl ⟨rfl, rfl, hadm, hset⟩

theorem current_resendFeedbackState (hs : s.Replayable) (hactive : (s.pads i).active = true)
    (hadm : (s.pads i).admits k = true) (hset : ((s.pads i).cached k).isSome) :
    s.resendFeedbackState.Current i k := by
  apply foldl_of_mem (J := Resent s) (P := (Slot.Current · i k)) (x := i)
    (fun b a hb => hb.trans (resent_round b a)) _ _ (List.finRange maxControllersPerConn) s
    (.refl s) (.inl (List.mem_finRange i))
  · intro b j hb hcur
    split
    · exact current_of_current_resendController (hb.replayable hs) j hcur
    · exact hcur
  · intro b hb
    have hr := hb.replayable hs
    obtain ⟨l, rfl⟩ := hb
    rw [if_pos hactive]
    exact current_resendController hr hadm hset

theorem resent_resendFeedbackState (s : Slot) : Resent s s.resendFeedbackState :=
  List.foldlRecOn (List.finRange maxControllersPerConn) _ (Resent.refl s)
    fun b hb i _ => hb.trans (resent_round b i)

theorem shown_resendFeedbackState (hs : s.Replayable) : s.resendFeedbackState.Shown := by
  intro i k m hactive hm hadm
  have hpads : s.resendFeedbackState.pads = s.pads := by
    obtain ⟨l, hl⟩ := resent_resendFeedbackState s
    rw [hl]
  rw [hpads] at hactive hm hadm
  have hcur := current_resendFeedbackState hs hactive hadm (by rw [hm]; rfl)
  rw [hcur, hpads, hm]

/-! ## The invariant -/

/-- What holds of a pad: its caches are what the game set, and where the session has received a
datagram under its key and owes no replay, the client has them. -/
structure PadInv (s : Slot) (i : PadIndex) (p : Pad) : Prop where
  kinds : ∀ k m, p.cached k = some m → m.kind = k
  cached : p.cached = p.gameSet
  shown : s.received = true → s.feedbackPending = false → ∀ k m, p.active = true →
    p.cached k = some m → p.admits k = true → s.lastSent i k = some m

structure Inv (s : Slot) : Prop where
  pads : ∀ i, s.PadInv i (s.pads i)
  received : s.live = true → (s.received = true ↔ s.replayKeyEpoch = s.keyEpoch)
  addr : s.received = true → s.clientAddr.isSome = true

theorem padInv_fresh (s : Slot) (i : PadIndex) (active : Bool) (serial : Nat) (caps : UInt16) :
    s.PadInv i { active := active, serialNo := serial, caps := caps } where
  kinds := nofun
  cached := rfl
  shown := nofun

theorem inv_fresh : Inv {} where
  pads i := padInv_fresh _ i false 0 0
  received := nofun
  addr := nofun

theorem Inv.kinds (h : s.Inv) : s.Kinds := fun i => (h.pads i).kinds

theorem Inv.shown (h : s.Inv) (hrec : s.received = true) (hpend : s.feedbackPending = false) :
    s.Shown := fun i => (h.pads i).shown hrec hpend

/-- The pads' part of the invariant, for a session whose pads have not changed. -/
theorem Inv.pads_of_shown (h : s.Inv) {t : Slot} (hpads : t.pads = s.pads)
    (hshown : t.received = true → t.feedbackPending = false → t.Shown) (i : PadIndex) :
    t.PadInv i (t.pads i) where
  kinds := hpads ▸ (h.pads i).kinds
  cached := hpads ▸ (h.pads i).cached
  shown hrec hpend := hshown hrec hpend i

theorem Inv.tick (h : s.Inv) : s.tick.Inv := by
  unfold Slot.tick
  split
  · obtain ⟨l, hl⟩ := resent_resendFeedbackState { s with feedbackPending := false }
    have hshown : s.received = true →
        (resendFeedbackState { s with feedbackPending := false }).Shown :=
      fun hrec => shown_resendFeedbackState ⟨h.kinds, h.addr hrec⟩
    rw [hl] at hshown ⊢
    exact ⟨h.pads_of_shown rfl fun hrec _ => hshown hrec, h.received, h.addr⟩
  · exact h

theorem feedbackPending_tick (hlive : s.tick.live = true) : s.tick.feedbackPending = false := by
  revert hlive
  unfold Slot.tick
  split
  · obtain ⟨l, hl⟩ := resent_resendFeedbackState { s with feedbackPending := false }
    rw [hl]
    exact fun _ => rfl
  next hno =>
    intro hlive
    simpa [hlive] using hno

theorem Inv.recordDatagram (h : s.Inv) (hlive : s.live = true) (clientAddr : Nat) :
    (s.recordDatagram clientAddr).Inv := by
  unfold Slot.recordDatagram
  dsimp only
  split
  next hseen =>
    have hrec := (h.received hlive).mpr hseen
    exact ⟨h.pads_of_shown rfl fun _ => h.shown hrec, fun _ => ⟨fun _ => hseen, fun _ => rfl⟩,
      fun _ => rfl⟩
  · exact ⟨h.pads_of_shown rfl nofun, fun _ => ⟨fun _ => rfl, fun _ => rfl⟩, fun _ => rfl⟩

/-- One pad changes, and with it perhaps what was sent for this pad. -/
theorem Inv.setPad (h : s.Inv) {p : Pad} {l : List (PadIndex × GameState)}
    (hother : ∀ j k, j ≠ i → lastSent { s with sent := l } j k = s.lastSent j k)
    (hp : PadInv { s with sent := l } i p) : Inv { s.setPad i p with sent := l } where
  pads j := by
    by_cases hj : j = i
    · subst hj
      simp only [Slot.setPad, update_self]
      exact ⟨hp.kinds, hp.cached, hp.shown⟩
    · simp only [Slot.setPad, update_of_ne hj]
      refine ⟨(h.pads j).kinds, (h.pads j).cached, fun hrec hpend k m ha hm hadm => ?_⟩
      exact (hother j k hj).trans ((h.pads j).shown hrec hpend k m ha hm hadm)
  received := h.received
  addr := h.addr

theorem Inv.edit (h : s.Inv) {unbound : Nat → GameSet} {e : PadEdit} (hbind : e.Untouched unbound)
    (ha : s.received = true → s.feedbackPending = false → (s.pads i).AdmitsNoMore e) :
    (s.edit unbound (i, e)).Inv := by
  apply h.setPad (l := s.sent) fun _ _ _ => rfl
  cases e with
  | update caps =>
    simp only [Pad.edit]
    split
    · refine ⟨(h.pads i).kinds, (h.pads i).cached, fun hrec hpend k m hactive hm hadm => ?_⟩
      have hold := ha hrec hpend k (by rw [hm]; rfl) hadm
      exact (h.pads i).shown hrec hpend k m hactive hm hold
    · exact h.pads i
  | bind serial caps =>
    simp only [Pad.edit, show unbound serial = _ from hbind]
    exact padInv_fresh _ i true serial caps
  | vacate => exact padInv_fresh _ i false 0 0

theorem send_setPad (s : Slot) (i : PadIndex) (p : Pad) (m : GameState) :
    (s.setPad i p).send i m = { s.setPad i p with sent := (s.send i m).sent } := by
  by_cases haddr : s.clientAddr.isSome = true <;> simp [send, setPad, haddr]

theorem sent_send (s : Slot) (i : PadIndex) (m : GameState) :
    { s with sent := (s.send i m).sent } = s.send i m := by
  obtain ⟨l, hl⟩ := resent_send s i m
  rw [hl]

theorem cached_update (h : s.Inv) (i : PadIndex) (m : GameState) :
    update (s.pads i).cached m.kind (some m) =
      update (s.pads i).gameSet m.kind (some m) := by
  rw [(h.pads i).cached]

theorem kinds_update (h : s.Inv) (i : PadIndex) (m : GameState) (k : Kind) (m' : GameState)
    (hm : update (s.pads i).cached m.kind (some m) k = some m') : m'.kind = k := by
  by_cases hk : k = m.kind
  · subst hk
    rw [update_self, Option.some.injEq] at hm
    rw [hm]
  · rw [update_of_ne hk] at hm
    exact (h.pads i).kinds k m' hm

theorem Inv.handleState (h : s.Inv) (i : PadIndex) (m : GameState) : (s.handleState i m).Inv := by
  have hkinds := kinds_update h i m
  have hset := cached_update h i m
  unfold Slot.handleState
  dsimp only
  split
  next hsame =>
    -- the game sets again what is cached
    rw [← hset, ← hsame, update_eq_self]
    exact h.setPad (l := s.sent) (fun _ _ _ => rfl)
      ⟨(h.pads i).kinds, rfl, (h.pads i).shown⟩
  · split
    · rw [send_setPad]
      apply h.setPad
      · intro j k hj
        rw [sent_send]
        exact lastSent_send_of_ne fun hsame => hj hsame.1.symm
      · refine ⟨hkinds, hset, fun hrec hpend k m' hactive hm hadm => ?_⟩
        rw [sent_send]
        by_cases hk : k = m.kind
        · subst hk
          simp only [update_self, Option.some.injEq] at hm
          rw [← hm]
          exact lastSent_send_self (h.addr hrec)
        · rw [lastSent_send_of_ne fun hsame => hk hsame.2.symm]
          simp only [update_of_ne hk] at hm
          exact (h.pads i).shown hrec hpend k m' hactive hm hadm
    next hno =>
      apply h.setPad (l := s.sent) fun _ _ _ => rfl
      refine ⟨hkinds, hset, fun hrec hpend k m' hactive hm hadm => ?_⟩
      have hk : k ≠ m.kind := by
        intro hk
        subst hk
        exact hno hadm
      simp only [update_of_ne hk] at hm
      exact (h.pads i).shown hrec hpend k m' hactive hm hadm

/-- Under a new key nothing has been received, so nothing is owed yet. -/
theorem inv_publishSessionKey (hkinds : s.Kinds)
    (hcached : ∀ i, (s.pads i).cached = (s.pads i).gameSet)
    (hepoch : s.keyEpoch + 1 ≠ s.replayKeyEpoch) : s.publishSessionKey.Inv where
  pads i := ⟨hkinds i, hcached i, nofun⟩
  received _ := ⟨nofun, fun heq => absurd heq.symm hepoch⟩
  addr := nofun

/-- What a commit's edits keep while the old key is on its way out. -/
structure Editing (s t : Slot) : Prop where
  kinds : t.Kinds
  cached : ∀ i, (t.pads i).cached = (t.pads i).gameSet
  keyEpoch : t.keyEpoch = s.keyEpoch
  replayKeyEpoch : t.replayKeyEpoch = s.replayKeyEpoch

theorem cached_edit (p : Pad) {unbound : Nat → GameSet} {e : PadEdit} (hbind : e.Untouched unbound) :
    ((p.edit unbound e).cached = p.cached ∧ (p.edit unbound e).gameSet = p.gameSet) ∨
      ((p.edit unbound e).cached = fun _ => none) ∧ (p.edit unbound e).gameSet = fun _ => none := by
  cases e with
  | update caps =>
    simp only [Pad.edit]
    split <;> exact .inl ⟨rfl, rfl⟩
  | bind serial caps => exact .inr ⟨rfl, hbind⟩
  | vacate => exact .inr ⟨rfl, rfl⟩

theorem Editing.edit {t : Slot} (h : Editing s t) {unbound : Nat → GameSet}
    {e : PadIndex × PadEdit} (hbind : e.2.Untouched unbound) : Editing s (t.edit unbound e) := by
  have hpad : ∀ i, (∀ k m, ((t.edit unbound e).pads i).cached k = some m → m.kind = k) ∧
      ((t.edit unbound e).pads i).cached = ((t.edit unbound e).pads i).gameSet := by
    intro i
    by_cases hi : i = e.1
    · subst hi
      simp only [Slot.edit, Slot.setPad, update_self]
      rcases cached_edit (t.pads e.1) hbind with ⟨hc, hg⟩ | ⟨hc, hg⟩
      · rw [hc, hg]
        exact ⟨h.kinds e.1, h.cached e.1⟩
      · rw [hc, hg]
        exact ⟨nofun, rfl⟩
    · simp only [Slot.edit, Slot.setPad, update_of_ne hi]
      exact ⟨h.kinds i, h.cached i⟩
  exact ⟨fun i => (hpad i).1, fun i => (hpad i).2, h.keyEpoch, h.replayKeyEpoch⟩

theorem Inv.upsertSession (h : s.Inv) {unbound : Nat → GameSet} {edits : List (PadIndex × PadEdit)}
    (hbind : ∀ e ∈ edits, e.2.Untouched unbound) (hepoch : s.keyEpoch + 1 ≠ s.replayKeyEpoch) :
    (s.upsertSession unbound edits).Inv := by
  have hstart : Editing s s := ⟨h.kinds, fun i => (h.pads i).cached, rfl, rfl⟩
  have hend : Editing s (edits.foldl (Slot.edit unbound) s) :=
    List.foldlRecOn edits _ hstart fun _ ht e he => ht.edit (hbind e he)
  apply inv_publishSessionKey hend.kinds hend.cached
  rw [hend.keyEpoch, hend.replayKeyEpoch]
  exact hepoch

theorem inv_close (s : Slot) : s.close.Inv where
  pads i := padInv_fresh _ i false 0 0
  received := nofun
  addr := nofun

end Slot

/-! ## Whole histories -/

namespace Sessions

variable {s : Sessions}

def Inv (s : Sessions) : Prop := ∀ row, (s.slots row).Inv

theorem Inv.setSlot (h : s.Inv) {row : Row} {slot : Slot} (hslot : slot.Inv) :
    (s.setSlot row slot).Inv :=
  (forall_update_iff s.slots fun _ => Slot.Inv).2 ⟨hslot, fun r _ => h r⟩

theorem Inv.onLive (h : s.Inv) {row : Row} {f : Slot → Slot}
    (hf : (s.slots row).live = true → (f (s.slots row)).Inv) : (s.onLive row f).Inv := by
  unfold Sessions.onLive
  split
  · exact h.setSlot (hf ‹_›)
  · exact h

theorem Inv.handleStateFromBackend (h : s.Inv) (serial : Nat) (m : GameState) :
    (s.handleStateFromBackend serial m).Inv := by
  unfold Sessions.handleStateFromBackend
  split
  · exact h
  · exact h.setSlot ((h _).handleState _ m)

theorem step_state (s : Sessions) (serial : Nat) (m : GameState) :
    s.step (.state serial m) = s.handleStateFromBackend serial m := by
  cases m <;> rfl

theorem step_inv (h : s.Inv) {e : Event} (ha : s.Unwidened e) : (s.step e).Inv := by
  cases e with
  | plug serial => exact h
  | state serial m =>
    rw [step_state]
    exact h.handleStateFromBackend serial m
  | sessionPut row edits => exact h.setSlot ((h row).upsertSession ha.1 ha.2)
  | controllerPut row i e => exact h.onLive fun _ => (h row).edit ha.1 ha.2
  | close row => exact h.setSlot (Slot.inv_close _)
  | datagram row clientAddr => exact h.onLive fun hlive => (h row).recordDatagram hlive clientAddr
  | tick => exact fun row => (h row).tick

theorem reaches_inv (h : Reaches Unwidened s) : s.Inv := by
  induction h with
  | start => exact fun _ => Slot.inv_fresh
  | event _ ha ih => exact step_inv ih ha

/-- After a tick, every state the game has set since the pad was plugged and the pad's caps admit
was sent under the current key, and the last message of its kind is the cached state. -/
theorem tick_shows_game_state (h : Reaches Unwidened s) {row : Row}
    (hlive : ((s.step .tick).slots row).live = true)
    (hreceived : ((s.step .tick).slots row).received = true) {i : PadIndex} {k : Kind}
    {m : GameState} (hactive : (((s.step .tick).slots row).pads i).active = true)
    (hset : (((s.step .tick).slots row).pads i).gameSet k = some m)
    (hadmits : (((s.step .tick).slots row).pads i).admits k = true) :
    ((s.step .tick).slots row).lastSent i k = some m ∧
      (((s.step .tick).slots row).pads i).cached k = some m := by
  have hinv : (s.slots row).tick.Inv := (reaches_inv h row).tick
  have hpending := Slot.feedbackPending_tick hlive
  have hcached : ((s.slots row).tick.pads i).cached k = some m := by
    rw [(hinv.pads i).cached]
    exact hset
  exact ⟨hinv.shown hreceived hpending i k m hactive hcached hadmits, hcached⟩

def row0 : Row := ⟨0, by decide⟩
def pad0 : PadIndex := ⟨0, by decide⟩

/-- A light bar set before the session can be reached, on a pad that takes it. -/
def setBeforeDatagram : Sessions :=
  step (step (step (step {} (.plug 1)) (.sessionPut row0 [(pad0, .bind 1 0x0008)]))
    (.state 1 (.lightbar 9 8 7))) (.datagram row0 5)

theorem tick_shows_lightbar : Reaches Unwidened setBeforeDatagram ∧
    ((setBeforeDatagram.step .tick).slots row0).lastSent pad0 .lightbar = some (.lightbar 9 8 7) ∧
      (((setBeforeDatagram.step .tick).slots row0).pads pad0).cached .lightbar =
        some (.lightbar 9 8 7) := by
  have hreach : Reaches Unwidened setBeforeDatagram := by
    refine .event (.event (.event (.event .start trivial) ⟨?_, ?_⟩) trivial) trivial
    · rintro e he
      obtain rfl := List.mem_singleton.1 he
      rfl
    · show (0 : UInt32) + 1 ≠ 0
      decide
  exact ⟨hreach, tick_shows_game_state hreach (by decide +kernel) (by decide +kernel)
    (by decide +kernel) (by decide +kernel) (by decide +kernel)⟩

/-- The game sets the light bar of a pad without the cap, after the key's replay; a controller PUT
then adds the cap. -/
def capAddedLate : Sessions :=
  step (step (step (step (step (step {} (.plug 1)) (.sessionPut row0 [(pad0, .bind 1 0)]))
    (.datagram row0 5)) .tick) (.state 1 (.lightbar 9 8 7))) (.controllerPut row0 pad0 (.update 0x0008))

/-- The game sets the light bar between the plug of a device and the commit of its pad. -/
def setBeforeCommit : Sessions :=
  step (step (step (step {} (.plug 1)) (.state 1 (.lightbar 9 8 7)))
    (.sessionPut row0 [(pad0, .bind 1 0x0008)])) (.datagram row0 5)

/-- The tick sends nothing, though the game has set the light bar and the pad takes it. -/
def Misses (s : Sessions) : Prop :=
  ((s.step .tick).slots row0).live = true ∧ ((s.step .tick).slots row0).received = true ∧
    (((s.step .tick).slots row0).pads pad0).active = true ∧
    (((s.step .tick).slots row0).pads pad0).gameSet .lightbar = some (.lightbar 9 8 7) ∧
    (((s.step .tick).slots row0).pads pad0).admits .lightbar = true ∧
    ((s.step .tick).slots row0).lastSent pad0 .lightbar = none

/-- A state set before a cap is added, or before the pad's commit, is not sent. -/
theorem tick_misses_game_state : (Reaches (fun _ _ => True) capAddedLate ∧ capAddedLate.Misses) ∧
    Reaches (fun _ _ => True) setBeforeCommit ∧ setBeforeCommit.Misses := by
  refine ⟨⟨?_, ?_⟩, ?_, ?_⟩
  · repeat' apply Reaches.event _ trivial
    exact .start
  · refine ⟨?_, ?_, ?_, ?_, ?_, ?_⟩ <;> decide +kernel
  · repeat' apply Reaches.event _ trivial
    exact .start
  · refine ⟨?_, ?_, ?_, ?_, ?_, ?_⟩ <;> decide +kernel

end Sessions

end Satellite.Feedback
