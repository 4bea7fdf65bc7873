import Satellite.Model.SessionService
import Satellite.Pool.Ledger

/-!
# Rules for the instructions and small helpers of an operation

Each instruction as an equation for the weakest precondition, and each locked
helper summarised by its effect: an edit of one record, a move of one serial, or
a list of stores. Later proofs use these and never unfold the helpers.
-/

namespace Satellite.SessionService

open Prog (forEach mapEach firstOf foldEach loop)
open List

variable {B : Backend} {v : Topo}

/-! ## Instructions -/

section Instructions

variable {α : Type}

@[simp] theorem wp_pure {a : α} {Q : α → Topo → Prop} :
    (topoMachine B).wp (pure a) Q v = Q a v := rfl

@[simp] theorem wp_bind' {β : Type} {p : TProg α} {f : α → TProg β} {Q : β → Topo → Prop} :
    (topoMachine B).wp (p >>= f) Q v =
      (topoMachine B).wp p (fun a t => (topoMachine B).wp (f a) Q t) v :=
  Machine.wp_bind

theorem wp_ite {c : Prop} [Decidable c] {p q : TProg α} {Q : α → Topo → Prop} :
    (topoMachine B).wp (if c then p else q) Q v =
      if c then (topoMachine B).wp p Q v else (topoMachine B).wp q Q v := by
  split <;> rfl

variable {Q : Unit → Topo → Prop}

/-- An instruction that answers nothing and leads to one state. -/
private theorem forall_unit_step {w : Topo} :
    (∀ (r : Unit) (v' : Topo), v' = w → Q r v') ↔ Q () w :=
  ⟨fun h => h () w rfl, fun h _ _ e => e ▸ h⟩

/-- A query: it answers something that `A` allows and changes nothing. -/
private theorem forall_query_step {Q : α → Topo → Prop} {A : α → Prop} :
    (∀ (r : α) (v' : Topo), A r ∧ v' = v → Q r v') ↔ ∀ r, A r → Q r v := by
  simp

private theorem forall_free_step {Q : α → Topo → Prop} :
    (∀ (r : α) (v' : Topo), v' = v → Q r v') ↔ ∀ r, Q r v := by
  simp

@[simp] theorem wp_lock :
    (topoMachine B).wp lock Q v ↔ v.locked = false ∧ Q () { v with locked := true } :=
  and_congr_right' forall_unit_step

@[simp] theorem wp_unlock :
    (topoMachine B).wp unlock Q v ↔ (v.locked = true ∧ v.writing = none ∧ v.Published ∧
        (∀ k ∈ v.cold.connections, k.token ≠ 0) ∧ Held.Consistent (v.seenCold ++ v.held)) ∧
      Q () { v with locked := false, held := v.seenCold ++ v.held } :=
  and_congr_right' forall_unit_step

theorem wp_cold (hl : v.locked = true) {Q : Cold → Topo → Prop} :
    (topoMachine B).wp cold Q v ↔ Q v.cold v :=
  (and_iff_right hl).trans (forall_query_step.trans forall_eq)

theorem wp_modify (hl : v.locked = true) {f : Cold → Cold} :
    (topoMachine B).wp (modify f) Q v ↔ Q () { v with cold := f v.cold } :=
  (and_iff_right hl).trans forall_unit_step

theorem wp_conn (hl : v.locked = true) {row : Nat} {Q : Connection → Topo → Prop} :
    (topoMachine B).wp (conn row) Q v ↔ Q (v.cold.conn row) v :=
  wp_cold hl

theorem wp_load_owned {l : Loc} (hl : l.owned = true) {Q : Nat → Topo → Prop} :
    (topoMachine B).wp (load l) Q v ↔ Q (v.mem l) v := by
  refine (and_iff_right trivial).trans (forall_query_step.trans ?_)
  simp [hl]

theorem wp_load_any {l : Loc} (hl : l.owned = false) {Q : Nat → Topo → Prop} :
    (topoMachine B).wp (load l) Q v ↔ ∀ r, Q r v := by
  refine (and_iff_right trivial).trans (forall_query_step.trans ?_)
  simp [hl]

variable {s : Nat}

@[simp] theorem wp_load_hidMotors {Q : Nat → Topo → Prop} :
    (topoMachine B).wp (load (.hidMotors s)) Q v ↔ ∀ r, Q r v :=
  wp_load_any rfl

theorem wp_store_hidMotors (hl : v.locked = true) {w : Nat} :
    (topoMachine B).wp (store (.hidMotors s) w) Q v ↔ Q () v :=
  (and_iff_right ⟨hl, trivial⟩).trans forall_unit_step

theorem wp_addActivePads (hl : v.locked = true) {delta : Int} :
    (topoMachine B).wp (addActivePads delta) Q v ↔
      Q () { v with activePads := v.activePads + delta } :=
  (and_iff_right hl).trans forall_unit_step

@[simp] theorem wp_postRelease {stamp : Nat} :
    (topoMachine B).wp (postRelease s stamp) Q v ↔ Q () v :=
  (and_iff_right trivial).trans forall_unit_step

@[simp] theorem wp_now {Q : Nat → Topo → Prop} :
    (topoMachine B).wp now Q v ↔ ∀ r, Q r v :=
  (and_iff_right trivial).trans forall_free_step

@[simp] theorem wp_random {Q : Nat → Topo → Prop} :
    (topoMachine B).wp random Q v ↔ ∀ r, 1 ≤ r ∧ r < 2 ^ 32 → Q r v :=
  (and_iff_right trivial).trans forall_query_step

@[simp] theorem wp_isBusOpen {Q : Bool → Topo → Prop} :
    (topoMachine B).wp isBusOpen Q v ↔ ∀ r, B.isBusOpen v.bus r → Q r v :=
  (and_iff_right trivial).trans forall_query_step

@[simp] theorem wp_supportsIdentity {g : GamepadIdentity} {Q : Bool → Topo → Prop} :
    (topoMachine B).wp (supportsIdentity g) Q v ↔ ∀ r, B.supportsIdentity g r → Q r v :=
  (and_iff_right trivial).trans forall_query_step

@[simp] theorem wp_supportsRelativeMouse {Q : Bool → Topo → Prop} :
    (topoMachine B).wp supportsRelativeMouse Q v ↔ ∀ r, Q r v :=
  (and_iff_right trivial).trans forall_free_step

@[simp] theorem wp_supportsMotionForType {type : Nat} {Q : Bool → Topo → Prop} :
    (topoMachine B).wp (supportsMotionForType type) Q v ↔ ∀ r, Q r v :=
  (and_iff_right trivial).trans forall_free_step

@[simp] theorem wp_motionBackendOk {Q : Bool → Topo → Prop} :
    (topoMachine B).wp (motionBackendOk s) Q v ↔ ∀ r, Q r v :=
  (and_iff_right trivial).trans forall_free_step

@[simp] theorem wp_backendIdForSerial {Q : String → Topo → Prop} :
    (topoMachine B).wp (backendIdForSerial s) Q v ↔ ∀ r, Q r v :=
  (and_iff_right trivial).trans forall_free_step

@[simp] theorem wp_seededRumble {slot i : Nat} {Q : Option RumbleReport → Topo → Prop} :
    (topoMachine B).wp (seededRumble slot i) Q v ↔ ∀ r, Q r v :=
  (and_iff_right trivial).trans forall_free_step

end Instructions

/-! ## Publication -/

section Writing

variable {slot w : Nat} {l : Loc} {Q : Unit → Topo → Prop}

theorem wp_beginWrite (hl : v.locked = true) (hw : v.writing = none) (hs : slot < maxSessions) :
    (topoMachine B).wp (beginWrite slot) Q v ↔
      Q () { v.setMem (.gen slot) ((v.mem (.gen slot) + 1) % 2 ^ 32) with
               writing := some (slot, 0) } :=
  (and_iff_right ⟨hl, hw, hs⟩).trans forall_unit_step

theorem wp_waitOut {p : Nat} (hw : v.writing = some (slot, p)) :
    (topoMachine B).wp (waitOut p) Q v ↔ Q () { v with writing := some (slot, p + 1) } := by
  refine (and_iff_right ⟨slot, hw⟩).trans (forall_unit_step.trans ?_)
  rw [hw]
  rfl

theorem wp_endWrite {k : Connection} (hl : v.locked = true)
    (hw : v.writing = some (slot, rxParticipants)) (hk : v.Projects slot k)
    (hsee : Held.Consistent (v.seenSlot slot ++ v.held)) :
    (topoMachine B).wp (endWrite slot) Q v ↔
      Q () { v.setMem (.gen slot) ((v.mem (.gen slot) + 1) % 2 ^ 32) with
               writing := none, held := v.seenSlot slot ++ v.held } :=
  (and_iff_right ⟨hl, hw, ⟨k, hk⟩, hsee⟩).trans forall_unit_step

/-- A word of the slot being published. -/
theorem wp_store_guarded (hl : v.locked = true) (hw : v.writing = some (slot, rxParticipants))
    (hg : l.guard = some slot) (hsame : l.phase w none = none) :
    (topoMachine B).wp (store l w) Q v ↔ Q () (v.setMem l w) := by
  have hpre : Topo.pre B (.store l w) v := by
    cases l with
    | keyEpoch => simp [Loc.phase] at hsame
    | _ => simp [Loc.guard] at hg <;> exact ⟨hl, slot, .inl (by simp [Loc.guard, hg]), hw⟩
  have hown : l.owned = true := by
    cases l <;> simp [Loc.guard] at hg <;> rfl
  have hphase : l.phase w v.writing = v.writing := by
    cases l with
    | token => simp_all [Loc.phase]
    | keyEpoch => simp [Loc.phase] at hsame
    | _ => rfl
  refine (and_iff_right hpre).trans (forall_unit_step.trans ?_)
  rw [if_pos hown, hphase]
  rfl

/-- A new token opens the key epoch, and the next key epoch closes it. -/
theorem wp_store_token (hl : v.locked = true) (hw : v.writing = some (slot, rxParticipants))
    (ht : w ≠ 0) : (topoMachine B).wp (store (.token slot) w) Q v ↔
      Q () { v.setMem (.token slot) w with writing := some (slot, rxParticipants + 1) } := by
  refine (and_iff_right ⟨hl, slot, .inl rfl, hw⟩).trans (forall_unit_step.trans ?_)
  have hown : (Loc.token slot).owned = true := rfl
  rw [if_pos hown, Loc.phase, if_neg ht]
  rfl

theorem wp_store_keyEpoch (hl : v.locked = true)
    (hw : v.writing = some (slot, rxParticipants + 1))
    (he : w = (v.mem (.keyEpoch slot) + 1) % 2 ^ 32) :
    (topoMachine B).wp (store (.keyEpoch slot) w) Q v ↔
      Q () { v.setMem (.keyEpoch slot) w with writing := some (slot, rxParticipants) } :=
  (and_iff_right ⟨hl, hw, he⟩).trans forall_unit_step

/-- A word the publication resets, which other threads write too. -/
theorem wp_store_reset (hl : v.locked = true) (hw : v.writing = some (slot, rxParticipants))
    (hr : l.resetBy = some slot) : (topoMachine B).wp (store l w) Q v ↔ Q () v := by
  have hpre : Topo.pre B (.store l w) v := by
    cases l <;> simp [Loc.resetBy] at hr <;> exact ⟨hl, slot, .inr (by simp [Loc.resetBy, hr]), hw⟩
  have hown : l.owned = false := by
    cases l <;> simp [Loc.resetBy] at hr <;> rfl
  refine (and_iff_right hpre).trans (forall_unit_step.trans ?_)
  rw [if_neg (by simp [hown])]
  rfl

theorem wp_store_padOwner {s : Nat} (hl : v.locked = true)
    (hw : v.writing = some (slot, rxParticipants)) :
    (topoMachine B).wp (store (.padOwner s) w) Q v ↔ Q () (v.setMem (.padOwner s) w) :=
  (and_iff_right ⟨hl, slot, hw⟩).trans forall_unit_step

theorem wp_store_packed (hl : v.locked = true) (hw : v.writing = none) :
    (topoMachine B).wp (store (.packed slot) w) Q v ↔ Q () (v.setMem (.packed slot) w) :=
  (and_iff_right ⟨hl, hw⟩).trans forall_unit_step

theorem wp_sendSealed {token : Nat} {key : Key} {inner : List UInt8} (hl : v.locked = true)
    (hw : v.writing = none) (hs : slot < maxSessions) (ht : token ≠ 0)
    (htok : v.mem (.token slot) = token) (hkey : ∀ w, v.mem (.key slot w) = key w) :
    (topoMachine B).wp (sendSealed token key slot inner) Q v ↔ Q () v :=
  (and_iff_right ⟨hl, hw, hs, ht, htok, hkey⟩).trans forall_unit_step

end Writing

/-! ## The backend -/

section Calls

variable {s : Nat}

variable {Q : Bool → Topo → Prop}

theorem wp_ensureBusOpen (hl : v.locked = false) :
    (topoMachine B).wp ensureBusOpen Q v ↔ ∀ r bus, B.ensureBusOpen v.bus r bus →
      Q r { v with bus := bus, calls := .ensureBusOpen r :: v.calls } := by
  refine (and_iff_right hl).trans ⟨fun h r bus hb => h r _ ⟨bus, hb, rfl⟩, ?_⟩
  rintro h r _ ⟨bus, hb, rfl⟩
  exact h r bus hb

theorem wp_closeBus (hl : v.locked = false) (hpad : v.cold.NoneActive)
    {Q : Unit → Topo → Prop} :
    (topoMachine B).wp closeBus Q v ↔ ∀ bus, B.closeBus v.bus bus →
      Q () { v with bus := bus, calls := .closeBus :: v.calls } := by
  refine (and_iff_right ⟨hl, hpad⟩).trans ⟨fun h bus hb => h () _ ⟨bus, hb, rfl⟩, ?_⟩
  rintro h r _ ⟨bus, hb, rfl⟩
  exact h bus hb

theorem wp_pluginDevice {g : GamepadIdentity} {preferred : String}
    (hpre : Topo.pre B (.pluginDevicePreferring s g preferred) v) :
    (topoMachine B).wp (pluginDevicePreferring s g preferred) Q v ↔
      ∀ r, B.pluginDevice s g preferred r → Q r { v with calls := .pluginDevice s r :: v.calls } := by
  refine (and_iff_right hpre).trans ⟨fun h r hr => h r _ ⟨hr, rfl⟩, ?_⟩
  rintro h r _ ⟨hr, rfl⟩
  exact h r hr

theorem wp_unplugDevice (hpre : Topo.pre B (.unplugDevice s) v) :
    (topoMachine B).wp (unplugDevice s) Q v ↔
      ∀ r, B.unplugDevice s r → Q r { v with calls := .unplugDevice s r :: v.calls } := by
  refine (and_iff_right hpre).trans ⟨fun h r hr => h r _ ⟨hr, rfl⟩, ?_⟩
  rintro h r _ ⟨hr, rfl⟩
  exact h r hr

end Calls

/-! ## The serial pool -/

section Pool

variable {s : Nat}

theorem freeSerial_some {c : Cold} (h : c.freeSerial = some s) :
    (1 ≤ s ∧ s ≤ 16) ∧ c.serialInUse s = false ∧ c.serialQuarantined s = false := by
  have hmem := mem_of_find?_eq_some h
  have hfree := find?_some h
  obtain ⟨step, -, rfl⟩ := mem_map.1 hmem
  refine ⟨⟨by simp, ?_⟩, by simpa using hfree⟩
  simp only [maxBackendControllers]
  omega

theorem freeSerial_none {c : Cold} (h : c.freeSerial = none) (hs : 1 ≤ s ∧ s ≤ 16) :
    c.serialInUse s = true ∨ c.serialQuarantined s = true := by
  -- The scan visits every serial: it reaches `s` after the steps from its start.
  have hmem : s ∈ (List.range maxBackendControllers).map fun step =>
      (c.serialScanStart + step) % maxBackendControllers + 1 := by
    refine mem_map.2 ⟨(s + 15 - c.serialScanStart % 16) % 16, ?_, ?_⟩
    · simp only [maxBackendControllers, mem_range]
      omega
    · simp only [maxBackendControllers]
      omega
  have hnone := find?_eq_none.1 h s hmem
  cases hu : c.serialInUse s with
  | true => exact .inl rfl
  | false =>
    rw [hu] at hnone
    exact .inr (by simpa using hnone)

theorem wp_allocateSerial (hl : v.locked = true) {Q : Nat → Topo → Prop} :
    (topoMachine B).wp allocateSerial Q v ↔
      match v.cold.freeSerial with
      | none => Q 0 v
      | some s => Q s { v with cold := v.cold.takeSerial s } := by
  simp (disch := exact hl) only [allocateSerial, wp_bind', wp_cold]
  cases v.cold.freeSerial with
  | none => rfl
  | some s =>
    simp (disch := exact hl) only [wp_bind', wp_store_hidMotors, wp_modify, wp_pure]

variable {Q : Unit → Topo → Prop}

theorem wp_releaseSerial (hl : v.locked = true) (hs : 1 ≤ s ∧ s ≤ 16) :
    (topoMachine B).wp (releaseSerial s) Q v ↔ Q () { v with cold := v.cold.dropSerial s } := by
  simp (disch := exact hl) only [releaseSerial, Cold.serialInRange_iff.2 hs, if_true, wp_bind',
    wp_store_hidMotors, wp_modify]

@[simp] theorem wp_releaseSerial_zero :
    (topoMachine B).wp (releaseSerial 0) Q v ↔ Q () v :=
  Iff.rfl

theorem wp_quarantineSerial (hl : v.locked = true) (hs : 1 ≤ s ∧ s ≤ 16)
    :
    (topoMachine B).wp (quarantineSerial s) Q v ↔ Q () { v with cold := v.cold.quarantine s } := by
  simp (disch := exact hl) only [quarantineSerial, Cold.serialInRange_iff.2 hs, if_true, wp_bind',
    wp_store_hidMotors, wp_modify]

theorem wp_claimSerial (hl : v.locked = true) (hs : 1 ≤ s ∧ s ≤ 16) {Q : Bool → Topo → Prop} :
    (topoMachine B).wp (claimSerialLocked s) Q v ↔
      if v.cold.serialInUse s || v.cold.serialQuarantined s then Q false v
      else Q true { v with cold := v.cold.claim s } := by
  simp (disch := exact hl) only [claimSerialLocked, Cold.serialInRange_iff.2 hs, if_true, wp_bind',
    wp_cold]
  rw [wp_ite]
  simp (disch := exact hl) only [wp_bind', wp_store_hidMotors, wp_modify, wp_pure]

end Pool

/-! ## What a run never takes back -/

/-- Later in a run: nothing that was seen or called is forgotten. -/
structure Later (v v' : Topo) : Prop where
  held : v.held ⊆ v'.held
  calls : ∃ new, v'.calls = new ++ v.calls

theorem Later.of_eq {v' : Topo} (hheld : ∃ new, v'.held = new ++ v.held)
    (hcalls : ∃ new, v'.calls = new ++ v.calls) : Later v v' := by
  obtain ⟨new, hheld⟩ := hheld
  refine ⟨fun x hx => ?_, hcalls⟩
  rw [hheld]
  exact mem_append_right new hx

theorem later_step {i : TInstr} {r : i.Res} {v' : Topo} (h : Topo.step B i v r v') :
    Later v v' := by
  cases i with
  | lock | modify | addActivePads | beginWrite | waitOut | now | supportsRelativeMouse
  | supportsMotionForType | motionBackendOk | backendIdForSerial | sendSealed | seededRumble
  | postRelease =>
    cases h
    exact .of_eq ⟨[], rfl⟩ ⟨[], rfl⟩
  | unlock | endWrite =>
    cases h
    exact .of_eq ⟨_, rfl⟩ ⟨[], rfl⟩
  | cold | load | random | isBusOpen | supportsIdentity =>
    obtain ⟨-, rfl⟩ := h
    exact .of_eq ⟨[], rfl⟩ ⟨[], rfl⟩
  | store l w =>
    obtain rfl := h
    split <;> exact .of_eq ⟨[], rfl⟩ ⟨[], rfl⟩
  | ensureBusOpen | closeBus =>
    obtain ⟨bus, -, rfl⟩ := h
    exact .of_eq ⟨[], rfl⟩ ⟨[_], rfl⟩
  | pluginDevicePreferring | unplugDevice =>
    obtain ⟨-, rfl⟩ := h
    exact .of_eq ⟨[], rfl⟩ ⟨[_], rfl⟩

theorem wp_later {α : Type} {p : TProg α} {Q : α → Topo → Prop} (h : (topoMachine B).wp p Q v) :
    (topoMachine B).wp p (fun a v' => Q a v' ∧ Later v v') v := by
  refine Machine.wp_rel (fun _ => .of_eq ⟨[], rfl⟩ ⟨[], rfl⟩) ?_ ?_ h
  · rintro s t u ⟨hst, new, hnew⟩ ⟨htu, new', hnew'⟩
    refine ⟨fun x hx => htu (hst hx), new' ++ new, ?_⟩
    rw [hnew', hnew, append_assoc]
  · exact fun _ _ _ _ hstep => later_step hstep

end Satellite.SessionService
