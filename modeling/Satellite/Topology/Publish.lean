import Satellite.Topology.Commit

/-!
# Publishing one record

What a publication writes, as a function of the record and of the words before,
and why it restores the invariant: the other slots keep their words, and the
owner table, which all sessions share, keeps every entry that is not the
record's own.
-/

namespace Satellite

open Function Connection List Machine

/-! ## The words of a publication -/

/-- The index at which a record is active with a serial. -/
def Connection.holder (k : Connection) (indices : List Nat) (s : Nat) : Option Nat :=
  indices.reverse.find? fun i => (k.controllers i).active && (k.controllers i).serialNo == s

/-- An owner word after the entries that the record no longer holds were cleared. -/
def Connection.dropOwner (k : Connection) (s owner : Nat) : Nat :=
  if owner = 0 ∨ hotOwnerSlot owner ≠ k.slot then owner
  else if (k.controllers (hotOwnerIndex owner)).active = false ∨
      (k.controllers (hotOwnerIndex owner)).serialNo ≠ s then 0
  else owner

/-- Replace the owner table. -/
def setOwners (mem : Loc → Nat) (f : Nat → Nat) : Loc → Nat
  | .padOwner s => f s
  | l => mem l

/-- Clear the entries of the serials that the record no longer holds. -/
def Connection.dropOwners (k : Connection) (done : List Nat) (mem : Loc → Nat) : Loc → Nat :=
  setOwners mem fun s => if s ∈ done then k.dropOwner s (mem (.padOwner s)) else mem (.padOwner s)

/-- Enter the serials that the controllers at `done` hold. -/
def Connection.takeOwners (k : Connection) (done : List Nat) (mem : Loc → Nat) : Loc → Nat :=
  setOwners mem fun s =>
    if 1 ≤ s ∧ s ≤ 16 then (k.holder done s).elim (mem (.padOwner s)) (hotPadOwner k.slot)
    else mem (.padOwner s)

/-- Publish the controllers at `indices`. -/
def setControllers (k : Connection) (indices : List Nat) (mem : Loc → Nat) : Loc → Nat
  | .ctrl slot i => if slot = k.slot ∧ i ∈ indices then (k.controllers i).ctrlWord
    else mem (.ctrl slot i)
  | .padInfo slot i => if slot = k.slot ∧ i ∈ indices then (k.controllers i).padInfoWord
    else mem (.padInfo slot i)
  | .padGen slot i => if slot = k.slot ∧ i ∈ indices then (k.controllers i).padGenWord
    else mem (.padGen slot i)
  | .padStamp slot i => if slot = k.slot ∧ i ∈ indices then (k.controllers i).padStampWord
    else mem (.padStamp slot i)
  | l => mem l

@[simp] theorem update_setOwners (mem : Loc → Nat) (f : Nat → Nat) (s w : Nat) :
    update (setOwners mem f) (.padOwner s) w = setOwners mem (update f s w) := by
  funext l
  by_cases hl : l = .padOwner s
  · subst hl
    simp [setOwners]
  · rw [update_of_ne hl]
    cases l with
    | padOwner t =>
      have hts : t ≠ s := fun e => hl (by rw [e])
      simp [setOwners, hts]
    | _ => rfl

theorem setOwners_self (mem : Loc → Nat) : setOwners mem (fun s => mem (.padOwner s)) = mem := by
  funext l
  cases l <;> rfl

theorem dropOwners_nil (k : Connection) (mem : Loc → Nat) :
    k.dropOwners [] mem = mem := by
  simp [dropOwners, setOwners_self]

theorem dropOwners_append (k : Connection) (done : List Nat) (s : Nat)
    (mem : Loc → Nat) : k.dropOwners (done ++ [s]) mem =
      update (k.dropOwners done mem) (.padOwner s) (k.dropOwner s (mem (.padOwner s))) := by
  rw [dropOwners, dropOwners, update_setOwners]
  congr 1
  funext t
  by_cases hts : t = s
  · subst hts
    simp
  · simp [hts]

theorem takeOwners_nil (k : Connection) (mem : Loc → Nat) :
    k.takeOwners [] mem = mem := by
  simp [takeOwners, holder, setOwners_self]

theorem takeOwners_append (k : Connection) (done : List Nat) (i : Nat)
    (mem : Loc → Nat) : k.takeOwners (done ++ [i]) mem =
      if (k.controllers i).active = false ∨ (k.controllers i).serialNo = 0 ∨
          (k.controllers i).serialNo > 16 then k.takeOwners done mem
      else update (k.takeOwners done mem) (.padOwner (k.controllers i).serialNo)
        (hotPadOwner k.slot i) := by
  split
  next hskip =>
    unfold takeOwners
    congr 1
    funext t
    by_cases ht : 1 ≤ t ∧ t ≤ 16
    · rw [if_pos ht, if_pos ht]
      have hne : ((k.controllers i).active && (k.controllers i).serialNo == t) = false := by
        rcases hskip with h | h | h
        · simp [h]
        · simp [h, show (0 : Nat) ≠ t by omega]
        · simp [show (k.controllers i).serialNo ≠ t by omega]
      simp [holder, hne]
    · rw [if_neg ht, if_neg ht]
  next htake =>
    simp only [not_or, Bool.not_eq_false] at htake
    rw [takeOwners, takeOwners, update_setOwners]
    congr 1
    funext t
    by_cases hts : t = (k.controllers i).serialNo
    · subst hts
      have hrange : 1 ≤ (k.controllers i).serialNo ∧ (k.controllers i).serialNo ≤ 16 := by omega
      simp [holder, htake.1, hrange]
    · have hne : ((k.controllers i).active && (k.controllers i).serialNo == t) = false := by
        simp [Ne.symm hts]
      simp [holder, hne, hts]

theorem setControllers_nil (k : Connection) (mem : Loc → Nat) : setControllers k [] mem = mem := by
  funext l
  cases l <;> simp [setControllers]

theorem setControllers_append (k : Connection) (done : List Nat) (i : Nat) (mem : Loc → Nat) :
    setControllers k (done ++ [i]) mem =
      update (update (update (update
        (setControllers k done mem) (.ctrl k.slot i) (k.controllers i).ctrlWord)
        (.padInfo k.slot i) (k.controllers i).padInfoWord)
        (.padGen k.slot i) (k.controllers i).padGenWord)
        (.padStamp k.slot i) (k.controllers i).padStampWord := by
  funext l
  cases l with
  | ctrl slot j | padInfo slot j | padGen slot j | padStamp slot j =>
    by_cases hs : slot = k.slot <;> by_cases hj : j = i <;>
      simp [setControllers, update, hs, hj]
  | _ => simp [setControllers, update]

namespace SessionService

variable {B : Backend} {v : Topo} {row : Nat} {k : Connection} {carried : Carried}

/-! ## `publishControllers` -/

section Writing

variable (hl : v.locked = true) (hw : v.writing = some (k.slot, rxParticipants))

include hl hw

variable {Q : Unit → Topo → Prop}

/-- The first loop: entries of the slot that the record no longer holds are cleared. -/
theorem wp_dropOwners
    (hQ : Q () { v with mem := k.dropOwners serials v.mem }) :
    (topoMachine B).wp (Prog.forEach serials fun serial => do
      let owner ← load (.padOwner serial)
      if owner = 0 ∨ hotOwnerSlot owner ≠ k.slot then pure ()
      else
        let ctrl := k.controllers (hotOwnerIndex owner)
        if ctrl.active = false ∨ ctrl.serialNo ≠ serial then store (.padOwner serial) 0
        else pure ()) Q v := by
  refine wp_mono (wp_forEach
    (fun done t => t = { v with mem := k.dropOwners done v.mem }) ?_ ?_) ?_
  · rw [dropOwners_nil]
  · rintro done s rest t hxs rfl
    have hs : s ∉ done := by
      have hnd := serials_nodup
      rw [hxs] at hnd
      exact fun hd => (nodup_append.1 hnd).2.2 s hd s (by simp) rfl
    have hold : k.dropOwners done v.mem (.padOwner s) = v.mem (.padOwner s) := by
      simp [dropOwners, setOwners, hs]
    have hkeep : update (k.dropOwners done v.mem) (.padOwner s) (v.mem (.padOwner s)) =
        k.dropOwners done v.mem := by
      rw [← hold, update_eq_self]
    rw [wp_bind', wp_load_owned rfl, dropOwners_append]
    simp only [hold, dropOwner, wp_ite]
    split
    · rw [wp_pure, hkeep]
    · split
      · exact (wp_store_padOwner (by exact hl) (by exact hw)).2 rfl
      · rw [wp_pure, hkeep]
  · rintro _ t rfl
    exact hQ

/-- The second loop: every serial the record holds is entered. -/
theorem wp_takeOwners
    (hQ : Q () { v with mem := k.takeOwners ctrlIndices v.mem }) :
    (topoMachine B).wp (Prog.forEach ctrlIndices fun i =>
      let ctrl := k.controllers i
      if ctrl.active = false ∨ ctrl.serialNo = 0 ∨ ctrl.serialNo > maxBackendControllers then pure ()
      else store (.padOwner ctrl.serialNo) (hotPadOwner k.slot i)) Q v := by
  refine wp_mono (wp_forEach
    (fun done t => t = { v with mem := k.takeOwners done v.mem }) ?_ ?_) ?_
  · rw [takeOwners_nil]
  · rintro done i rest t - rfl
    rw [takeOwners_append, maxBackendControllers, wp_ite]
    split
    · rfl
    · exact (wp_store_padOwner (by exact hl) (by exact hw)).2 rfl
  · rintro _ t rfl
    exact hQ

/-- The third loop: the words of every controller. -/
theorem wp_storeControllers
    (hQ : Q () { v with mem := setControllers k ctrlIndices v.mem }) :
    (topoMachine B).wp (Prog.forEach ctrlIndices fun i => do
      let ctrl := k.controllers i
      store (.ctrl k.slot i) ctrl.ctrlWord
      store (.padInfo k.slot i) ctrl.padInfoWord
      store (.padGen k.slot i) ctrl.padGenWord
      store (.padStamp k.slot i) ctrl.padStampWord) Q v := by
  refine wp_mono (wp_forEach
    (fun done t => t = { v with mem := setControllers k done v.mem }) ?_ ?_) ?_
  · rw [setControllers_nil]
  · rintro done i rest t - rfl
    rw [setControllers_append]
    simp only [wp_bind']
    refine (wp_store_guarded (by exact hl) (by exact hw) rfl rfl).2 ?_
    refine (wp_store_guarded (by exact hl) (by exact hw) rfl rfl).2 ?_
    refine (wp_store_guarded (by exact hl) (by exact hw) rfl rfl).2 ?_
    exact (wp_store_guarded (by exact hl) (by exact hw) rfl rfl).2 rfl
  · rintro _ t rfl
    exact hQ

end Writing

/-- The words that `publishControllers` leaves. -/
def controllersMem (k : Connection) (mem : Loc → Nat) : Loc → Nat :=
  update (setControllers k ctrlIndices (k.takeOwners ctrlIndices (k.dropOwners serials mem)))
    (.session k.slot) k.sessionWord

variable {Q : Unit → Topo → Prop}

theorem wp_publishControllers (hl : v.locked = true)
    (hw : v.writing = some (k.slot, rxParticipants)) (hk : v.cold.conn? row = some k)
    (hQ : Q () { v with mem := controllersMem k v.mem }) :
    (topoMachine B).wp (publishControllers row) Q v := by
  unfold publishControllers
  rw [wp_bind', wp_conn hl, Cold.conn_eq hk, wp_bind']
  refine wp_dropOwners hl hw ?_
  rw [wp_bind']
  refine wp_takeOwners (by exact hl) (by exact hw) ?_
  rw [wp_bind']
  refine wp_storeControllers (by exact hl) (by exact hw) ?_
  exact (wp_store_guarded (by exact hl) (by exact hw) rfl rfl).2 hQ

/-- The participants are waited for one after the other. -/
theorem wp_waitQuiescent {slot : Nat} (hw : v.writing = some (slot, 0))
    (hQ : Q () { v with writing := some (slot, rxParticipants) }) :
    (topoMachine B).wp waitQuiescent Q v := by
  refine wp_mono (wp_forEach
    (fun done t => t = { v with writing := some (slot, done.length) }) ?_ ?_) ?_
  · rw [length_nil, ← hw]
  · rintro done p rest t hxs rfl
    have hp : p = done.length := by
      have hget := congrArg (fun l => l[done.length]?) hxs
      have hlt : done.length < rxParticipants := by
        have hlen := congrArg List.length hxs
        rw [length_range, length_append, length_cons] at hlen
        omega
      rw [getElem?_range hlt] at hget
      simpa using hget.symm
    subst hp
    rw [length_append]
    exact (wp_waitOut (v := { v with writing := some (slot, done.length) }) rfl).2 rfl
  · rintro _ t rfl
    rw [length_range]
    exact hQ

/-- The words after a publication whose body rewrites the words of the key by `f`. -/
def writtenMem (k : Connection) (f : (Loc → Nat) → Loc → Nat) (mem : Loc → Nat) : Loc → Nat :=
  let opened := update mem (.gen k.slot) ((mem (.gen k.slot) + 1) % 2 ^ 32)
  let words := controllersMem k (f opened)
  update words (.gen k.slot) ((words (.gen k.slot) + 1) % 2 ^ 32)

theorem wp_connectionWrite {body : TProg Unit} {f : (Loc → Nat) → Loc → Nat}
    (hl : v.locked = true) (hw : v.writing = none) (hk : v.cold.conn? row = some k)
    (hs : k.slot < maxSessions)
    (hproj : ({ v with
      mem := controllersMem k (f (update v.mem (.gen k.slot)
        ((v.mem (.gen k.slot) + 1) % 2 ^ 32))) } : Topo).Projects k.slot k)
    (hsee : Held.Consistent
      (({ v with mem := writtenMem k f v.mem } : Topo).seenSlot k.slot ++ v.held))
    (hbody : ∀ w Q', w.locked = true → w.writing = some (k.slot, rxParticipants) →
      w.cold = v.cold → Q' () { w with mem := f w.mem } → (topoMachine B).wp body Q' w)
    (hQ : Q () { v with
      mem := writtenMem k f v.mem
      held := ({ v with mem := writtenMem k f v.mem } : Topo).seenSlot k.slot ++ v.held }) :
    (topoMachine B).wp (connectionWrite row body) Q v := by
  unfold connectionWrite
  simp only [wp_bind', wp_conn hl, Cold.conn_eq hk]
  refine (wp_beginWrite hl hw hs).2 (wp_waitQuiescent rfl ?_)
  refine hbody _ _ hl rfl rfl ?_
  refine wp_publishControllers (by exact hl) rfl (by exact hk) ?_
  refine (wp_endWrite (k := k) (by exact hl) (by rfl) ?_ (by exact hsee)).2 ?_
  · exact { hproj with }
  rw [hw] at hQ
  exact hQ

end SessionService

/-! ## What a publication leaves -/

/-- The words that `publishControllers` on a slot may change. -/
def Loc.publishedBy (slot : Nat) : Loc → Bool
  | .gen i | .ctrl i _ | .padInfo i _ | .padGen i _ | .padStamp i _ | .session i => i == slot
  | .padOwner _ => true
  | _ => false

/-- `mem'` is `mem` with the controllers of the record published. -/
structure Written (k : Connection) (mem mem' : Loc → Nat) : Prop where
  ctrl : ∀ i < 16, mem' (.ctrl k.slot i) = (k.controllers i).ctrlWord
  padInfo : ∀ i < 16, mem' (.padInfo k.slot i) = (k.controllers i).padInfoWord
  padGen : ∀ i < 16, mem' (.padGen k.slot i) = (k.controllers i).padGenWord
  padStamp : ∀ i < 16, mem' (.padStamp k.slot i) = (k.controllers i).padStampWord
  session : mem' (.session k.slot) = k.sessionWord
  held : ∀ i s, k.Active i s → mem' (.padOwner s) = hotPadOwner k.slot i
  vacant : ∀ s ∈ serials, (∀ i, ¬ k.Active i s) → mem' (.padOwner s) =
    if mem (.padOwner s) ≠ 0 ∧ hotOwnerSlot (mem (.padOwner s)) = k.slot then 0
    else mem (.padOwner s)
  gen : mem' (.gen k.slot) % 2 = mem (.gen k.slot) % 2
  frame : ∀ l, l.publishedBy k.slot = false → mem' l = mem l

namespace Connection

variable {k : Connection} {i s : Nat}

theorem holder_of_active (hone : ∀ i j s, k.Active i s → k.Active j s → i = j)
    (ha : k.Active i s) : k.holder ctrlIndices s = some i := by
  have hmem : i ∈ ctrlIndices.reverse := by simpa using ha.1
  cases hf : k.holder ctrlIndices s with
  | none =>
    have hnone := find?_eq_none.1 hf i hmem
    simp [ha.2.1, ha.2.2] at hnone
  | some j =>
    have hj := find?_some hf
    have hjm := mem_of_find?_eq_some hf
    simp only [Bool.and_eq_true, beq_iff_eq] at hj
    simp only [mem_reverse, mem_ctrlIndices] at hjm
    rw [hone j i s ⟨hjm, hj.1, hj.2⟩ ha]

theorem holder_of_vacant (hv : ∀ i, ¬ k.Active i s) : k.holder ctrlIndices s = none := by
  refine find?_eq_none.2 fun i hi => ?_
  simp only [mem_reverse, mem_ctrlIndices] at hi
  simp only [Bool.and_eq_true, beq_iff_eq, not_and]
  exact fun ha hs => hv i ⟨hi, ha, hs⟩

/-- An entry of the slot survives the first loop only where the record holds the serial. -/
theorem dropOwner_of_vacant (hv : ∀ i, ¬ k.Active i s) {owner : Nat}
    (hform : owner = 0 ∨ ∃ slot i, i < 16 ∧ owner = hotPadOwner slot i) :
    k.dropOwner s owner = if owner ≠ 0 ∧ hotOwnerSlot owner = k.slot then 0 else owner := by
  unfold dropOwner
  by_cases hskip : owner = 0 ∨ hotOwnerSlot owner ≠ k.slot
  · have hnot : ¬ (owner ≠ 0 ∧ hotOwnerSlot owner = k.slot) := by
      rcases hskip with h | h
      · exact fun hc => hc.1 h
      · exact fun hc => h hc.2
    rw [if_pos hskip, if_neg hnot]
  · simp only [not_or, Decidable.not_not] at hskip
    have hidx : hotOwnerIndex owner < 16 := by
      rcases hform with h | ⟨slot, i, hi, h⟩
      · exact absurd h hskip.1
      · rw [h, hotOwnerIndex_hotPadOwner (by omega)]
        exact hi
    have hgone : (k.controllers (hotOwnerIndex owner)).active = false ∨
        (k.controllers (hotOwnerIndex owner)).serialNo ≠ s := by
      by_contra hc
      simp only [not_or, Bool.not_eq_false, Decidable.not_not] at hc
      exact hv _ ⟨hidx, hc.1, hc.2⟩
    rw [if_neg (by simpa using hskip), if_pos hgone, if_pos hskip]

end Connection

namespace SessionService

variable {B : Backend} {v : Topo} {row : Nat} {k : Connection} {carried : Carried}

theorem written_writtenMem {f : (Loc → Nat) → Loc → Nat} {mem : Loc → Nat}
    (hf : ∀ w, f (update mem (.gen k.slot) w) = update (f mem) (.gen k.slot) w)
    (hgen : f mem (.gen k.slot) = mem (.gen k.slot))
    (hone : ∀ i j s, k.Active i s → k.Active j s → i = j)
    (hrange : ∀ i s, k.Active i s → 1 ≤ s ∧ s ≤ 16)
    (hform : ∀ s ∈ serials, f mem (.padOwner s) = 0 ∨
      ∃ slot i, i < 16 ∧ f mem (.padOwner s) = hotPadOwner slot i) :
    Written k (f mem) (writtenMem k f mem) := by
  constructor
  iterate 4
    · intro i hi
      simp [writtenMem, controllersMem, setControllers, hi]
  · simp [writtenMem, controllersMem]
  · intro i s ha
    have hs := hrange i s ha
    simp [writtenMem, controllersMem, setControllers, takeOwners, setOwners, hs,
      holder_of_active hone ha]
  · intro s hs hv
    have hs' := mem_serials.1 hs
    simp only [writtenMem, controllersMem, setControllers, takeOwners, setOwners, hs',
      holder_of_vacant hv, dropOwners, hf, ne_eq, reduceCtorEq,
      not_false_eq_true, update_of_ne, and_self, if_true, Option.elim_none, hs]
    rw [dropOwner_of_vacant hv (hform s hs)]
  · simp only [writtenMem, controllersMem, setControllers, takeOwners, setOwners,
      dropOwners, hf, update_self, ne_eq, reduceCtorEq, not_false_eq_true,
      update_of_ne, hgen]
    omega
  · intro l hl
    cases l with
    | padOwner => simp [Loc.publishedBy] at hl
    | gen slot | session slot | ctrl slot i | padInfo slot i | padGen slot i | padStamp slot i =>
      have hne : slot ≠ k.slot := by simpa [Loc.publishedBy] using hl
      simp [writtenMem, controllersMem, setControllers, takeOwners, setOwners,
        dropOwners, hf, hne]
    | _ =>
      simp [writtenMem, controllersMem, setControllers, takeOwners, setOwners,
        dropOwners, hf]

end SessionService

end Satellite
