import Satellite.Topology.Capacity

/-!
# Planning a change

A plan reserves a serial for every pad that needs one and for which one is free,
and promises for each of its pads what committing it may assume. Pads of one plan
have different indices: descriptors are reduced to the last one of each index,
and removals take the other active indices.
-/

namespace Satellite

open List

namespace SessionService

/-! ## The last descriptor of each index -/

/-- The last descriptor given for an index. -/
def lastDescriptor (ds : List ControllerDescriptor) (i : Nat) : Option ControllerDescriptor :=
  ds.reverse.find? fun d => d.ctrlIdx == i

variable {d : ControllerDescriptor} {ds : List ControllerDescriptor}

theorem mem_replaceDescriptor {e : ControllerDescriptor}
    (hnd : (ds.map (·.ctrlIdx)).Nodup) :
    e ∈ replaceDescriptor d ds ↔ e = d ∨ e ∈ ds ∧ e.ctrlIdx ≠ d.ctrlIdx := by
  induction ds with
  | nil => simp [replaceDescriptor]
  | cons a ds ih =>
    rw [map_cons, nodup_cons] at hnd
    by_cases ha : a.ctrlIdx = d.ctrlIdx
    · have hother : ∀ x ∈ ds, x.ctrlIdx ≠ d.ctrlIdx := by
        intro x hx he
        exact hnd.1 (mem_map.2 ⟨x, hx, he.trans ha.symm⟩)
      rw [replaceDescriptor, if_pos ha, mem_cons, mem_cons]
      constructor
      · rintro (h | h)
        · exact .inl h
        · exact .inr ⟨.inr h, hother e h⟩
      · rintro (h | ⟨h | h, hne⟩)
        · exact .inl h
        · rw [h] at hne
          exact absurd ha hne
        · exact .inr h
    · rw [replaceDescriptor, if_neg ha, mem_cons, ih hnd.2, mem_cons]
      constructor
      · rintro (rfl | h | h)
        · exact .inr ⟨.inl rfl, ha⟩
        · exact .inl h
        · exact .inr ⟨.inr h.1, h.2⟩
      · rintro (h | ⟨h | h, hne⟩)
        · exact .inr (.inl h)
        · exact .inl h
        · exact .inr (.inr ⟨h, hne⟩)

theorem nodup_replaceDescriptor
    (hnd : (ds.map (·.ctrlIdx)).Nodup) : ((replaceDescriptor d ds).map (·.ctrlIdx)).Nodup := by
  induction ds with
  | nil => simp [replaceDescriptor]
  | cons a ds ih =>
    have hcons := hnd
    rw [map_cons, nodup_cons] at hnd
    by_cases ha : a.ctrlIdx = d.ctrlIdx
    · rw [replaceDescriptor, if_pos ha, map_cons, ← ha]
      exact hcons
    · rw [replaceDescriptor, if_neg ha, map_cons, nodup_cons]
      refine ⟨fun hmem => ?_, ih hnd.2⟩
      obtain ⟨x, hx, hxa⟩ := mem_map.1 hmem
      rcases (mem_replaceDescriptor hnd.2).1 hx with rfl | ⟨hx, -⟩
      · exact ha hxa.symm
      · exact hnd.1 (mem_map.2 ⟨x, hx, hxa⟩)

/-- The descriptors kept are exactly the last ones of their indices. -/
theorem dedupDescriptors_spec (ds : List ControllerDescriptor) :
    ((dedupDescriptors ds).map (·.ctrlIdx)).Nodup ∧
      ∀ d, d ∈ dedupDescriptors ds ↔ lastDescriptor ds d.ctrlIdx = some d := by
  induction ds using List.reverseRecOn with
  | nil => exact ⟨nodup_nil, fun d => by simp [dedupDescriptors, lastDescriptor]⟩
  | append_singleton ds a ih =>
    have hstep : dedupDescriptors (ds ++ [a]) = replaceDescriptor a (dedupDescriptors ds) := by
      simp [dedupDescriptors, foldl_append]
    rw [hstep]
    refine ⟨nodup_replaceDescriptor ih.1, fun d => ?_⟩
    rw [mem_replaceDescriptor ih.1, ih.2 d]
    have hlast : lastDescriptor (ds ++ [a]) d.ctrlIdx =
        if a.ctrlIdx = d.ctrlIdx then some a else lastDescriptor ds d.ctrlIdx := by
      by_cases ha : a.ctrlIdx = d.ctrlIdx <;> simp [lastDescriptor, ha]
    rw [hlast]
    by_cases ha : a.ctrlIdx = d.ctrlIdx
    · rw [if_pos ha]
      constructor
      · rintro (rfl | ⟨-, hne⟩)
        · rfl
        · exact absurd ha.symm hne
      · intro h
        exact .inl (Option.some.inj h).symm
    · rw [if_neg ha]
      constructor
      · rintro (rfl | ⟨h, -⟩)
        · exact absurd rfl ha
        · exact h
      · intro h
        exact .inr ⟨h, Ne.symm ha⟩

theorem lastDescriptor_idx {i : Nat}
    (h : lastDescriptor ds i = some d) : d.ctrlIdx = i := by
  simpa using find?_some h

/-! ## Planning one pad -/

variable {B : Backend} {v : Topo} {row : Nat} {k : Connection} {carried : Carried}

/-- No serial is free. -/
def Full (v : Topo) : Prop := v.cold.freeSerial = none

/-- A descriptor that a backend offering these identities can serve. -/
def Valid (supported : GamepadIdentity → Bool) (d : ControllerDescriptor) : Prop :=
  d.ctrlIdx < 16 ∧ d.type < controllerTypeCount ∧ supported (controllerIdentity d.type) = true

/-- Only the serials in use differ. -/
structure Reserves (v v' : Topo) : Prop where
  pool : v.PoolOnly v'
  quarantined : v'.cold.serialQuarantined = v.cold.serialQuarantined
  full : Full v → v' = v

theorem Reserves.refl (v : Topo) : Reserves v v := ⟨.refl v, rfl, fun _ => rfl⟩

theorem Reserves.trans {v v' v'' : Topo} (h : Reserves v v') (h' : Reserves v' v'') :
    Reserves v v'' where
  pool := h.pool.trans h'.pool
  quarantined := h'.quarantined.trans h.quarantined
  full hf := by
    have hv := h.full hf
    subst hv
    exact h'.full hf

theorem wp_allocate (h : Holding B v carried) {Q : Nat → Topo → Prop} (hnone : Full v → Q 0 v)
    (hsome : ∀ s v', s ≠ 0 → Holding B v' ((s, .empty) :: carried) → Reserves v v' → Q s v') :
    (topoMachine B).wp allocateSerial Q v := by
  rw [wp_allocateSerial h.locked]
  cases hfree : v.cold.freeSerial with
  | none => exact hnone hfree
  | some s =>
    obtain ⟨hrange, hunused, hquar⟩ := freeSerial_some hfree
    refine hsome s _ (by omega) ⟨h.locked, h.closed, ?_⟩ ⟨rfl, rfl, fun hf => ?_⟩
    · exact h.sound.pool rfl rfl (h.sound.ledger.take hunused hquar hrange)
    · rw [Full, hfree] at hf
      cases hf

/-- What a plan knows of a pad beyond its promise. -/
structure PadPlan (B : Backend) (v v' : Topo) (p : Controller) (d : ControllerDescriptor)
    (pad : PadChange) : Prop where
  desc : pad.desc = d
  planned : pad.Planned p
  plugged : pad.plugged = false
  kind : pad.kind ≠ .remove
  waits : pad.waits = true → pad.kind = .replugInPlace
  unserved : pad.kind = .add → pad.serial = 0 → Full v'
  valid : ∀ supported, B.Cooperates supported → Valid supported d →
    (p.active = true → v.bus = true) →
    pad.kind ≠ .refuse ∧ (pad.kind = .replug → pad.serial ≠ 0)
  invalid : ∀ supported, B.Cooperates supported → ¬ Valid supported d → pad.kind = .refuse

/-- The answer about a type: no when it is unknown, the backend's otherwise. -/
theorem wp_typeSupported {type : Nat} {Q : Bool → Topo → Prop}
    (hQ : ∀ answer, (answer = true → type < controllerTypeCount) →
      (∀ supported, B.Cooperates supported →
        (answer = true ↔ type < controllerTypeCount ∧
          supported (controllerIdentity type) = true)) → Q answer v) :
    (topoMachine B).wp (typeSupported type) Q v := by
  unfold typeSupported
  rw [wp_ite]
  split_ifs with htype
  · refine hQ false nofun fun supported _ => ⟨nofun, fun hvalid => ?_⟩
    exact absurd htype (Nat.not_le.2 hvalid.1)
  · rw [wp_supportsIdentity]
    intro answer hanswer
    have hlt := Nat.lt_of_not_le htype
    refine hQ answer (fun _ => hlt) fun supported hcoop => ?_
    rw [(hcoop.supportsIdentity _ _).1 hanswer]
    exact ⟨fun hs => ⟨hlt, hs⟩, fun hs => hs.2⟩

theorem wp_planPad (h : Holding B v carried) {desc : ControllerDescriptor}
    {Q : PadChange → Topo → Prop}
    (hQ : ∀ v' pad, Holding B v' (pad.carried false ++ carried) → Reserves v v' →
      PadPlan B v v' (k.controllers desc.ctrlIdx) desc pad → Q pad v') :
    (topoMachine B).wp (planPadLocked k desc) Q v := by
  unfold planPadLocked
  rw [maxControllersPerConn, wp_ite]
  split_ifs with hidx
  · refine hQ v _ h (.refl v) ⟨rfl, ⟨rfl, .inl ⟨rfl, hidx⟩⟩, rfl, nofun, nofun, nofun, ?_, ?_⟩
    · intro supported _ hvalid
      exact absurd hvalid.1 (by simpa using hidx)
    · exact fun _ _ _ => rfl
  · have hlt : desc.ctrlIdx < 16 := by omega
    rw [wp_bind']
    refine wp_typeSupported fun answer htype hanswer => ?_
    generalize hp : k.controllers desc.ctrlIdx = p at hQ ⊢
    rw [wp_ite]
    split
    next hno =>
      refine hQ v _ h (.refl v) ⟨rfl, ⟨rfl, .inr ⟨rfl, hlt, fun ha => ?_⟩⟩, rfl, nofun, nofun,
        nofun, ?_, fun _ _ _ => rfl⟩
      · rw [if_pos ha]
      · intro supported hcoop hvalid
        rw [(hanswer supported hcoop).2 hvalid.2] at hno
        cases hno
    next hyes =>
      rw [Bool.not_eq_false] at hyes
      have hty := htype hyes
      have hinvalid : ∀ {P : Prop} supported, B.Cooperates supported → ¬ Valid supported desc → P :=
        fun supported hcoop hnot => absurd ⟨hlt, (hanswer supported hcoop).1 hyes⟩ hnot
      rw [wp_ite]
      split
      next hna =>
        rw [wp_bind']
        refine wp_allocate h (fun hfull => ?_) fun s v' hs h' hres => ?_
        · refine hQ v _ (by simpa [PadChange.carried, plugsInRound] using h) (.refl v)
            ⟨rfl, ⟨⟨hlt, hty, rfl, rfl⟩, hna, by simp, by simp⟩, rfl, by simp, by simp,
             fun _ _ => hfull,
              fun _ _ _ _ => (by simp), hinvalid⟩
        · refine hQ v' _ (by simpa [PadChange.carried, plugsInRound, hs] using h') hres
            ⟨rfl, ⟨⟨hlt, hty, rfl, rfl⟩, hna, by simp, by simp⟩, rfl, by simp, by simp,
              fun _ hs0 => absurd hs0 hs, fun _ _ _ _ => (by simp), hinvalid⟩
      next ha =>
        rw [Bool.not_eq_false] at ha
        rw [wp_ite]
        split_ifs with hid
        · refine hQ v _ h (.refl v)
            ⟨rfl, ⟨rfl, ⟨hlt, hty, rfl, rfl⟩, ha, hid⟩, rfl, by simp, by simp, by simp,
              fun _ _ _ _ => (by simp), hinvalid⟩
        · rw [wp_bind', wp_isBusOpen]
          intro opened hopened
          rw [wp_ite]
          split_ifs with hclosed
          · refine hQ v _ (by simpa [PadChange.carried, plugsInRound] using h) (.refl v)
              ⟨rfl, ⟨rfl, ⟨hlt, hty, rfl, rfl⟩, ha, by simp⟩, rfl, by simp, by simp, by simp,
               ?_, hinvalid⟩
            intro supported hcoop _ hbus
            rw [(hcoop.isBusOpen _ _).1 hopened, hbus ha] at hclosed
            cases hclosed
          · rw [wp_bind']
            refine wp_allocate h (fun hfull => ?_) fun s v' hs h' hres => ?_
            · rw [wp_ite, if_neg (by simp)]
              refine hQ v _ (by simpa [PadChange.carried, plugsInRound] using h) (.refl v)
                ⟨rfl, ⟨rfl, ⟨hlt, hty, rfl, rfl⟩, ha, rfl, rfl, rfl⟩, rfl, by simp, fun _ => rfl,
                  by simp, fun _ _ _ _ => (by simp), hinvalid⟩
            · rw [wp_ite, if_pos hs]
              refine hQ v' _ (by simpa [PadChange.carried, plugsInRound, hs] using h') hres
                ⟨rfl, ⟨rfl, ⟨hlt, hty, rfl, rfl⟩, ha, fun _ => hs⟩, rfl, by simp, by simp, by simp,
                  fun _ _ _ _ => ⟨by simp, fun _ => hs⟩, hinvalid⟩

/-! ## Planning a session -/

/-- What is known of a pad survives later reservations. -/
theorem PadPlan.later {v₁ v₂ : Topo} {p : Controller} {pad : PadChange}
    (h : PadPlan B v v₁ p d pad) (hres : Reserves v₁ v₂) : PadPlan B v v₂ p d pad :=
  { h with
    unserved hk hs := by
      have hfull := h.unserved hk hs
      rw [hres.full hfull]
      exact hfull }

theorem PadPlan.earlier {v₁ v₂ : Topo} {p : Controller} {pad : PadChange}
    (h : PadPlan B v₁ v₂ p d pad) (hres : Reserves v v₁) : PadPlan B v v₂ p d pad := by
  have hbus : v₁.bus = v.bus := by rw [hres.pool]
  refine { h with valid := fun supported hcoop hvalid hopen => ?_ }
  refine h.valid supported hcoop hvalid fun ha => ?_
  rw [hbus]
  exact hopen ha

variable {desired : List ControllerDescriptor}

theorem wp_planPads (h : Holding B v carried)
    {Q : List PadChange → Topo → Prop}
    (hQ : ∀ v' pads, Holding B v' (padsCarried false pads ++ carried) → Reserves v v' →
      pads.map (·.desc) = desired →
      (∀ pad ∈ pads, PadPlan B v v' (k.controllers pad.desc.ctrlIdx) pad.desc pad) → Q pads v') :
    (topoMachine B).wp (Prog.mapEach desired (planPadLocked k)) Q v := by
  induction desired generalizing v carried Q with
  | nil => exact hQ v [] h (.refl v) rfl nofun
  | cons d rest ih =>
    simp only [Prog.mapEach, Machine.wp_bind, Machine.wp_ret]
    refine wp_planPad h fun v₁ pad h₁ hres₁ hpad => ?_
    refine ih h₁ fun v₂ pads h₂ hres₂ hdesc hpads => ?_
    refine hQ v₂ (pad :: pads) ?_ (hres₁.trans hres₂) ?_ ?_
    · exact { h₂ with
        sound := { h₂.sound with ledger := h₂.sound.ledger.perm padsCarried_cons_perm } }
    · rw [map_cons, hdesc, hpad.desc]
    · rw [forall_mem_cons, hpad.desc]
      exact ⟨hpad.later hres₂, fun q hq => (hpads q hq).earlier hres₁⟩

/-- One pad once it is known whether unserved adds may wait. -/
def deferPad (retires : Bool) (pad : PadChange) : PadChange :=
  if pad.kind = .add ∧ pad.serial = 0 then { pad with waits := retires } else pad

theorem deferUnservedAdds_eq (pads : List PadChange) :
    deferUnservedAdds pads = pads.map (deferPad (pads.any PadChange.retires)) := rfl

section Defer

variable (retires : Bool) (pad : PadChange)

@[simp] theorem deferPad_desc : (deferPad retires pad).desc = pad.desc := by
  unfold deferPad
  split <;> rfl

@[simp] theorem deferPad_kind : (deferPad retires pad).kind = pad.kind := by
  unfold deferPad
  split <;> rfl

@[simp] theorem deferPad_serial : (deferPad retires pad).serial = pad.serial := by
  unfold deferPad
  split <;> rfl

@[simp] theorem deferPad_plugged : (deferPad retires pad).plugged = pad.plugged := by
  unfold deferPad
  split <;> rfl

@[simp] theorem deferPad_retires : (deferPad retires pad).retires = pad.retires := by
  simp [PadChange.retires]

theorem deferPad_carried : (deferPad retires pad).carried false = pad.carried false := by
  unfold deferPad
  split_ifs with hadd
  · simp [PadChange.carried, plugsInRound, hadd.2]
  · rfl

theorem deferPad_planned {p : Controller} (h : pad.Planned p) : (deferPad retires pad).Planned p := by
  unfold deferPad
  split_ifs with hadd
  · simp only [PadChange.Planned, hadd.1] at h ⊢
    exact ⟨{ h.1 with }, h.2.1, fun _ => hadd.2, h.2.2.2⟩
  · exact h

end Defer

/-- A plan for the pads of one record. -/
structure Plan (k : Connection) (pads : List PadChange) : Prop where
  planned : ∀ pad ∈ pads, pad.Planned (k.controllers pad.desc.ctrlIdx)
  indices : (pads.map (·.desc.ctrlIdx)).Nodup
  plugged : ∀ pad ∈ pads, pad.plugged = false

/-- Deferring adds keeps a plan and what it carries. -/
theorem Plan.defer {pads : List PadChange} (h : Plan k pads) :
    Plan k (deferUnservedAdds pads) ∧
      padsCarried false (deferUnservedAdds pads) = padsCarried false pads := by
  rw [deferUnservedAdds_eq]
  refine ⟨⟨?_, ?_, ?_⟩, ?_⟩
  · intro q hq
    obtain ⟨pad, hpad, rfl⟩ := mem_map.1 hq
    rw [deferPad_desc]
    exact deferPad_planned _ _ (h.planned pad hpad)
  · rw [map_map]
    simpa [Function.comp_def] using h.indices
  · intro q hq
    obtain ⟨pad, hpad, rfl⟩ := mem_map.1 hq
    rw [deferPad_plugged]
    exact h.plugged pad hpad
  · simp only [padsCarried, flatMap_map, deferPad_carried]

/-- What a plan for a whole session knows beyond its promise: which pads it lists, and how a
backend that cooperates is asked to serve them. -/
structure SessionPlan (B : Backend) (v v' : Topo) (k : Connection)
    (desired : List ControllerDescriptor) (pads : List PadChange) : Prop extends Plan k pads where
  responses : (pads.filter fun pad => pad.kind != .remove).map (·.desc) = desired
  dropped : ∀ i < 16, (k.controllers i).active = true → (∀ d ∈ desired, d.ctrlIdx ≠ i) →
    ∃ pad ∈ pads, pad.kind = .remove ∧ pad.desc.ctrlIdx = i
  removes : ∀ pad ∈ pads, pad.kind = .remove → ∀ d ∈ desired, d.ctrlIdx ≠ pad.desc.ctrlIdx
  unserved : ∀ pad ∈ pads, pad.kind = .add → pad.serial = 0 →
    Full v' ∧ (pad.waits = false → ∀ q ∈ pads, q.retires = false)
  valid : ∀ supported, B.Cooperates supported → ∀ pad ∈ pads, pad.kind ≠ .remove →
    Valid supported pad.desc → ((k.controllers pad.desc.ctrlIdx).active = true → v.bus = true) →
    pad.kind ≠ .refuse ∧ (pad.kind = .replug → pad.serial ≠ 0)
  invalid : ∀ supported, B.Cooperates supported → ∀ pad ∈ pads, pad.kind ≠ .remove →
    ¬ Valid supported pad.desc → pad.kind = .refuse

/-- The removals of a session plan come first and serve the active indices left out. -/
theorem SessionPlan.of_planned {v' : Topo}
    {planned : List PadChange} (hnd : (desired.map (·.ctrlIdx)).Nodup)
    (hdesc : planned.map (·.desc) = desired)
    (hpads : ∀ pad ∈ planned, PadPlan B v v' (k.controllers pad.desc.ctrlIdx) pad.desc pad)
    {dropped : List Nat} (hdrop : dropped = ctrlIndices.filter fun i =>
      (k.controllers i).active && !(desired.any fun d => d.ctrlIdx == i)) :
    SessionPlan B v v' k desired (deferUnservedAdds (dropped.map planRemoval ++ planned)) ∧
      padsCarried false (deferUnservedAdds (dropped.map planRemoval ++ planned)) =
        padsCarried false planned := by
  have hmem : ∀ i, i ∈ dropped ↔ i < 16 ∧ (k.controllers i).active = true ∧
      ∀ d ∈ desired, d.ctrlIdx ≠ i := by
    intro i
    rw [hdrop, mem_filter, mem_ctrlIndices]
    simp
  have hplan : Plan k (dropped.map planRemoval ++ planned) := by
    refine ⟨?_, ?_, ?_⟩
    · intro pad hpad
      rcases mem_append.1 hpad with hpad | hpad
      · obtain ⟨i, hi, rfl⟩ := mem_map.1 hpad
        exact ⟨rfl, ((hmem i).1 hi).1, rfl, ((hmem i).1 hi).2.1⟩
      · exact (hpads pad hpad).planned
    · rw [map_append, map_map]
      refine nodup_append'.2 ⟨?_, ?_, ?_⟩
      · have hid : ((fun pad : PadChange => pad.desc.ctrlIdx) ∘ planRemoval) = id := rfl
        rw [hid, map_id, hdrop]
        exact List.nodup_range.filter _
      · rw [← hdesc, map_map] at hnd
        exact hnd
      · intro i hi hi'
        obtain ⟨j, hj, rfl⟩ := mem_map.1 hi
        obtain ⟨pad, hpad, he⟩ := mem_map.1 hi'
        refine ((hmem j).1 hj).2.2 pad.desc ?_ he
        rw [← hdesc]
        exact mem_map_of_mem hpad
    · intro pad hpad
      rcases mem_append.1 hpad with hpad | hpad
      · obtain ⟨i, -, rfl⟩ := mem_map.1 hpad
        rfl
      · exact (hpads pad hpad).plugged
  obtain ⟨hdefer, hcarried⟩ := hplan.defer
  have hremovals : padsCarried false (dropped.map planRemoval) = [] := by
    rw [padsCarried, flatMap_map]
    exact flatMap_eq_nil_iff.2 fun i _ => rfl
  -- Every deferred pad comes from a removal or from a planned pad.
  have hfrom : ∀ q ∈ deferUnservedAdds (dropped.map planRemoval ++ planned), ∃ pad,
      q = deferPad ((dropped.map planRemoval ++ planned).any PadChange.retires) pad ∧
        ((∃ i ∈ dropped, pad = planRemoval i) ∨ pad ∈ planned) := by
    intro q hq
    rw [deferUnservedAdds_eq] at hq
    obtain ⟨pad, hpad, rfl⟩ := mem_map.1 hq
    refine ⟨pad, rfl, ?_⟩
    rcases mem_append.1 hpad with hpad | hpad
    · obtain ⟨i, hi, rfl⟩ := mem_map.1 hpad
      exact .inl ⟨i, hi, rfl⟩
    · exact .inr hpad
  refine ⟨⟨hdefer, ?_, ?_, ?_, ?_, ?_, ?_⟩, ?_⟩
  · have hfirst : (dropped.map planRemoval).filter (fun pad => pad.kind != .remove) = [] := by
      rw [filter_eq_nil_iff]
      intro pad hpad
      obtain ⟨i, -, rfl⟩ := mem_map.1 hpad
      simp [planRemoval]
    have hsecond : planned.filter (fun pad => pad.kind != .remove) = planned := by
      rw [filter_eq_self]
      intro pad hpad
      simpa using (hpads pad hpad).kind
    rw [deferUnservedAdds_eq, filter_map, map_map]
    have hpred : ((fun pad : PadChange => pad.kind != .remove) ∘
        deferPad ((dropped.map planRemoval ++ planned).any PadChange.retires)) =
        fun pad => pad.kind != .remove := by
      funext pad
      simp
    rw [hpred, filter_append, hfirst, hsecond, nil_append, ← hdesc]
    exact map_congr_left fun pad _ => deferPad_desc _ _
  · intro i hi ha hnot
    have hin : planRemoval i ∈ dropped.map planRemoval ++ planned :=
      mem_append_left _ (mem_map_of_mem ((hmem i).2 ⟨hi, ha, hnot⟩))
    rw [deferUnservedAdds_eq]
    exact ⟨_, mem_map_of_mem hin, by simp [planRemoval], by simp [planRemoval]⟩
  · intro q hq hkind
    obtain ⟨pad, rfl, ⟨i, hi, rfl⟩ | hpad⟩ := hfrom q hq
    · rw [deferPad_desc]
      exact ((hmem i).1 hi).2.2
    · rw [deferPad_kind] at hkind
      exact absurd hkind (hpads pad hpad).kind
  · intro q hq hkind hserial
    obtain ⟨pad, rfl, ⟨i, hi, rfl⟩ | hpad⟩ := hfrom q hq
    · simp [planRemoval] at hkind
    · rw [deferPad_kind] at hkind
      rw [deferPad_serial] at hserial
      refine ⟨(hpads pad hpad).unserved hkind hserial, fun hwaits => ?_⟩
      rw [deferPad, if_pos ⟨hkind, hserial⟩] at hwaits
      intro q' hq'
      obtain ⟨pad', rfl, hpad'⟩ := hfrom q' hq'
      rw [deferPad_retires]
      have hin : pad' ∈ dropped.map planRemoval ++ planned := by
        rcases hpad' with ⟨i, hi, rfl⟩ | hpad'
        · exact mem_append_left _ (mem_map_of_mem hi)
        · exact mem_append_right _ hpad'
      simpa using any_eq_false.1 hwaits pad' hin
  · intro supported hcoop q hq hkind hvalid hbus
    obtain ⟨pad, rfl, ⟨i, hi, rfl⟩ | hpad⟩ := hfrom q hq
    · simp [planRemoval] at hkind
    · rw [deferPad_desc] at hvalid hbus
      rw [deferPad_kind, deferPad_serial]
      exact (hpads pad hpad).valid supported hcoop hvalid hbus
  · intro supported hcoop q hq hkind hvalid
    obtain ⟨pad, rfl, ⟨i, hi, rfl⟩ | hpad⟩ := hfrom q hq
    · simp [planRemoval] at hkind
    · rw [deferPad_desc] at hvalid
      rw [deferPad_kind]
      exact (hpads pad hpad).invalid supported hcoop hvalid
  · rw [hcarried, padsCarried, flatMap_append]
    exact (congrArg (· ++ _) hremovals).trans (nil_append _)

theorem wp_planSession (h : Holding B v carried)
    (hnd : (desired.map (·.ctrlIdx)).Nodup) {Q : TopologyChange → Topo → Prop}
    (hQ : ∀ v' pads, Holding B v' (padsCarried false pads ++ carried) → Reserves v v' →
      SessionPlan B v v' k desired pads → Q { pads := pads } v') :
    (topoMachine B).wp (planSessionPadsLocked k desired) Q v := by
  unfold planSessionPadsLocked
  rw [wp_bind']
  refine wp_planPads h fun v' planned hhold hres hdesc hpads => ?_
  obtain ⟨hplan, hcarried⟩ := SessionPlan.of_planned hnd hdesc hpads rfl
  refine hQ v' _ ?_ hres hplan
  rw [hcarried]
  exact hhold

end SessionService

end Satellite
