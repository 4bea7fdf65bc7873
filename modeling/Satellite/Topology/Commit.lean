import Satellite.Topology.Pads

/-!
# Committing a planned change

What a plan promises about each of its pads, what committing one pad makes of its
controller and of the outcome it reports, and the two rounds as loops over the
pads. A pad touches its own index only, so the promises about the other pads and
the outcomes already reported survive each step.
-/

namespace Satellite

open SessionService List Connection PadChange

/-- The controller carries what the descriptor asks for. -/
structure Controller.Takes (p : Controller) (desc : ControllerDescriptor) : Prop where
  active : p.active = true
  type : p.controllerType = desc.type
  identity : p.identity = controllerIdentity desc.type
  caps : p.caps = desc.caps
  touchpadMode : p.touchpadMode = safeTouchpadMode desc.touchpadMode
  preferredBackend : p.preferredBackend = desc.preferredBackend

namespace SessionService.PadChange

/-- The serial a pad carries in a round. -/
def carried (pad : PadChange) (second : Bool) : Carried :=
  if plugsInRound pad second then [(pad.serial, if pad.plugged then .plugged else .empty)] else []

/-- A pad whose descriptor is valid and that has not failed. -/
structure Fits (pad : PadChange) : Prop where
  index : pad.desc.ctrlIdx < 16
  type : pad.desc.type < controllerTypeCount
  appliedType : pad.appliedType = pad.desc.type
  result : pad.result = .ok

/-- What a plan promises about a pad, given the controller at its index. -/
def Planned (pad : PadChange) (p : Controller) : Prop :=
  match pad.kind with
  | .refuse => pad.waits = false ∧
    (pad.result = .invalidIndex ∧ 16 ≤ pad.desc.ctrlIdx ∨
      pad.result = .invalidType ∧ pad.desc.ctrlIdx < 16 ∧
        (p.active = true → pad.appliedType = p.controllerType))
  | .update => pad.waits = false ∧ pad.Fits ∧ p.active = true ∧
    controllerIdentity pad.desc.type = p.identity
  | .remove => pad.waits = false ∧ pad.desc.ctrlIdx < 16 ∧ pad.result = .ok ∧ p.active = true
  | .replug => pad.waits = false ∧ pad.Fits ∧ p.active = true ∧ (pad.plugged = true → pad.serial ≠ 0)
  | .replugInPlace => pad.waits = true ∧ pad.Fits ∧ p.active = true ∧ pad.serial = 0 ∧
    pad.plugged = false ∧ pad.retiring = p.serialNo
  | .add => pad.Fits ∧ p.active = false ∧ (pad.waits = true → pad.serial = 0) ∧
    (pad.plugged = true → pad.serial ≠ 0)

/-- A pad left for the second round: its index is vacant. -/
structure Waiting (pad : PadChange) (p : Controller) : Prop where
  waits : pad.waits = true
  kind : pad.kind = .add ∨ pad.kind = .replugInPlace
  fits : pad.Fits
  vacant : p.active = false
  plugged : pad.plugged = true → pad.serial ≠ 0

/-- The outcome a pad reports agrees with the controller at its index. -/
def Matches (pad : PadChange) (p : Controller) : Prop :=
  match pad.result with
  | .ok => if pad.kind = .remove then p.active = false
    else p.Takes pad.desc ∧ pad.appliedType = pad.desc.type
  | .replugFail => p.active = true ∧ p.controllerType = pad.appliedType
  | .noSlots | .pluginFail | .backendUnavail => p.active = false
  | .invalidType => p.active = true → p.controllerType = pad.appliedType
  | .invalidIndex => 16 ≤ pad.desc.ctrlIdx

/-- The outcome of committing a pad in a round, given the controller at its index. -/
def committed (pad : PadChange) (second : Bool) (p : Controller) : PadChange :=
  match pad.kind with
  | .replug =>
    if pad.plugged then pad
    else { pad with result := .replugFail, appliedType := p.controllerType }
  | .replugInPlace =>
    if second && !pad.plugged then { pad with result := .pluginFail } else pad
  | .add =>
    if (second || !pad.waits) && !pad.plugged then
      { pad with result := if pad.serial = 0 then .noSlots
                           else if pad.busDown then .backendUnavail else .pluginFail }
    else pad
  | _ => pad

@[simp] theorem committed_desc (pad : PadChange) (second : Bool) (p : Controller) :
    (pad.committed second p).desc = pad.desc := by
  unfold committed
  split <;> first | rfl | (split <;> rfl)

@[simp] theorem committed_kind (pad : PadChange) (second : Bool) (p : Controller) :
    (pad.committed second p).kind = pad.kind := by
  unfold committed
  split <;> first | rfl | (split <;> rfl)

@[simp] theorem committed_waits (pad : PadChange) (second : Bool) (p : Controller) :
    (pad.committed second p).waits = pad.waits := by
  unfold committed
  split <;> first | rfl | (split <;> rfl)

end SessionService.PadChange

namespace SessionService

variable {B : Backend} {v : Topo} {row : Nat} {k : Connection} {carried : Carried}

/-- The serials of a list of retired pads, their devices still plugged. -/
def retiring (retired : List RetiredSerial) : Carried := retired.map fun r => (r.serial, .plugged)

/-- The serial a pad was reserved, if it got one. -/
def reserved (pad : PadChange) : Carried :=
  if pad.serial = 0 then [] else [(pad.serial, if pad.plugged then .plugged else .empty)]

variable {pad : PadChange}

/-- A pad that was not plugged gives the serial it was reserved back. -/
theorem wp_releaseReserved (h : Editing B v row k (reserved pad ++ carried))
    (hplug : pad.plugged = false) {Q : Unit → Topo → Prop}
    (hQ : ∀ v', v.Beside v' row → Editing B v' row k carried → Q () v') :
    (topoMachine B).wp (releaseSerial pad.serial) Q v := by
  unfold reserved at h
  by_cases hs : pad.serial = 0
  · rw [if_pos hs] at h
    rw [hs, wp_releaseSerial_zero]
    exact hQ v (.refl v row) h
  · rw [if_neg hs, hplug] at h
    have hrange := h.sound.ledger.range pad.serial
      ((h.sound.ledger.inUse_iff pad.serial).2 (.inr (by simp)))
    rw [wp_releaseSerial h.locked hrange]
    exact hQ _ (.pool rfl rfl rfl) h.release

/-- Binding a pad that was plugged: the controller takes the descriptor. -/
theorem wp_bindReserved (h : Editing B v row k (reserved pad ++ carried))
    (hplug : pad.plugged = true) (hs : pad.serial ≠ 0) (hfits : pad.Fits)
    (ha : (k.controllers pad.desc.ctrlIdx).active = false) {Q : Unit → Topo → Prop}
    (hQ : ∀ v' p' e d, v.Beside v' row →
      Editing B v' row (k.setPad pad.desc.ctrlIdx p' e d) carried → p'.Takes pad.desc → Q () v') :
    (topoMachine B).wp (bindPadLocked row pad) Q v := by
  unfold reserved at h
  rw [if_neg hs, hplug] at h
  refine wp_bindPad h hfits.index hfits.type ha fun v' plugGen stamp hb hed => ?_
  exact hQ v' _ _ _ hb hed ⟨rfl, rfl, rfl, rfl, rfl, rfl⟩

/-- Binding a pad that was plugged, or reporting that it was not. -/
theorem wp_bindOrRelease {fail : ApplyResult}
    (h : Editing B v row k (reserved pad ++ carried))
    (hs : pad.plugged = true → pad.serial ≠ 0) (hfits : pad.Fits)
    (ha : (k.controllers pad.desc.ctrlIdx).active = false) {Q : PadChange → Topo → Prop}
    (hQ : ∀ v' p' e d pad', v.Beside v' row →
      Editing B v' row (k.setPad pad.desc.ctrlIdx p' e d) carried →
      pad' = (if pad.plugged then pad else { pad with result := fail }) →
      (if pad.plugged then p'.Takes pad.desc else p'.active = false) → Q pad' v') :
    (topoMachine B).wp
      (if pad.plugged then do
        bindPadLocked row pad
        pure pad
      else do
        releaseSerial pad.serial
        pure { pad with result := fail }) Q v := by
  cases hplug : pad.plugged with
  | true =>
    simp only [hplug, if_true, wp_bind', wp_pure] at hQ ⊢
    exact wp_bindReserved h hplug (hs hplug) hfits ha fun v' p' e d hb hed htakes =>
      hQ v' p' e d pad hb hed rfl htakes
  | false =>
    simp only [hplug, Bool.false_eq_true, if_false, wp_bind', wp_pure] at hQ ⊢
    refine wp_releaseReserved h hplug fun v' hb hed => ?_
    refine hQ v' (k.controllers pad.desc.ctrlIdx) 0 0 _ hb ?_ rfl ha
    rw [setPad_refl]
    exact hed

variable {retired : List RetiredSerial}

/-- Committing one pad in the first round. -/
theorem wp_commitPad_first
    (h : Editing B v row k (pad.carried false ++ carried))
    (hp : pad.Planned (k.controllers pad.desc.ctrlIdx))
    {Q : PadChange × List RetiredSerial → Topo → Prop}
    (hQ : ∀ v' new p' e d, v.Beside v' row →
      Editing B v' row (k.setPad pad.desc.ctrlIdx p' e d) (retiring new ++ carried) →
      (if pad.waits then (pad.committed false (k.controllers pad.desc.ctrlIdx)).Waiting p' ∧
          (pad.committed false (k.controllers pad.desc.ctrlIdx)).serial = 0
        else (pad.committed false (k.controllers pad.desc.ctrlIdx)).Matches p') →
      (pad.kind = .refuse → p' = k.controllers pad.desc.ctrlIdx) →
      Q (pad.committed false (k.controllers pad.desc.ctrlIdx), retired ++ new) v') :
    (topoMachine B).wp (commitPadLocked row pad retired false) Q v := by
  have hcar : pad.carried false = if plugsInRound pad false then
      [(pad.serial, if pad.plugged then .plugged else .empty)] else [] := rfl
  unfold Planned at hp
  unfold committed at hQ
  unfold commitPadLocked
  cases hkind : pad.kind with
  | refuse =>
    simp only [hkind] at hp hQ ⊢
    obtain ⟨hw, hres⟩ := hp
    have hnone : pad.carried false = [] := by simp [hcar, plugsInRound, hkind]
    rw [hnone] at h
    have hq := hQ v [] (k.controllers pad.desc.ctrlIdx) 0 0 (.refl v row)
      (by rw [setPad_refl]; exact h)
    rw [append_nil] at hq
    refine hq ?_ fun _ => rfl
    rw [if_neg (by simp [hw])]
    rcases hres with ⟨hr, hidx⟩ | ⟨hr, -, hty⟩
    · simpa [Matches, hr] using hidx
    · simpa [Matches, hr] using fun ha => (hty ha).symm
  | update =>
    simp only [hkind] at hp hQ ⊢
    obtain ⟨hw, hfits, ha, hid⟩ := hp
    have hnone : pad.carried false = [] := by simp [hcar, plugsInRound, hkind]
    rw [hnone] at h
    rw [wp_bind']
    refine wp_updatePad h ⟨hfits.index, ha, rfl⟩ hfits.type hid fun v' stamp hb hed => ?_
    have hq := hQ v' [] _ _ _ hb hed
    rw [append_nil] at hq
    refine hq ?_ nofun
    rw [if_neg (by simp [hw])]
    have htakes : ((k.controllers pad.desc.ctrlIdx).updated pad.desc stamp).Takes pad.desc :=
      ⟨ha, rfl, hid.symm, rfl, rfl, rfl⟩
    simpa [Matches, hfits.result, hkind, hfits.appliedType] using htakes
  | remove =>
    simp only [hkind] at hp hQ ⊢
    obtain ⟨hw, hi, hres, ha⟩ := hp
    have hnone : pad.carried false = [] := by simp [hcar, plugsInRound, hkind]
    rw [hnone] at h
    rw [wp_bind']
    refine wp_vacatePad h ⟨hi, ha, rfl⟩ fun v' stamp hb hed => ?_
    refine hQ v' [_] _ _ _ hb hed ?_ nofun
    rw [if_neg (by simp [hw])]
    simp [Matches, hres, hkind, Controller.vacated]
  | replug =>
    simp only [hkind] at hp hQ ⊢
    obtain ⟨hw, hfits, ha, hs⟩ := hp
    cases hplug : pad.plugged with
    | true =>
      have hsome : pad.carried false = [(pad.serial, .plugged)] := by
        simp [hcar, plugsInRound, hkind, hw, hs hplug, hplug]
      rw [hsome] at h
      refine wp_replugPad_plugged h hplug ⟨hfits.index, ha, rfl⟩ hfits.type
        fun v' plugGen stamp hb hed => ?_
      have hq := hQ v' [{ serial := (k.controllers pad.desc.ctrlIdx).serialNo }] _ _ _ hb hed
      simp only [hplug, if_true] at hq
      refine hq ?_ nofun
      rw [if_neg (by simp [hw])]
      have htakes : ((k.controllers pad.desc.ctrlIdx).replugged pad.serial pad.desc plugGen
          stamp).Takes pad.desc := ⟨ha, rfl, rfl, rfl, rfl, rfl⟩
      simpa [Matches, hfits.result, hkind, hfits.appliedType] using htakes
    | false =>
      have hsome : pad.serial = 0 ∧ pad.carried false = [] ∨
          pad.serial ≠ 0 ∧ pad.carried false = [(pad.serial, .empty)] := by
        by_cases hs0 : pad.serial = 0
        · exact .inl ⟨hs0, by simp [hcar, plugsInRound, hs0]⟩
        · exact .inr ⟨hs0, by simp [hcar, plugsInRound, hkind, hw, hs0, hplug]⟩
      refine wp_replugPad_failed h hplug hsome hfits.index fun v' hb hed => ?_
      have hq := hQ v' [] _ _ _ hb hed
      simp only [hplug, Bool.false_eq_true, if_false, append_nil] at hq
      simp only [hkind, hplug]
      refine hq ?_ nofun
      rw [if_neg (by simp [hw])]
      exact ⟨ha, rfl⟩
  | replugInPlace =>
    simp only [hkind] at hp hQ ⊢
    obtain ⟨hw, hfits, ha, hs, hplug, -⟩ := hp
    have hnone : pad.carried false = [] := by simp [hcar, plugsInRound, hkind, hs]
    rw [hnone] at h
    simp only [Bool.false_eq_true, if_false, wp_bind']
    refine wp_vacatePad h ⟨hfits.index, ha, rfl⟩ fun v' stamp hb hed => ?_
    have hq := hQ v' [{ serial := (k.controllers pad.desc.ctrlIdx).serialNo }] _ _ _ hb hed
    simp only [Bool.false_and, Bool.false_eq_true, if_false] at hq
    refine hq ?_ nofun
    rw [if_pos hw]
    exact ⟨⟨hw, .inr hkind, hfits, rfl, by simp [hplug]⟩, hs⟩
  | add =>
    simp only [hkind] at hp hQ ⊢
    obtain ⟨hfits, ha, hwait, hs⟩ := hp
    cases hw : pad.waits with
    | true =>
      have hnone : pad.carried false = [] := by simp [hcar, plugsInRound, hw]
      rw [hnone] at h
      simp only [hw, Bool.not_true, Bool.or_self, Bool.false_and, Bool.false_eq_true,
        if_false, if_true, wp_pure] at hQ ⊢
      have hq := hQ v [] (k.controllers pad.desc.ctrlIdx) 0 0 (.refl v row)
        (by rw [setPad_refl]; exact h)
      rw [append_nil] at hq
      exact hq ⟨⟨hw, .inl hkind, hfits, ha, hs⟩, hwait hw⟩ nofun
    | false =>
      have hres : pad.carried false = reserved pad := by
        by_cases hs0 : pad.serial = 0
        · simp [hcar, plugsInRound, reserved, hs0]
        · simp [hcar, plugsInRound, reserved, hs0, hw, hkind]
      rw [hres] at h
      simp only [hw, Bool.not_false, Bool.or_true, Bool.true_and, Bool.false_eq_true, if_true,
        if_false, wp_bind', wp_pure] at hQ ⊢
      refine wp_bindOrRelease h hs hfits ha fun v' p' e d pad' hb hed hpad' hp' => ?_
      have hq := hQ v' [] p' e d hb hed
      rw [append_nil] at hq
      subst hpad'
      cases hplug : pad.plugged with
      | true =>
        simp only [hplug, Bool.not_true, Bool.false_eq_true, if_false, if_true] at hq hp' ⊢
        refine hq ?_ nofun
        simpa [Matches, hfits.result, hkind, hfits.appliedType] using hp'
      | false =>
        simp only [hplug, hkind, hw, Bool.not_false, Bool.false_eq_true, if_false, if_true]
          at hq hp' ⊢
        refine hq ?_ nofun
        unfold Matches
        by_cases hs0 : pad.serial = 0 <;> by_cases hd : pad.busDown = true <;> simp [hs0, hd, hp']

/-- Committing a pad that waited for the second round. -/
theorem wp_commitPad_second
    (h : Editing B v row k (pad.carried true ++ carried))
    (hp : pad.Waiting (k.controllers pad.desc.ctrlIdx))
    {Q : PadChange × List RetiredSerial → Topo → Prop}
    (hQ : ∀ v' p' e d, v.Beside v' row →
      Editing B v' row (k.setPad pad.desc.ctrlIdx p' e d) carried →
      (pad.committed true (k.controllers pad.desc.ctrlIdx)).Matches p' →
      Q (pad.committed true (k.controllers pad.desc.ctrlIdx), retired) v') :
    (topoMachine B).wp (commitPadLocked row pad retired true) Q v := by
  obtain ⟨hw, hkind, hfits, ha, hs⟩ := hp
  have hres : pad.carried true = reserved pad := by
    rcases hkind with hkind | hkind <;> by_cases hs0 : pad.serial = 0 <;>
      simp [PadChange.carried, plugsInRound, reserved, hs0, hw, hkind]
  rw [hres] at h
  -- Both kinds bind the pad or give its serial back; only the failure they report differs.
  have hend : ∀ fail v' p' e d pad', v.Beside v' row →
      Editing B v' row (k.setPad pad.desc.ctrlIdx p' e d) carried →
      pad' = (if pad.plugged then pad else { pad with result := fail }) →
      (if pad.plugged then p'.Takes pad.desc else p'.active = false) →
      (fail = .noSlots ∨ fail = .pluginFail ∨ fail = .backendUnavail) →
      pad' = pad.committed true (k.controllers pad.desc.ctrlIdx) → Q (pad', retired) v' := by
    intro fail v' p' e d pad' hb hed hpad' hp' hfail hcom
    rw [hcom]
    refine hQ v' p' e d hb hed ?_
    rw [← hcom, hpad']
    cases hplug : pad.plugged with
    | true =>
      simp only [hplug, if_true] at hp' ⊢
      rcases hkind with hkind | hkind <;>
        simpa [Matches, hfits.result, hkind, hfits.appliedType] using hp'
    | false =>
      simp only [hplug, Bool.false_eq_true, if_false] at hp' ⊢
      rcases hfail with rfl | rfl | rfl <;> exact hp'
  rcases hkind with hkind | hkind
  · simp only [commitPadLocked, hkind, Bool.true_or, if_true, wp_bind', wp_pure]
    refine wp_bindOrRelease h hs hfits ha fun v' p' e d pad' hb hed hpad' hp' =>
      hend _ v' p' e d pad' hb hed hpad' hp' ?_ ?_
    · by_cases hs0 : pad.serial = 0 <;> by_cases hd : pad.busDown = true <;> simp [hs0, hd]
    · rw [hpad']
      cases hplug : pad.plugged <;> simp [committed, hkind, hplug]
  · simp only [commitPadLocked, hkind, if_true, wp_bind', wp_pure]
    refine wp_bindOrRelease h hs hfits ha fun v' p' e d pad' hb hed hpad' hp' =>
      hend _ v' p' e d pad' hb hed hpad' hp' (.inr (.inl rfl)) ?_
    rw [hpad']
    cases hplug : pad.plugged <;> simp [committed, hkind, hplug]

/-! ## The rounds -/

/-- The outcome of committing a pad in a round that may skip it. -/
def roundOutcome (second : Bool) (pad : PadChange) (p : Controller) : PadChange :=
  if second && !pad.waits then pad else pad.committed second p

@[simp] theorem roundOutcome_desc (second : Bool) (pad : PadChange) (p : Controller) :
    (roundOutcome second pad p).desc = pad.desc := by
  unfold roundOutcome
  split <;> simp

/-- What a round may assume about a pad. -/
def RoundPre (second : Bool) (pad : PadChange) (p : Controller) : Prop :=
  if second then (if pad.waits then pad.Waiting p else pad.Matches p) else pad.Planned p

/-- What a round achieves for a pad. -/
def RoundPost (second : Bool) (pad : PadChange) (p : Controller) : Prop :=
  if !second && pad.waits then pad.Waiting p ∧ pad.serial = 0 else pad.Matches p

variable {Q : List PadChange × List RetiredSerial → Topo → Prop} {second : Bool}

/-- One pad of a round, as the loop of `commitPadsLocked` treats it. -/
theorem wp_commitPad
    (h : Editing B v row k (pad.carried second ++ carried))
    (hp : RoundPre second pad (k.controllers pad.desc.ctrlIdx)) {out : List PadChange}
    (hQ : ∀ v' new p' e d, v.Beside v' row →
      Editing B v' row (k.setPad pad.desc.ctrlIdx p' e d) (retiring new ++ carried) →
      RoundPost second (roundOutcome second pad (k.controllers pad.desc.ctrlIdx)) p' →
      (pad.kind = .refuse → p' = k.controllers pad.desc.ctrlIdx) → (second = true → new = []) →
      Q (out ++ [roundOutcome second pad (k.controllers pad.desc.ctrlIdx)], retired ++ new) v') :
    (topoMachine B).wp
      (if second && !pad.waits then pure (out ++ [pad], retired)
      else do
        let (pad, retired) ← commitPadLocked row pad retired second
        pure (out ++ [pad], retired)) Q v := by
  cases second with
  | false =>
    simp only [roundOutcome, RoundPre, RoundPost, Bool.false_and, Bool.not_false, Bool.true_and,
      Bool.false_eq_true, if_false, committed_waits, wp_bind', wp_pure] at hp hQ ⊢
    exact wp_commitPad_first h hp fun v' new p' e d hb hed hpost hsame =>
      hQ v' new p' e d hb hed hpost hsame nofun
  | true =>
    simp only [roundOutcome, RoundPre, RoundPost, Bool.true_and, Bool.not_true, Bool.false_and,
      if_true, Bool.false_eq_true, if_false] at hp hQ ⊢
    cases hw : pad.waits with
    | true =>
      simp only [hw, Bool.not_true, Bool.false_eq_true, if_false, if_true, wp_bind', wp_pure]
        at hp hQ ⊢
      refine wp_commitPad_second h hp fun v' p' e d hb hed hpost => ?_
      have hq := hQ v' [] p' e d hb hed hpost (fun hkind => ?_) fun _ => rfl
      · simpa using hq
      · rcases hp.kind with h' | h' <;> simp [h'] at hkind
    | false =>
      simp only [hw, Bool.not_false, Bool.false_eq_true, if_true, if_false, wp_pure] at hp hQ ⊢
      have hnone : pad.carried true = [] := by simp [PadChange.carried, plugsInRound, hw]
      rw [hnone] at h
      have hq := hQ v [] (k.controllers pad.desc.ctrlIdx) 0 0 (.refl v row)
        (by rw [setPad_refl]; exact h) hp (fun _ => rfl) fun _ => rfl
      simpa using hq

/-- The serials a list of pads carries in a round. -/
def padsCarried (second : Bool) (pads : List PadChange) : Carried :=
  pads.flatMap (PadChange.carried · second)

variable {pads : List PadChange}

theorem padsCarried_cons_perm {pad : PadChange} :
    (padsCarried second pads ++ (pad.carried second ++ carried)).Perm
      (padsCarried second (pad :: pads) ++ carried) := by
  rw [padsCarried, padsCarried, flatMap_cons, append_assoc]
  exact perm_append_comm_assoc ..

/-- What a round makes of its pads and of the record. -/
structure Committed (second : Bool) (pads : List PadChange) (k k' : Connection) : Prop where
  same : k.SameSession k'
  post : ∀ pad ∈ pads, RoundPost second (roundOutcome second pad (k.controllers pad.desc.ctrlIdx))
    (k'.controllers pad.desc.ctrlIdx)
  refuse : ∀ pad ∈ pads, pad.kind = .refuse →
    k'.controllers pad.desc.ctrlIdx = k.controllers pad.desc.ctrlIdx
  others : ∀ i, i ∉ pads.map (·.desc.ctrlIdx) → k'.controllers i = k.controllers i

theorem Committed.nil (second : Bool) (k : Connection) : Committed second [] k k where
  same := .refl k
  post := nofun
  refuse := nofun
  others _ _ := rfl

/-- One pad committed, then the rest: the pads touch different controllers. -/
theorem Committed.cons {k' : Connection}
    {p' : Controller} {e : Nat} {d : Int} (hidx : pad.desc.ctrlIdx ∉ pads.map (·.desc.ctrlIdx))
    (hpost : RoundPost second (roundOutcome second pad (k.controllers pad.desc.ctrlIdx)) p')
    (hrefuse : pad.kind = .refuse → p' = k.controllers pad.desc.ctrlIdx)
    (h : Committed second pads (k.setPad pad.desc.ctrlIdx p' e d) k') :
    Committed second (pad :: pads) k k' := by
  have hne : ∀ q ∈ pads, q.desc.ctrlIdx ≠ pad.desc.ctrlIdx := by
    intro q hq he
    exact hidx (mem_map.2 ⟨q, hq, he⟩)
  have hpad : k'.controllers pad.desc.ctrlIdx = p' := by
    rw [h.others _ hidx, setPad_controllers_self]
  constructor
  · exact (sameSession_setPad ..).trans h.same
  · intro q hq
    rcases mem_cons.1 hq with rfl | hq
    · rw [hpad]
      exact hpost
    · have := h.post q hq
      rwa [setPad_controllers_ne k (hne q hq)] at this
  · intro q hq hkind
    rcases mem_cons.1 hq with rfl | hq
    · rw [hpad]
      exact hrefuse hkind
    · rw [h.refuse q hq hkind, setPad_controllers_ne k (hne q hq)]
  · intro i hi
    simp only [map_cons, mem_cons, not_or] at hi
    rw [h.others i hi.2, setPad_controllers_ne k hi.1]

/-- The loop of a round over its pads. -/
theorem wp_commitLoop
    (h : Editing B v row k (padsCarried second pads ++ carried))
    (hp : ∀ pad ∈ pads, RoundPre second pad (k.controllers pad.desc.ctrlIdx))
    (hidx : (pads.map (·.desc.ctrlIdx)).Nodup) {out : List PadChange}
    (hQ : ∀ v' k' new, v.Beside v' row → Editing B v' row k' (retiring new ++ carried) →
      Committed second pads k k' → (second = true → new = []) →
      Q (out ++ pads.map (fun pad => roundOutcome second pad (k.controllers pad.desc.ctrlIdx)),
        retired ++ new) v') :
    (topoMachine B).wp
      (Prog.foldEach pads (out, retired) fun (out, retired) pad =>
        if second && !pad.waits then pure (out ++ [pad], retired)
        else do
          let (pad, retired) ← commitPadLocked row pad retired second
          pure (out ++ [pad], retired)) Q v := by
  induction pads generalizing v k carried out retired with
  | nil =>
    have hq := hQ v k [] (.refl v row) h (.nil second k) fun _ => rfl
    simpa [Prog.foldEach] using hq
  | cons pad pads ih =>
    rw [map_cons, nodup_cons] at hidx
    simp only [Prog.foldEach, Machine.wp_bind]
    have hcar : Editing B v row k (pad.carried second ++ (padsCarried second pads ++ carried)) := by
      simpa [padsCarried] using h
    refine wp_commitPad hcar (hp pad (by simp)) fun v₁ new p' e d hb₁ hed₁ hpost hrefuse hnew => ?_
    have hed₁' : Editing B v₁ row (k.setPad pad.desc.ctrlIdx p' e d)
        (padsCarried second pads ++ (retiring new ++ carried)) :=
      hed₁.perm (perm_append_comm_assoc ..)
    have hother : ∀ q ∈ pads, (k.setPad pad.desc.ctrlIdx p' e d).controllers q.desc.ctrlIdx =
        k.controllers q.desc.ctrlIdx := by
      intro q hq
      refine setPad_controllers_ne k (fun he => hidx.1 ?_) _ _ _
      exact mem_map.2 ⟨q, hq, he⟩
    refine ih hed₁' (fun q hq => ?_) hidx.2 fun v₂ k' new' hb₂ hed₂ hcom hnew' => ?_
    · rw [hother q hq]
      exact hp q (mem_cons_of_mem _ hq)
    · have hcar₂ : Editing B v₂ row k' (retiring (new ++ new') ++ carried) :=
        hed₂.perm (by
          simp only [retiring, map_append, append_assoc]
          exact perm_append_comm_assoc ..)
      have hout : pads.map (fun q => roundOutcome second q
            ((k.setPad pad.desc.ctrlIdx p' e d).controllers q.desc.ctrlIdx)) =
          pads.map fun q => roundOutcome second q (k.controllers q.desc.ctrlIdx) :=
        map_congr_left fun q hq => by rw [hother q hq]
      have hq := hQ v₂ k' (new ++ new') (hb₁.trans hb₂) hcar₂ (hcom.cons hidx.1 hpost hrefuse)
        fun hsecond => by rw [hnew hsecond, hnew' hsecond, append_nil]
      rw [hout]
      simpa using hq

/-- A round: the quarantine is lifted if the bus was reopened, then every pad is committed. -/
theorem wp_commitPads {change : TopologyChange}
    (h : Editing B v row k (padsCarried second change.pads ++ carried))
    (hp : ∀ pad ∈ change.pads, RoundPre second pad (k.controllers pad.desc.ctrlIdx))
    (hidx : (change.pads.map (·.desc.ctrlIdx)).Nodup)
    (hlift : change.busReopened = true → B.Steady → ∀ s, unconfirmed v.calls s = false)
    {Q : TopologyChange → Topo → Prop}
    (hQ : ∀ v' k' new,
      (if change.busReopened then { v with cold := v.cold.clearQuarantine } else v).Beside v' row →
      Editing B v' row k' (retiring new ++ carried) → Committed second change.pads k k' →
      (second = true → new = []) →
      Q { pads := change.pads.map fun pad =>
            roundOutcome second pad (k.controllers pad.desc.ctrlIdx)
          retired := change.retired ++ new, busReopened := false } v') :
    (topoMachine B).wp (commitPadsLocked row change second) Q v := by
  have hloop : ∀ w, (∀ v' k' new, w.Beside v' row → Editing B v' row k' (retiring new ++ carried) →
      Committed second change.pads k k' → (second = true → new = []) →
      Q { pads := change.pads.map fun pad =>
            roundOutcome second pad (k.controllers pad.desc.ctrlIdx)
          retired := change.retired ++ new, busReopened := false } v') →
      Editing B w row k (padsCarried second change.pads ++ carried) →
      (topoMachine B).wp (do
        let (pads, retired) ← Prog.foldEach change.pads ([], change.retired)
          fun (pads, retired) pad =>
            if second && !pad.waits then pure (pads ++ [pad], retired)
            else do
              let (pad, retired) ← commitPadLocked row pad retired second
              pure (pads ++ [pad], retired)
        pure { pads := pads, retired := retired, busReopened := false }) Q w := by
    intro w hQw hw
    rw [wp_bind']
    refine wp_commitLoop hw hp hidx fun v' k' new hb hed hcom hnew => ?_
    simpa using hQw v' k' new hb hed hcom hnew
  unfold commitPadsLocked
  cases hre : change.busReopened with
  | false =>
    simp only [hre, Bool.false_eq_true, if_false] at hQ ⊢
    exact hloop v hQ h
  | true =>
    simp only [hre, if_true] at hQ ⊢
    rw [wp_bind', wp_modify h.locked]
    refine hloop _ hQ { h with sound := ?_ }
    exact h.sound.pool rfl rfl (h.sound.ledger.lift (hlift hre))

end SessionService

end Satellite
