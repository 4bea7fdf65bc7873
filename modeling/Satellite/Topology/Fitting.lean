import Satellite.Topology.Adoption

/-!
# Whether the pads of a PUT fit

With a backend that cooperates, a pad of a valid descriptor can only fail for want
of a serial. The pads a session asks for are counted here by controller index: the
indices whose last descriptor is valid, and the active ones whose last descriptor
is not. If these fit beside the other sessions' pads and the quarantined serials,
each round finds a serial for every pad it has to plug.
-/

namespace Satellite

open List

namespace SessionService

/-! ## What is asked for, by index -/

section Asking

variable (supported : GamepadIdentity → Bool) (ds : List ControllerDescriptor)

instance (d : ControllerDescriptor) : Decidable (Valid supported d) :=
  inferInstanceAs (Decidable (_ ∧ _ ∧ _))

/-- The last descriptor of the index is valid. -/
def wanted (i : Nat) : Bool := (lastDescriptor ds i).any fun d => decide (Valid supported d)

/-- The index is active and its last descriptor is not valid. -/
def kept (k : Connection) (i : Nat) : Bool :=
  (k.controllers i).active && (lastDescriptor ds i).any fun d => !decide (Valid supported d)

/-- The pads of a change against the descriptors of its request. -/
structure Asked (k : Connection) (pads : List PadChange) : Prop where
  planned : ∀ pad ∈ pads, pad.Planned (k.controllers pad.desc.ctrlIdx)
  indices : (pads.map (·.desc.ctrlIdx)).Nodup
  descriptor : ∀ pad ∈ pads, pad.kind ≠ .remove →
    lastDescriptor ds pad.desc.ctrlIdx = some pad.desc
  removes : ∀ pad ∈ pads, pad.kind = .remove → lastDescriptor ds pad.desc.ctrlIdx = none
  listed : ∀ i d, lastDescriptor ds i = some d → ∃ pad ∈ pads, pad.kind ≠ .remove ∧ pad.desc = d
  dropped : ∀ i < 16, (k.controllers i).active = true → lastDescriptor ds i = none →
    ∃ pad ∈ pads, pad.kind = .remove ∧ pad.desc.ctrlIdx = i
  valid : ∀ pad ∈ pads, pad.kind ≠ .remove → (Valid supported pad.desc ↔ pad.kind ≠ .refuse)
  swap : ∀ pad ∈ pads, pad.kind = .replug → pad.serial ≠ 0

end Asking

variable {B : Backend} {v v' : Topo} {k k' : Connection} {carried : Carried}
  {supported : GamepadIdentity → Bool} {ds : List ControllerDescriptor} {pads pads' : List PadChange}

/-- A plan of a session, made while the bus of a cooperating backend was open for its pads. -/
theorem SessionPlan.asked (hB : B.Cooperates supported)
    (h : SessionPlan B v v' k (dedupDescriptors ds) pads)
    (hbus : ∀ i < 16, (k.controllers i).active = true → v.bus = true) :
    Asked supported ds k pads := by
  have hspec := (dedupDescriptors_spec ds).2
  have hdesc : ∀ pad ∈ pads, pad.kind ≠ .remove →
      lastDescriptor ds pad.desc.ctrlIdx = some pad.desc := by
    intro pad hpad hkind
    rw [← hspec, ← h.responses]
    exact mem_map.2 ⟨pad, mem_filter.2 ⟨hpad, by simp [hkind]⟩, rfl⟩
  have hnone : ∀ i, (∀ d ∈ dedupDescriptors ds, d.ctrlIdx ≠ i) ↔ lastDescriptor ds i = none := by
    intro i
    constructor
    · intro hall
      cases hlast : lastDescriptor ds i with
      | none => rfl
      | some d =>
        have hidx := lastDescriptor_idx hlast
        exact absurd hidx (hall d ((hspec d).2 (hidx ▸ hlast)))
    · intro hlast d hd hidx
      rw [hspec, hidx, hlast] at hd
      cases hd
  refine ⟨h.planned, h.indices, hdesc, ?_, ?_, ?_, ?_, ?_⟩
  · intro pad hpad hkind
    exact (hnone _).1 (h.removes pad hpad hkind)
  · intro i d hlast
    have hd : d ∈ dedupDescriptors ds := (hspec d).2 (lastDescriptor_idx hlast ▸ hlast)
    rw [← h.responses] at hd
    obtain ⟨pad, hpad, rfl⟩ := mem_map.1 hd
    obtain ⟨hpad, hkind⟩ := mem_filter.1 hpad
    exact ⟨pad, hpad, by simpa using hkind, rfl⟩
  · intro i hi ha hlast
    exact h.dropped i hi ha ((hnone i).2 hlast)
  · intro pad hpad hkind
    constructor
    · intro hv
      exact (h.valid supported hB pad hpad hkind hv (hbus _ hv.1)).1
    · intro hrefuse
      by_contra hv
      exact hrefuse (h.invalid supported hB pad hpad hkind hv)
  · intro pad hpad hkind
    have hremove : pad.kind ≠ .remove := by simp [hkind]
    have hv : Valid supported pad.desc := by
      by_contra hv
      have hrefuse := h.invalid supported hB pad hpad hremove hv
      rw [hkind] at hrefuse
      cases hrefuse
    exact (h.valid supported hB pad hpad hremove hv (hbus _ hv.1)).2 hkind

namespace Asked

/-- The calls of the first round do not change what was asked for. -/
theorem plugs (h : Asked supported ds k pads) (hall : List.Forall₂ (Plugs false) pads pads') :
    Asked supported ds k pads' := by
  have hmem : ∀ pad' ∈ pads', ∃ pad ∈ pads, Plugs false pad pad' ∧ pad'.desc = pad.desc ∧
      pad'.kind = pad.kind ∧ pad'.serial = pad.serial := by
    intro pad' hpad'
    obtain ⟨pad, hpad, hplugs⟩ := mem_of_forall₂ hall hpad'
    exact ⟨pad, hpad, hplugs, by rw [hplugs.eq], by rw [hplugs.eq], by rw [hplugs.eq]⟩
  have hkeep : pads'.map (fun pad => (pad.desc, pad.kind)) =
      pads.map fun pad => (pad.desc, pad.kind) :=
    map_eq_of_forall₂ (fun _ _ hplugs => by rw [hplugs.eq]) hall
  -- An entry of the plan with some descriptor and kind has its counterpart after the calls.
  have hback : ∀ pad ∈ pads, ∃ pad' ∈ pads', pad'.desc = pad.desc ∧ pad'.kind = pad.kind := by
    intro pad hpad
    obtain ⟨pad', hpad', heq⟩ := mem_map.1 (hkeep ▸ mem_map.2 ⟨pad, hpad, rfl⟩)
    exact ⟨pad', hpad', (Prod.mk.inj heq).1, (Prod.mk.inj heq).2⟩
  refine ⟨?_, ?_, ?_, ?_, ?_, ?_, ?_, ?_⟩
  · intro pad' hpad'
    obtain ⟨pad, hpad, hplugs, hd, -, -⟩ := hmem pad' hpad'
    rw [hd]
    exact hplugs.planned (h.planned pad hpad)
  · have hidx := congrArg (List.map fun p : ControllerDescriptor × PadKind => p.1.ctrlIdx) hkeep
    simp only [map_map, Function.comp_def] at hidx
    rw [hidx]
    exact h.indices
  · intro pad' hpad' hkind
    obtain ⟨pad, hpad, -, hd, hk, -⟩ := hmem pad' hpad'
    rw [hd]
    exact h.descriptor pad hpad (hk ▸ hkind)
  · intro pad' hpad' hkind
    obtain ⟨pad, hpad, -, hd, hk, -⟩ := hmem pad' hpad'
    rw [hd]
    exact h.removes pad hpad (hk ▸ hkind)
  · intro i d hlast
    obtain ⟨pad, hpad, hkind, hd⟩ := h.listed i d hlast
    obtain ⟨pad', hpad', hd', hk'⟩ := hback pad hpad
    exact ⟨pad', hpad', hk' ▸ hkind, hd'.trans hd⟩
  · intro i hi ha hlast
    obtain ⟨pad, hpad, hkind, hd⟩ := h.dropped i hi ha hlast
    obtain ⟨pad', hpad', hd', hk'⟩ := hback pad hpad
    exact ⟨pad', hpad', hk'.trans hkind, by rw [hd', hd]⟩
  · intro pad' hpad' hkind
    obtain ⟨pad, hpad, -, hd, hk, -⟩ := hmem pad' hpad'
    rw [hd, hk]
    exact h.valid pad hpad (hk ▸ hkind)
  · intro pad' hpad' hkind
    obtain ⟨pad, hpad, -, -, hk, hs⟩ := hmem pad' hpad'
    rw [hs]
    exact h.swap pad hpad (hk ▸ hkind)

/-- Nor does the record's new key. -/
theorem adopts (h : Asked supported ds k pads) (hk : Adopts k k') : Asked supported ds k' pads :=
  { h with
    planned := fun pad hpad => (h.planned pad hpad).adopts hk
    dropped := fun i hi ha => h.dropped i hi (by rw [hk.pads i] at ha; exact ha) }

end Asked

/-! ## Counting -/

/-- Pads that sit at different indices are no more than the indices they sit at. -/
theorem countP_pads_le {p : PadChange → Bool} {q : Nat → Bool}
    (hnd : (pads.map (·.desc.ctrlIdx)).Nodup)
    (hp : ∀ pad ∈ pads, p pad = true → pad.desc.ctrlIdx < 16 ∧ q pad.desc.ctrlIdx = true) :
    pads.countP p ≤ ctrlIndices.countP q := by
  rw [countP_eq_length_filter, countP_eq_length_filter,
    ← length_map (f := fun pad : PadChange => pad.desc.ctrlIdx)]
  refine List.Subperm.length_le (List.Nodup.subperm ?_ ?_)
  · exact hnd.sublist (List.filter_sublist.map _)
  · intro i hi
    obtain ⟨pad, hpad, rfl⟩ := mem_map.1 hi
    obtain ⟨hpad, htrue⟩ := mem_filter.1 hpad
    obtain ⟨hlt, hq⟩ := hp pad hpad htrue
    exact mem_filter.2 ⟨mem_ctrlIndices.2 hlt, hq⟩

/-- The active indices, with those that are wanted beside them, are all wanted or kept. -/
theorem countP_active_le {l : List Nat} {active wanted kept : Nat → Bool}
    (h : ∀ i ∈ l, active i = true → wanted i = true ∨ kept i = true) :
    l.countP active + l.countP (fun i => wanted i && !active i) ≤
      l.countP wanted + l.countP kept := by
  induction l with
  | nil => simp
  | cons i l ih =>
    simp only [countP_cons]
    cases ha : active i <;> cases hw : wanted i <;> cases hk : kept i <;>
      simp_all <;> omega

namespace Asked

/-- A pad that is neither refused nor a removal sits at a wanted index. -/
theorem wanted (h : Asked supported ds k pads) {pad : PadChange} (hpad : pad ∈ pads)
    (hremove : pad.kind ≠ .remove) (hrefuse : pad.kind ≠ .refuse) :
    pad.desc.ctrlIdx < 16 ∧ wanted supported ds pad.desc.ctrlIdx = true := by
  have hv := (h.valid pad hpad hremove).2 hrefuse
  refine ⟨hv.1, ?_⟩
  rw [SessionService.wanted, h.descriptor pad hpad hremove]
  simpa using hv

/-- An active index that no pad removes is wanted or kept. -/
theorem active_cases (h : Asked supported ds k pads) {i : Nat} (hi : i < 16)
    (ha : (k.controllers i).active = true)
    (hnone : ∀ pad ∈ pads, pad.desc.ctrlIdx = i → pad.kind ≠ .remove) :
    SessionService.wanted supported ds i = true ∨ kept supported ds k i = true := by
  cases hlast : lastDescriptor ds i with
  | none =>
    obtain ⟨pad, hpad, hkind, hidx⟩ := h.dropped i hi ha hlast
    exact absurd hkind (hnone pad hpad hidx)
  | some d =>
    by_cases hv : Valid supported d
    · left
      simp [SessionService.wanted, hlast, hv]
    · right
      simp [kept, hlast, hv, ha]

/-- While the pads fit, an add is left without a serial only to wait for one. -/
theorem served (h : Asked supported ds k pads) (hhold : Holding B v (padsCarried false pads))
    (hunserved : ∀ pad ∈ pads, pad.kind = .add → pad.serial = 0 →
      Full v ∧ (pad.waits = false → ∀ q ∈ pads, q.retires = false))
    (hcap : (ctrlIndices.countP (SessionService.wanted supported ds) : Int) +
      ctrlIndices.countP (kept supported ds k) + (v.cold.activeTotal - k.activeCount) +
      v.cold.quarantinedCount ≤ 16)
    {pad : PadChange} (hpad : pad ∈ pads) (hkind : pad.kind = .add) (hwaits : pad.waits = false) :
    pad.serial ≠ 0 := by
  intro hs
  obtain ⟨hfull, hret⟩ := hunserved pad hpad hkind hs
  have hle := hfull.le hhold
  rw [length_padsCarried] at hle
  -- Nothing retires, so every serial carried is for an add, and this add has none.
  have hadds : pads.countP (plugsInRound · false) < pads.countP fun q => q.kind == .add := by
    refine countP_lt_countP ?_ hpad (by simp [hkind]) (by simp [plugsInRound, hs])
    intro q hq hplug
    have hnot := hret hwaits q hq
    simp only [plugsInRound, Bool.and_eq_true, Bool.or_eq_true, beq_iff_eq, bne_iff_ne] at hplug
    simp only [PadChange.retires, Bool.or_eq_false_iff, Bool.and_eq_false_iff, beq_eq_false_iff_ne,
      bne_eq_false_iff_eq] at hnot
    simp only [beq_iff_eq]
    rcases hplug.1.1 with (hk | hk) | hk
    · exact hk
    · exact absurd hnot.1.1 (by simp [hk, hplug.1.2])
    · exact absurd hk hnot.1.2
  have hfree : (pads.countP fun q => q.kind == .add) ≤ ctrlIndices.countP fun i =>
      SessionService.wanted supported ds i && !(k.controllers i).active := by
    refine countP_pads_le h.indices fun q hq hadd => ?_
    have hqk : q.kind = .add := by simpa using hadd
    obtain ⟨hlt, hw⟩ := h.wanted hq (by simp [hqk]) (by simp [hqk])
    have hplanned := h.planned q hq
    simp only [PadChange.Planned, hqk] at hplanned
    exact ⟨hlt, by simp [hw, hplanned.2.1]⟩
  have hcover := @countP_active_le ctrlIndices (fun i => (k.controllers i).active)
    (SessionService.wanted supported ds) (kept supported ds k) fun i hi ha => by
      refine h.active_cases (mem_ctrlIndices.1 hi) ha fun q hq _ hk => ?_
      have hnot := hret hwaits q hq
      simp [PadChange.retires, hk] at hnot
  rw [Connection.activeCount] at hcap
  omega

end Asked

/-! ## After the rounds -/

/-- The record has what its request asked for: every valid descriptor is taken, an index with
another descriptor is as it was in `k`, and no other index is active. -/
structure Converged (supported : GamepadIdentity → Bool) (ds : List ControllerDescriptor)
    (k k' : Connection) : Prop where
  valid : ∀ i d, lastDescriptor ds i = some d → Valid supported d → (k'.controllers i).Takes d
  invalid : ∀ i < 16, ∀ d, lastDescriptor ds i = some d → ¬ Valid supported d →
    k'.controllers i = k.controllers i
  rest : ∀ i < 16, lastDescriptor ds i = none → (k'.controllers i).active = false

/-- An index that the change only removes, and removes if it was active, ends up vacant. -/
theorem inactive_of_removed {k₂ : Connection} {i : Nat}
    (hplanned : ∀ pad ∈ pads, pad.Planned (k.controllers pad.desc.ctrlIdx))
    (hcom : Committed false pads k k₂)
    (hset : Settles B v (pads.map fun pad =>
      roundOutcome false pad (k.controllers pad.desc.ctrlIdx)) k₂ pads' k')
    (hkind : ∀ pad ∈ pads, pad.desc.ctrlIdx = i → pad.kind = .remove)
    (hcover : (k.controllers i).active = true → i ∈ pads.map (·.desc.ctrlIdx)) :
    (k'.controllers i).active = false := by
  by_cases hin : i ∈ pads.map (·.desc.ctrlIdx)
  · obtain ⟨pad, hpad, rfl⟩ := mem_map.1 hin
    have hremove := hkind pad hpad rfl
    obtain ⟨pad', hpad', hf⟩ := mem_of_forall₂ hset.follows.flip (mem_map.2 ⟨pad, hpad, rfl⟩)
    have hplan := hplanned pad hpad
    simp only [PadChange.Planned, hremove] at hplan
    have hsame : pad' = pad := by
      rw [hf.done (by rw [roundOutcome_waits, hplan.1])]
      simp [roundOutcome, PadChange.committed, hremove]
    have hmatch := hset.reports pad' hpad'
    simpa [hsame, PadChange.Matches, hplan.2.2.1, hremove] using hmatch
  · have hidx : (pads.map fun pad => roundOutcome false pad (k.controllers pad.desc.ctrlIdx)).map
        (·.desc.ctrlIdx) = pads.map (·.desc.ctrlIdx) := by
      rw [map_map]
      exact map_congr_left fun pad _ => by simp
    rw [hset.others i (hidx ▸ hin), hcom.others i hin]
    by_contra ha
    exact hin (hcover (by simpa using ha))

namespace Asked

/-- A pad that waits is an add or a replug in place. -/
theorem waiting_kind (h : Asked supported ds k pads) {pad : PadChange} (hpad : pad ∈ pads)
    (hwaits : pad.waits = true) : pad.kind = .add ∨ pad.kind = .replugInPlace := by
  have hplanned := h.planned pad hpad
  cases hkind : pad.kind with
  | add => exact .inl rfl
  | replugInPlace => exact .inr rfl
  | refuse | update | remove | replug =>
    simp [PadChange.Planned, hkind, hwaits] at hplanned

/-- A removed index is vacant after the first round. -/
theorem removed (h : Asked supported ds k pads) (hcom : Committed false pads k k')
    {pad : PadChange} (hpad : pad ∈ pads) (hkind : pad.kind = .remove) :
    (k'.controllers pad.desc.ctrlIdx).active = false := by
  have hplanned := h.planned pad hpad
  simp only [PadChange.Planned, hkind] at hplanned
  have hpost := hcom.post pad hpad
  simpa [RoundPost, roundOutcome, PadChange.committed, PadChange.Matches, hkind, hplanned.1,
    hplanned.2.2.1] using hpost

/-- What is active after the first round and what waits for the second fit the count. -/
theorem first_round_le (h : Asked supported ds k pads) (hcom : Committed false pads k k') :
    k'.activeCount + (pads.map fun pad =>
        roundOutcome false pad (k.controllers pad.desc.ctrlIdx)).countP PadChange.waits ≤
      ctrlIndices.countP (SessionService.wanted supported ds) +
        ctrlIndices.countP (kept supported ds k) := by
  have hwaits : (pads.map fun pad =>
      roundOutcome false pad (k.controllers pad.desc.ctrlIdx)).countP PadChange.waits =
      pads.countP PadChange.waits := by
    rw [countP_map]
    exact countP_congr fun pad _ => by simp
  have hfree : pads.countP PadChange.waits ≤ ctrlIndices.countP fun i =>
      SessionService.wanted supported ds i && !(k'.controllers i).active := by
    refine countP_pads_le h.indices fun pad hpad hw => ?_
    obtain ⟨hlt, hwant⟩ := h.wanted hpad (by rcases h.waiting_kind hpad hw with hk | hk <;> simp [hk])
      (by rcases h.waiting_kind hpad hw with hk | hk <;> simp [hk])
    have hpost := hcom.post pad hpad
    rw [RoundPost, roundOutcome_waits, hw] at hpost
    exact ⟨hlt, by simp [hwant, hpost.1.vacant]⟩
  have hcover := @countP_active_le ctrlIndices (fun i => (k'.controllers i).active)
    (SessionService.wanted supported ds) (kept supported ds k) fun i hi ha => by
      have hlt := mem_ctrlIndices.1 hi
      by_cases hidx : i ∈ pads.map (·.desc.ctrlIdx)
      · obtain ⟨pad, hpad, rfl⟩ := mem_map.1 hidx
        by_cases hremove : pad.kind = .remove
        · rw [h.removed hcom hpad hremove] at ha
          cases ha
        · by_cases hrefuse : pad.kind = .refuse
          · rw [hcom.refuse pad hpad hrefuse] at ha
            refine h.active_cases hlt ha fun q hq hsame => ?_
            have hqpad : q = pad := inj_on_of_nodup_map h.indices hq hpad hsame
            exact hqpad ▸ hremove
          · exact .inl (h.wanted hpad hremove hrefuse).2
      · rw [hcom.others i hidx] at ha
        exact h.active_cases hlt ha fun q hq hsame => absurd (mem_map.2 ⟨q, hq, hsame⟩) hidx
  rw [Connection.activeCount]
  omega

/-- A pad that does not wait succeeds in the first round if it was plugged. -/
theorem result_ok (h : Asked supported ds k pads) {pad : PadChange} (hpad : pad ∈ pads)
    (hremove : pad.kind ≠ .remove) (hrefuse : pad.kind ≠ .refuse) (hwaits : pad.waits = false)
    (hserved : pad.kind = .add → pad.serial ≠ 0)
    (hplugged : plugsInRound pad false = true → pad.plugged = true) (p : Controller) :
    (roundOutcome false pad p).result = .ok := by
  have hplanned := h.planned pad hpad
  cases hkind : pad.kind with
  | refuse => exact absurd hkind hrefuse
  | remove => exact absurd hkind hremove
  | update =>
    simp only [PadChange.Planned, hkind] at hplanned
    simpa [roundOutcome, PadChange.committed, hkind] using hplanned.2.1.result
  | replugInPlace =>
    simp [PadChange.Planned, hkind, hwaits] at hplanned
  | replug =>
    simp only [PadChange.Planned, hkind] at hplanned
    have hplug := hplugged (by simp [plugsInRound, hkind, hwaits, h.swap pad hpad hkind])
    simpa [roundOutcome, PadChange.committed, hkind, hplug] using hplanned.2.1.result
  | add =>
    simp only [PadChange.Planned, hkind] at hplanned
    have hplug := hplugged (by simp [plugsInRound, hkind, hwaits, hserved hkind])
    simpa [roundOutcome, PadChange.committed, hkind, hplug] using hplanned.1.result

/-- After both rounds every valid descriptor reports success. -/
theorem results (h : Asked supported ds k pads)
    (hserved : ∀ pad ∈ pads, pad.kind = .add → pad.waits = false → pad.serial ≠ 0)
    (hplugged : ∀ pad ∈ pads, plugsInRound pad false = true → pad.plugged = true)
    (hfollows : List.Forall₂ Follows (pads.map fun pad =>
      roundOutcome false pad (k.controllers pad.desc.ctrlIdx)) pads')
    (hsecond : ∀ pad ∈ pads', pad.waits = true → pad.result = .ok) :
    ∀ pad' ∈ pads', pad'.kind ≠ .remove → Valid supported pad'.desc → pad'.result = .ok := by
  intro pad' hpad' hremove hvalid
  cases hwaits : pad'.waits with
  | true => exact hsecond pad' hpad' hwaits
  | false =>
    obtain ⟨q, hq, hfollow⟩ := mem_of_forall₂ hfollows hpad'
    obtain ⟨pad, hpad, rfl⟩ := mem_map.1 hq
    have hkind : pad'.kind = pad.kind := hfollow.kind.trans (roundOutcome_kind ..)
    have hdesc : pad'.desc = pad.desc := hfollow.desc.trans (roundOutcome_desc ..)
    have hw : pad.waits = false := by
      rw [← roundOutcome_waits false pad (k.controllers pad.desc.ctrlIdx), ← hfollow.waits, hwaits]
    rw [hfollow.done (by rw [roundOutcome_waits, hw])]
    rw [hkind] at hremove
    refine h.result_ok hpad hremove ((h.valid pad hpad hremove).1 (hdesc ▸ hvalid)) hw
      (fun hk => hserved pad hpad hk hw) (hplugged pad hpad) _

/-- The record at the end of a change all of whose valid pads succeeded. -/
theorem converged {k₂ : Connection} (h : Asked supported ds k pads)
    (hcom : Committed false pads k k₂)
    (hset : Settles B v (pads.map fun pad =>
      roundOutcome false pad (k.controllers pad.desc.ctrlIdx)) k₂ pads' k')
    (hok : ∀ pad ∈ pads', pad.kind ≠ .remove → Valid supported pad.desc → pad.result = .ok) :
    Converged supported ds k k' := by
  have hends : ∀ pad ∈ pads, ∃ pad' ∈ pads',
      Follows (roundOutcome false pad (k.controllers pad.desc.ctrlIdx)) pad' ∧
      pad'.desc = pad.desc ∧ pad'.kind = pad.kind := by
    intro pad hpad
    obtain ⟨pad', hpad', hf⟩ := mem_of_forall₂ hset.follows.flip (mem_map.2 ⟨pad, hpad, rfl⟩)
    exact ⟨pad', hpad', hf, hf.desc.trans (roundOutcome_desc ..),
      hf.kind.trans (roundOutcome_kind ..)⟩
  constructor
  · intro i d hlast hv
    obtain ⟨pad, hpad, hkind, rfl⟩ := h.listed i d hlast
    obtain ⟨pad', hpad', -, hdesc, hk⟩ := hends pad hpad
    have hresult := hok pad' hpad' (hk ▸ hkind) (hdesc ▸ hv)
    have hmatch := hset.reports pad' hpad'
    simp only [PadChange.Matches, hresult, hk, if_neg hkind] at hmatch
    rw [hdesc, lastDescriptor_idx hlast] at hmatch
    exact hmatch.1
  · intro i _ d hlast hv
    obtain ⟨pad, hpad, hkind, rfl⟩ := h.listed i d hlast
    have hrefuse : pad.kind = .refuse := by
      by_contra hne
      exact hv ((h.valid pad hpad hkind).2 hne)
    have hsecond := hset.refuse _ (mem_map.2 ⟨pad, hpad, rfl⟩) (by simp [hrefuse])
    rw [roundOutcome_desc, hcom.refuse pad hpad hrefuse] at hsecond
    rw [← lastDescriptor_idx hlast]
    exact hsecond
  · intro i hi hlast
    refine inactive_of_removed h.planned hcom hset ?_ fun ha => ?_
    · rintro pad hpad rfl
      by_contra hne
      rw [h.descriptor pad hpad hne] at hlast
      cases hlast
    · obtain ⟨pad, hpad, -, rfl⟩ := h.dropped i hi ha hlast
      exact mem_map.2 ⟨pad, hpad, rfl⟩

end Asked

end SessionService

end Satellite
