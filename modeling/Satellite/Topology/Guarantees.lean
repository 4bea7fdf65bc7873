import Satellite.Topology.Histories

/-!
# What holds over every history

The results about the topology operations: the serial pool is exact, the
published words are the projection of the records, the backend is called in the
order its devices allow, and an idle bus recovers every serial.
-/

namespace Satellite

open SessionService List Machine

variable {B : Backend} {v v' : Topo}

/-! ## The serial pool -/

/-- The serial pool says exactly which serials the active controllers hold. -/
structure PoolExact (v : Topo) : Prop where
  inUse : ∀ s, v.cold.serialInUse s = true ↔
    ∃! p : Connection × Nat, p.1 ∈ v.cold.connections ∧ p.1.Active p.2 s
  single : ∀ k ∈ v.cold.connections, ∀ k' ∈ v.cold.connections, ∀ i i' s,
    k.Active i s → k'.Active i' s → k = k' ∧ i = i'
  apart : ∀ s, ¬ (v.cold.serialInUse s = true ∧ v.cold.serialQuarantined s = true)
  range : ∀ k ∈ v.cold.connections, ∀ i s, k.Active i s → 1 ≤ s ∧ s ≤ 16
  count : ∀ k ∈ v.cold.connections,
    k.activeControllerCount = ctrlIndices.countP fun i => (k.controllers i).active
  total : v.activePads = (v.cold.connections.map fun k =>
    ((ctrlIndices.countP fun i => (k.controllers i).active : Nat) : Int)).sum

theorem Settled.poolExact (h : Settled B v) : PoolExact v := by
  have hpad : ∀ k ∈ v.cold.connections, ∀ i s, k.Active i s → v.cold.pad k.row i = some s := by
    intro k hk i s ha
    rw [Cold.pad_eq, Cold.conn?_of_mem h.sound.rows hk]
    exact Connection.pad_eq_some.2 ha
  have hsingle : ∀ k ∈ v.cold.connections, ∀ k' ∈ v.cold.connections, ∀ i i' s,
      k.Active i s → k'.Active i' s → k = k' ∧ i = i' := by
    intro k hk k' hk' i i' s ha ha'
    obtain ⟨hrow, hi⟩ := h.sound.ledger.single _ _ _ _ s (hpad k hk i s ha) (hpad k' hk' i' s ha')
    exact ⟨inj_on_of_nodup_map h.sound.rows hk hk' hrow, hi⟩
  have hinUse : ∀ s, v.cold.serialInUse s = true ↔
      ∃ k ∈ v.cold.connections, ∃ i, k.Active i s := by
    intro s
    have hiff : v.cold.serialInUse s = true ↔ _ := h.sound.ledger.inUse_iff s
    rw [h.sound.holds_iff] at hiff
    simpa [Carried.serials] using hiff
  constructor
  · intro s
    rw [hinUse]
    constructor
    · rintro ⟨k, hk, i, ha⟩
      refine ⟨(k, i), ⟨hk, ha⟩, ?_⟩
      rintro ⟨k', i'⟩ ⟨hk', ha'⟩
      obtain ⟨rfl, rfl⟩ := hsingle k hk k' hk' i i' s ha ha'
      rfl
    · rintro ⟨⟨k, i⟩, ⟨hk, ha⟩, -⟩
      exact ⟨k, hk, i, ha⟩
  · exact hsingle
  · rintro s ⟨huse, hquar⟩
    have hfree := h.sound.ledger.disjoint s hquar
    have huse' : v.ledger.inUse s = true := huse
    rw [hfree] at huse'
    cases huse'
  · intro k hk i s ha
    exact h.sound.ledger.range s ((hinUse s).2 ⟨k, hk, i, ha⟩)
  · intro k hk
    exact (h.sound.ok k hk (by simp)).count
  · rw [h.sound.total, Cold.activeTotal]
    congr 1
    exact map_congr_left fun k hk => (h.sound.ok k hk (by simp)).count

/-- After every history the pool is exact: a serial is taken by one active pad or free. -/
theorem serial_pool_exact (h : History B v) : PoolExact v := h.settled.poolExact

theorem serial_pool_exact_sixteen : ∃ v, History obliging v ∧
    (∃ k ∈ v.cold.connections, ∀ i < 16, (k.controllers i).active = true) ∧ PoolExact v := by
  obtain ⟨v, hv, k, hk, -, hactive⟩ := exists_sixteen_pads
  exact ⟨v, hv, ⟨k, hk, hactive⟩, serial_pool_exact hv⟩

/-! ## Publication -/

/-- After every history the published words are the sessions', each in a slot of its own. -/
theorem publication_refines (h : History B v) :
    (v.cold.connections.map Connection.slot).Nodup ∧ v.Published := by
  have hpub := h.settled.sound.published
  refine ⟨?_, hpub⟩
  refine List.Nodup.map_on (fun k hk k' hk' hslot => ?_)
    (List.Nodup.of_map _ h.settled.sound.rows)
  exact inj_on_of_nodup_map h.settled.sound.rows hk hk' (hpub.slot_inj k hk k' hk' hslot)

theorem publication_refines_sixteen : ∃ v, History obliging v ∧
    (∃ k ∈ v.cold.connections, ∀ i < 16, (k.controllers i).active = true) ∧
      (v.cold.connections.map Connection.slot).Nodup ∧ v.Published := by
  obtain ⟨v, hv, k, hk, -, hactive⟩ := exists_sixteen_pads
  exact ⟨v, hv, ⟨k, hk, hactive⟩, publication_refines hv⟩

/-- Devices, ids and nonzero 32-bit tokens tell the sessions apart. -/
theorem sessions_apart (h : History B v) :
    (v.cold.connections.map Connection.deviceId).Nodup ∧
    (v.cold.connections.map Connection.connectionId).Nodup ∧
    (v.cold.connections.map Connection.token).Nodup ∧
    ∀ k ∈ v.cold.connections, 1 ≤ k.token ∧ k.token < 2 ^ 32 := by
  have hs := h.settled.sound
  exact ⟨hs.devices, hs.ids, hs.tokens, hs.token_range⟩

theorem sessions_apart_sixteen : ∃ v, History obliging v ∧ v.cold.connections ≠ [] ∧
    (v.cold.connections.map Connection.token).Nodup := by
  obtain ⟨v, hv, k, hk, -⟩ := exists_sixteen_pads
  exact ⟨v, hv, ne_nil_of_mem hk, (sessions_apart hv).2.2.1⟩

/-- What was seen of a session under one epoch is the same, and its record does not go back. -/
theorem epoch_determines_types (h : History B v) :
    Held.Consistent v.held ∧ ∀ k ∈ v.cold.connections, k.Agrees v.held := by
  have hs := h.settled.sound
  exact ⟨hs.held_inj, fun k hk => hs.agrees k hk (by simp) not_mem_nil⟩

theorem epoch_determines_types_sixteen : ∃ v, History obliging v ∧ v.cold.connections ≠ [] ∧
    Held.Consistent v.held := by
  obtain ⟨v, hv, k, hk, -⟩ := exists_sixteen_pads
  exact ⟨v, hv, ne_nil_of_mem hk, (epoch_determines_types hv).1⟩

/-! ## Recovery of an idle bus -/

/-- With no pad left, an open bus means that there has been no session since it was opened. -/
def Unused (B : Backend) (v : Topo) : Prop :=
  B.Steady → B.Closes → v.Idle → v.bus = true → v.cold.connections = []

theorem Completed.unused (h : Completed B v v') (hv : Unused B v) : Unused B v' := by
  intro hsteady hcloses hidle hbus
  rcases h.outcome with hquiet | hrec
  · have hempty := hv hsteady hcloses (hquiet.idle.1 hidle) (hquiet.bus ▸ hbus)
    rw [hquiet.empty hempty]
    exact hempty
  · rw [hrec hsteady hcloses hidle] at hbus
    cases hbus

theorem History.unused (h : History B v) : Unused B v := by
  induction h with
  | init bus => exact fun _ _ _ _ => rfl
  | step op hist hrun ih =>
    exact (wp_sound hrun (wp_operation op hist.settled)).unused ih

/-- An operation that leaves no pad active leaves the bus closed and every serial free. -/
theorem idle_recovers (hsteady : B.Steady) (hcloses : B.Closes) (h : History B v) (op : Operation)
    (hrun : (topoMachine B).Exec op.body v () v') (hchanged : v' ≠ { v with held := v'.held })
    (hidle : v'.cold.NoneActive) :
    v'.bus = false ∧ ∀ s, v'.cold.serialInUse s = false ∧ v'.cold.serialQuarantined s = false := by
  have hcomp := wp_sound hrun (wp_operation op h.settled)
  have hnone := hidle.idle
  have hbus : v'.bus = false := by
    rcases hcomp.outcome with hquiet | hrec
    · cases hb : v'.bus with
      | false => rfl
      | true =>
        have hempty := h.unused hsteady hcloses (hquiet.idle.1 hnone) (hquiet.bus ▸ hb)
        exact absurd (hquiet.empty hempty) hchanged
    · exact hrec hsteady hcloses hnone
  refine ⟨hbus, fun s => ⟨?_, ?_⟩⟩
  · cases huse : v'.cold.serialInUse s with
    | false => rfl
    | true =>
      rcases (hcomp.settled.sound.ledger.inUse_iff s).1 huse with hholds | hcarried
      · exact absurd hholds (not_holds_of_idle hnone s)
      · cases hcarried
  · exact (hcomp.settled.sound.ledger.closed hsteady hbus s).2.2

theorem idle_recovers_sixteen : ∃ v v', History obliging v ∧
    (∃ k ∈ v.cold.connections, ∀ i < 16, (k.controllers i).active = true) ∧
    (topoMachine obliging).Exec (Operation.closeAllSessions .shutdown).body v () v' ∧
      v'.bus = false ∧
      ∀ s, v'.cold.serialInUse s = false ∧ v'.cold.serialQuarantined s = false := by
  obtain ⟨v, hv, k, hk, -, hactive⟩ := exists_sixteen_pads
  have hwp := @wp_closeAllSessions _ _ .shutdown hv.settled
  obtain ⟨_, v', hrun⟩ := wp_exec trivial
    (fun i u _ => obliging_cooperates.total i u) hwp
  have hnone : v'.cold.connections = [] := (wp_sound hrun hwp).2
  refine ⟨v, v', hv, ⟨k, hk, hactive⟩, hrun, ?_⟩
  refine idle_recovers obliging_cooperates.steady (fun _ _ hb => hb) hv
    (.closeAllSessions .shutdown) hrun ?_ ?_
  · intro hsame
    rw [hsame] at hnone
    rw [hnone] at hk
    cases hk
  · intro a ha
    rw [hnone] at ha
    cases ha

/-! ## The lifecycle of a device -/

/-- A plug is outstanding when it succeeded and the serial was not unplugged since. -/
theorem outstanding_iff {calls : List Call} {s : Nat} : outstanding calls s = true ↔
    ∃ newer older, calls = newer ++ .pluginDevice s true :: older ∧
      ∀ answer, .unplugDevice s answer ∉ newer := by
  induction calls with
  | nil => simp [outstanding]
  | cons c cs ih =>
    -- The latest call decides if it plugged or unplugged the serial, the older ones otherwise.
    have hskip : (c ≠ .pluginDevice s true ∧ ∀ answer, c ≠ .unplugDevice s answer) →
        ((∃ newer older, cs = newer ++ .pluginDevice s true :: older ∧
            ∀ answer, .unplugDevice s answer ∉ newer) ↔
          ∃ newer older, c :: cs = newer ++ .pluginDevice s true :: older ∧
            ∀ answer, .unplugDevice s answer ∉ newer) := by
      rintro ⟨hplug, hunplug⟩
      constructor
      · rintro ⟨newer, older, rfl, hno⟩
        refine ⟨c :: newer, older, rfl, fun answer hmem => ?_⟩
        rcases mem_cons.1 hmem with heq | hmem
        · exact hunplug answer heq.symm
        · exact hno answer hmem
      · rintro ⟨newer, older, heq, hno⟩
        cases newer with
        | nil => exact absurd (List.cons.inj heq).1 hplug
        | cons c' newer =>
          refine ⟨newer, older, (List.cons.inj heq).2, fun answer hmem => ?_⟩
          exact hno answer (mem_cons_of_mem c' hmem)
    cases c with
    | ensureBusOpen answer | closeBus => exact ih.trans (hskip (by simp))
    | pluginDevice t answer =>
      by_cases heq : t = s ∧ answer = true
      · obtain ⟨rfl, rfl⟩ := heq
        exact ⟨fun _ => ⟨[], cs, rfl, fun _ => not_mem_nil⟩, fun _ => by simp [outstanding]⟩
      · refine Iff.trans ?_ (ih.trans (hskip ⟨fun h => heq (by cases h; exact ⟨rfl, rfl⟩), by simp⟩))
        cases answer with
        | false => rfl
        | true => simp [outstanding, show t ≠ s from fun h => heq ⟨h, rfl⟩]
    | unplugDevice t answer =>
      by_cases heq : t = s
      · subst heq
        refine ⟨by simp [outstanding], ?_⟩
        rintro ⟨newer, older, hcalls, hno⟩
        cases newer with
        | nil => cases (List.cons.inj hcalls).1
        | cons c' newer =>
          rw [← (List.cons.inj hcalls).1] at hno
          exact absurd mem_cons_self (hno answer)
      · refine Iff.trans ?_ (ih.trans (hskip ⟨by simp, fun b h => heq (by cases h; rfl)⟩))
        simp [outstanding, heq]

/-- When a lifecycle call may be made. -/
def Lawful (i : TInstr) (u : Topo) : Prop :=
  match i with
  | .pluginDevicePreferring s _ _ => outstanding u.calls s = false ∧ unconfirmed u.calls s = false
  | .unplugDevice s => outstanding u.calls s = true
  | .closeBus => u.cold.NoneActive
  | _ => True

/-- Every device that was plugged and whose pad is gone when the operation ends was unplugged, by
the operation itself if it was still plugged when the operation began. -/
structure Unplugs (v v' : Topo) : Prop where
  plugged : ∀ s newer older, v'.calls = newer ++ .pluginDevice s true :: older →
    (∀ k ∈ v'.cold.connections, ∀ i, ¬ k.Active i s) → ∃ answer, .unplugDevice s answer ∈ newer
  own : ∃ new, v'.calls = new ++ v.calls ∧ ∀ s, outstanding v.calls s = true →
    (∀ k ∈ v'.cold.connections, ∀ i, ¬ k.Active i s) → ∃ answer, .unplugDevice s answer ∈ new

/-- What is plugged between two operations is what the active controllers hold. -/
theorem Settled.outstanding_iff_active (h : Settled B v) (s : Nat) :
    outstanding v.calls s = true ↔ ∃ k ∈ v.cold.connections, ∃ i, k.Active i s := by
  have hiff : outstanding v.calls s = true ↔ _ := h.sound.ledger.outstanding_iff s
  rw [h.sound.holds_iff] at hiff
  simpa using hiff

/-- No operation plugs a device twice, unplugs one that is not plugged or closes the bus under an
active pad, and each unplugs what it leaves without a pad. -/
theorem lifecycle_protocol (hsteady : B.Steady) (h : History B v) (op : Operation) :
    (∀ i u, (topoMachine B).Issues op.body v i u → Lawful i u) ∧
      ∀ v', (topoMachine B).Exec op.body v () v' → Unplugs v v' := by
  have hwp := wp_operation op h.settled
  constructor
  · intro i u hissue
    have hpre : Topo.pre B i u := wp_issues hissue hwp
    cases i with
    | pluginDevicePreferring s g preferred =>
      obtain ⟨-, -, -, hout, hunc⟩ := hpre
      exact ⟨hout, hunc hsteady⟩
    | unplugDevice s => exact hpre.2.2.2
    | closeBus => exact hpre.2
    | _ => trivial
  · intro v' hrun
    obtain ⟨hcomp, hlater⟩ := wp_sound hrun (wp_later hwp)
    have hgone : ∀ s, (∀ k ∈ v'.cold.connections, ∀ i, ¬ k.Active i s) →
        outstanding v'.calls s ≠ true := by
      intro s hnone hout
      obtain ⟨k, hk, i, ha⟩ := (hcomp.settled.outstanding_iff_active s).1 hout
      exact hnone k hk i ha
    have hplugged : ∀ s newer older, v'.calls = newer ++ .pluginDevice s true :: older →
        (∀ k ∈ v'.cold.connections, ∀ i, ¬ k.Active i s) →
          ∃ answer, .unplugDevice s answer ∈ newer := by
      intro s newer older hcalls hnone
      by_contra hno
      refine hgone s hnone (outstanding_iff.2 ⟨newer, older, hcalls, fun answer hmem => ?_⟩)
      exact hno ⟨answer, hmem⟩
    refine ⟨hplugged, ?_⟩
    obtain ⟨new, hnew⟩ := hlater.calls
    refine ⟨new, hnew, fun s hout hnone => ?_⟩
    obtain ⟨newer, older, hold, hno⟩ := outstanding_iff.1 hout
    obtain ⟨answer, hmem⟩ := hplugged s (new ++ newer) older
      (by rw [hnew, hold, append_assoc]) hnone
    rcases mem_append.1 hmem with hmem | hmem
    · exact ⟨answer, hmem⟩
    · exact absurd hmem (hno answer)

/-- A PUT that swaps one of sixteen pads and unplugs the others. -/
theorem lifecycle_protocol_sixteen : ∃ v v', History obliging v ∧
    (∃ k ∈ v.cold.connections, ∀ i < 16, (k.controllers i).active = true) ∧
    (topoMachine obliging).Exec
      (Operation.upsertSession (fun key _ _ => key) onePad).body v () v' ∧ Unplugs v v' ∧
      ∀ i u, (topoMachine obliging).Issues
        (Operation.upsertSession (fun key _ _ => key) onePad).body v i u → Lawful i u := by
  obtain ⟨v, hv, k, hk, hdevice, hactive⟩ := exists_sixteen_pads
  obtain ⟨⟨r, v', hrun⟩, -⟩ := put_completes obliging_cooperates hv.settled
    (fun key _ _ => key) onePad (.inl ⟨k, hk, hdevice⟩)
  obtain ⟨hlawful, hunplugs⟩ := lifecycle_protocol obliging_cooperates.steady hv
    (.upsertSession (fun key _ _ => key) onePad)
  exact ⟨v, v', hv, ⟨k, hk, hactive⟩, hrun.bind (.ret () v'),
    hunplugs v' (hrun.bind (.ret () v')), hlawful⟩

end Satellite
