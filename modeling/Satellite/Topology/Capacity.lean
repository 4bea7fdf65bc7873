import Satellite.Topology.Teardown

/-!
# Counting serials

The serials in use are those of the active pads and those an operation carries,
each once. A pool that these and the quarantined serials do not fill has a serial
to give.
-/

namespace Satellite

open List Connection

/-- The serials a record's pads are active with. -/
def Connection.heldSerials (k : Connection) : List Nat :=
  (ctrlIndices.filter fun i => (k.controllers i).active).map fun i => (k.controllers i).serialNo

theorem Connection.mem_heldSerials {k : Connection} {s : Nat} :
    s ∈ k.heldSerials ↔ ∃ i, k.Active i s := by
  simp only [heldSerials, mem_map, mem_filter, mem_ctrlIndices, Active, and_assoc]

theorem Connection.length_heldSerials (k : Connection) :
    (k.heldSerials.length : Int) = k.activeCount := by
  rw [heldSerials, length_map, ← countP_eq_length_filter, activeCount]

/-- How many serials are in quarantine. -/
def Cold.quarantinedCount (c : Cold) : Nat := serials.countP c.serialQuarantined

namespace Sound

variable {B : Backend} {v : Topo} {carried : Carried}

theorem holds_iff (h : Sound B v carried none []) {s : Nat} :
    v.ledger.Holds s ↔ ∃ k ∈ v.cold.connections, ∃ i, k.Active i s := by
  constructor
  · rintro ⟨r, i, hs⟩
    have hpad : v.cold.pad r i = some s := hs
    rw [Cold.pad_eq] at hpad
    obtain ⟨k, hk, hki⟩ := Option.bind_eq_some_iff.1 hpad
    exact ⟨k, Cold.mem_of_conn? hk, i, pad_eq_some.1 hki⟩
  · rintro ⟨k, hk, i, ha⟩
    refine ⟨k.row, i, ?_⟩
    show v.cold.pad k.row i = some s
    rw [Cold.pad_eq, Cold.conn?_of_mem h.rows hk]
    exact pad_eq_some.2 ha

/-- No serial is held twice. -/
theorem heldSerials_nodup (h : Sound B v carried none []) :
    (v.cold.connections.flatMap heldSerials).Nodup := by
  refine nodup_flatMap.2 ⟨fun k hk => ?_, ?_⟩
  · refine List.Nodup.map_on ?_ (List.nodup_range.filter _)
    intro i hi j hj he
    simp only [mem_filter, mem_ctrlIndices] at hi hj
    exact (h.active_inj hk hk ⟨hi.1, hi.2, rfl⟩ ⟨hj.1, hj.2, he.symm⟩).2
  · have hne : v.cold.connections.Pairwise fun a b => a.row ≠ b.row := pairwise_map.1 h.rows
    refine hne.imp_of_mem fun {a b} ha hb hrow => ?_
    intro s hsa hsb
    obtain ⟨i, hi⟩ := mem_heldSerials.1 hsa
    obtain ⟨j, hj⟩ := mem_heldSerials.1 hsb
    exact hrow (h.active_inj ha hb hi hj).1

/-- The serials in use, counted by who has them. -/
theorem inUse_count (h : Sound B v carried none []) :
    (serials.countP v.cold.serialInUse : Int) = v.cold.activeTotal + carried.length := by
  have hnd : (v.cold.connections.flatMap heldSerials ++ carried.serials).Nodup := by
    refine nodup_append.2 ⟨h.heldSerials_nodup, h.ledger.nodup, ?_⟩
    rintro s hs _ hc rfl
    obtain ⟨k, hk, hks⟩ := mem_flatMap.1 hs
    exact h.ledger.apart s (h.holds_iff.2 ⟨k, hk, mem_heldSerials.1 hks⟩) hc
  have hperm : (serials.filter v.cold.serialInUse).Perm
      (v.cold.connections.flatMap heldSerials ++ carried.serials) := by
    refine (perm_ext_iff_of_nodup (serials_nodup.filter _) hnd).2 fun s => ?_
    have hiff := h.ledger.inUse_iff s
    rw [h.holds_iff] at hiff
    simp only [mem_filter, mem_append, mem_flatMap, mem_heldSerials]
    rw [← hiff]
    exact ⟨fun hs => hs.2, fun hs => ⟨mem_serials.2 (h.ledger.range s hs), hs⟩⟩
  have hlen : ((v.cold.connections.flatMap heldSerials).length : Int) =
      v.cold.activeTotal := by
    have hsum : ∀ l : List Connection, (∀ k ∈ l, k.Ok) →
        ((l.flatMap heldSerials).length : Int) =
          (l.map activeControllerCount).sum := by
      intro l
      induction l with
      | nil =>
        intro _
        rfl
      | cons k l ih =>
        intro hl
        have hk := (hl k (by simp)).count
        have hrest := ih fun a ha => hl a (mem_cons_of_mem _ ha)
        rw [flatMap_cons, length_append, map_cons, sum_cons, ← hrest, hk,
          ← length_heldSerials]
        exact Int.natCast_add _ _
    exact hsum _ fun k hk => h.ok k hk nofun
  rw [countP_eq_length_filter, hperm.length_eq, length_append, Carried.serials,
    length_map, Int.natCast_add, hlen]

theorem inUse_add_idle (v : Topo) : serials.countP v.cold.serialInUse +
    serials.countP (fun s => !v.cold.serialInUse s) = 16 := by
  have hlen := length_eq_countP_add_countP v.cold.serialInUse (l := serials)
  simpa [serials] using hlen.symm

/-- What is active, carried and quarantined fits the pool. -/
theorem total_le (h : Sound B v carried none []) :
    v.cold.activeTotal + carried.length + v.cold.quarantinedCount ≤ 16 := by
  have hidle : serials.countP v.cold.serialQuarantined ≤
      serials.countP fun s => !v.cold.serialInUse s := by
    refine countP_mono_left fun s _ hs => ?_
    rw [Bool.not_eq_true']
    exact h.ledger.disjoint s hs
  have hlen := inUse_add_idle v
  have hcount := h.inUse_count
  unfold Cold.quarantinedCount
  omega

/-- A pool that is not full has a serial to give. -/
theorem exists_free (h : Sound B v carried none [])
    (hcap : v.cold.activeTotal + carried.length + v.cold.quarantinedCount < 16) :
    ∃ s, v.cold.freeSerial = some s := by
  cases hfree : v.cold.freeSerial with
  | some s => exact ⟨s, rfl⟩
  | none =>
    -- Every serial is in use or quarantined, never both, so the two counts reach 16.
    have hcover : serials.countP v.cold.serialInUse + serials.countP v.cold.serialQuarantined =
        16 := by
      have hnot : serials.countP v.cold.serialQuarantined =
          serials.countP fun s => !v.cold.serialInUse s := by
        refine countP_congr fun s hs => ?_
        have hor := SessionService.freeSerial_none hfree (mem_serials.1 hs)
        have hdis := h.ledger.disjoint s
        simp only [Bool.not_eq_true']
        exact ⟨hdis, fun hu => hor.resolve_left (by simp [hu])⟩
      rw [hnot]
      exact inUse_add_idle v
    have hcount := h.inUse_count
    unfold Cold.quarantinedCount at hcap
    omega

/-- While a pad is active the bus of a steady backend is open. -/
theorem bus_of_active (h : Sound B v carried none []) (hsteady : B.Steady) {k : Connection}
    (hk : k ∈ v.cold.connections) {i s : Nat} (ha : k.Active i s) : v.bus = true := by
  cases hbus : v.bus with
  | true => rfl
  | false =>
    have hholds := h.holds_iff.2 ⟨k, hk, i, ha⟩
    have hout := (h.ledger.outstanding_iff s).2 (.inl hholds)
    rw [(h.ledger.closed hsteady hbus s).1] at hout
    cases hout

end Sound

end Satellite
