import Satellite.Topology.Publish

/-!
# Publication restores the invariant

A publication brings the words of one slot back in line with its record and
touches nothing of the others; closing it, or releasing `mtx_`, lets observers
see records that agree with all they saw before. A record that was cleared and
whose pads are gone may be dropped.
-/

namespace Satellite

open List Option Cold

/-! ## Words of other slots -/

theorem Loc.publishedBy_of_guard {l : Loc} {i slot : Nat} (h : l.guard = some i) (hne : i ≠ slot) :
    l.publishedBy slot = false := by
  cases l <;> simp [Loc.guard] at h <;> simp [Loc.publishedBy, h, hne]

theorem SlotShows.congr {mem mem' : Loc → Nat} {k : Connection} (h : SlotShows mem k)
    (hsame : ∀ l, l.guard = some k.slot ∨ l = .packed k.slot → mem' l = mem l) :
    SlotShows mem' k where
  packed := (hsame _ (.inr rfl)).trans h.packed
  token := (hsame _ (.inl rfl)).trans h.token
  key w := (hsame _ (.inl rfl)).trans (h.key w)
  ctrl i hi := (hsame _ (.inl rfl)).trans (h.ctrl i hi)
  padInfo i hi := (hsame _ (.inl rfl)).trans (h.padInfo i hi)
  padGen i hi := (hsame _ (.inl rfl)).trans (h.padGen i hi)
  padStamp i hi := (hsame _ (.inl rfl)).trans (h.padStamp i hi)
  session := (hsame _ (.inl rfl)).trans h.session
  row := (hsame _ (.inl rfl)).trans h.row

theorem SlotClear.congr {mem mem' : Loc → Nat} {slot : Nat} (h : SlotClear mem slot)
    (hsame : ∀ l, l.guard = some slot ∨ l = .packed slot → mem' l = mem l) :
    SlotClear mem' slot where
  packed := (hsame _ (.inr rfl)).trans h.packed
  token := (hsame _ (.inl rfl)).trans h.token
  key w := (hsame _ (.inl rfl)).trans (h.key w)
  ctrl i hi := (hsame _ (.inl rfl)).trans (h.ctrl i hi)

namespace Sound

variable {B : Backend} {v : Topo} {carried : Carried} {stale : Option Nat} {dead : List Nat}
  {row : Nat} {k : Connection}

/-- The slot of the record set aside belongs to no other record. -/
theorem slot_ne (h : Sound B v carried stale dead) (hk : v.cold.conn? row = some k)
    {a : Connection} (ha : a ∈ v.cold.connections) (hne : some row ≠ some a.row) :
    a.slot ≠ k.slot := by
  intro hs
  have hrow := h.slot_inj a ha k (mem_of_conn? hk) hs
  rw [conn?_row hk] at hrow
  exact hne (by rw [hrow])

/-- Two records that hold one serial are one record. -/
theorem active_inj (h : Sound B v carried stale dead) {a b : Connection}
    (ha : a ∈ v.cold.connections) (hb : b ∈ v.cold.connections) {i j s : Nat}
    (hai : a.Active i s) (hbj : b.Active j s) : a.row = b.row ∧ i = j := by
  have hpad : ∀ c ∈ v.cold.connections, ∀ n, c.Active n s → v.ledger.pad c.row n = some s := by
    intro c hc n hn
    show v.cold.pad c.row n = some s
    rw [pad_eq, conn?_of_mem h.rows hc]
    exact Connection.pad_eq_some.2 hn
  exact h.ledger.single _ _ _ _ s (hpad a ha i hai) (hpad b hb j hbj)

/-- The ledger knows the serial of an active controller. -/
theorem active_holds (h : Sound B v carried stale dead) {a : Connection}
    (ha : a ∈ v.cold.connections) {i s : Nat} (hai : a.Active i s) : v.ledger.Holds s := by
  refine ⟨a.row, i, ?_⟩
  show v.cold.pad a.row i = some s
  rw [pad_eq, conn?_of_mem h.rows ha]
  exact Connection.pad_eq_some.2 hai

/-- An active controller has a serial of the backend's range. -/
theorem active_range (h : Sound B v carried stale dead) {a : Connection}
    (ha : a ∈ v.cold.connections) {i s : Nat} (hai : a.Active i s) : 1 ≤ s ∧ s ≤ 16 :=
  h.ledger.range s ((h.ledger.inUse_iff s).2 (.inl (h.active_holds ha hai)))

/-- Publishing the record set aside keeps what holds of the others. -/
theorem rewrite {base mem' : Loc → Nat} (h : Sound B v carried (some row) dead)
    (hk : v.cold.conn? row = some k) (hw : Written k base mem')
    (hbase : ∀ l, l.guard ≠ some k.slot → base l = v.mem l) :
    Sound B { v with mem := mem' } carried (some row) dead := by
  have hkmem := mem_of_conn? hk
  have hbaseOwner : ∀ s, base (.padOwner s) = v.mem (.padOwner s) :=
    fun s => hbase _ (by simp [Loc.guard])
  have hbaseGen : ∀ slot, base (.gen slot) = v.mem (.gen slot) :=
    fun slot => hbase _ (by simp [Loc.guard])
  -- Every word of another slot is the word it was.
  have hsame : ∀ slot, slot ≠ k.slot → ∀ l, l.guard = some slot ∨ l = .packed slot →
      mem' l = v.mem l := by
    rintro slot hne l (hl | rfl)
    · rw [hw.frame l (Loc.publishedBy_of_guard hl hne), hbase l]
      rw [hl]
      exact fun he => hne (Option.some.inj he)
    · rw [hw.frame _ rfl, hbase _ (by simp [Loc.guard])]
  have howner : ∀ s ∈ serials, mem' (.padOwner s) = 0 ∨ mem' (.padOwner s) = v.mem (.padOwner s) ∨
      ∃ i, k.Active i s ∧ mem' (.padOwner s) = hotPadOwner k.slot i := by
    intro s hs
    by_cases hv : ∃ i, k.Active i s
    · obtain ⟨i, hi⟩ := hv
      exact .inr (.inr ⟨i, hi, hw.held i s hi⟩)
    · rw [hw.vacant s hs (fun i hi => hv ⟨i, hi⟩), hbaseOwner]
      split
      · exact .inl rfl
      · exact .inr (.inl rfl)
  refine { h with shows := ?_, dead_clear := ?_, clear := ?_, owner_form := ?_, owner_free := ?_,
                  owner_iff := ?_, gen := ?_ }
  · intro a ha hne hnd
    exact (h.shows a ha hne hnd).congr (hsame _ (h.slot_ne hk ha hne))
  · intro a ha hne hd
    exact (h.dead_clear a ha hne hd).congr (hsame _ (h.slot_ne hk ha hne))
  · intro slot hlt hfree
    exact (h.clear slot hlt hfree).congr (hsame _ (fun he => hfree k hkmem he.symm))
  · intro s hs
    rcases howner s hs with he | he | ⟨i, hi, he⟩
    · exact .inl he
    · rcases h.owner_form s hs with ho | ⟨slot, i, hi, ho⟩
      · exact .inl (he.trans ho)
      · exact .inr ⟨slot, i, hi, he.trans ho⟩
    · exact .inr ⟨k.slot, i, hi.1, he⟩
  · intro s hs slot i hi ho
    rcases howner s hs with he | he | ⟨j, hj, he⟩
    · exact absurd (he.symm.trans ho).symm (hotPadOwner_ne_zero (by omega))
    · exact h.owner_free s hs slot i hi (he.symm.trans ho)
    · obtain ⟨hslot, -⟩ := hotPadOwner_inj (by have := hj.1; omega) (by omega) (he.symm.trans ho)
      exact ⟨k, hkmem, hslot⟩
  · intro a ha hne s hs i hi
    have hslot := h.slot_ne hk ha hne
    have hold := h.owner_iff a ha hne s hs i hi
    show mem' (.padOwner s) = _ ↔ _
    by_cases hv : ∃ j, k.Active j s
    · obtain ⟨j, hj⟩ := hv
      -- The serial is the record's own, so no other record holds it.
      constructor
      · intro ho
        rw [hw.held j s hj] at ho
        exact absurd (hotPadOwner_inj (by have := hj.1; omega) (by omega) ho).1.symm hslot
      · intro hai
        have hrow := (h.active_inj ha hkmem hai hj).1
        rw [conn?_row hk] at hrow
        exact absurd (by rw [hrow]) hne
    · rw [hw.vacant s hs (fun j hj => hv ⟨j, hj⟩), hbaseOwner]
      split
      next hmine =>
        constructor
        · intro ho
          exact absurd ho.symm (hotPadOwner_ne_zero (by omega))
        · intro hai
          have hs' := hmine.2
          rw [hold.2 hai, hotOwnerSlot_hotPadOwner (by omega)] at hs'
          exact absurd hs' hslot
      · exact hold
  · intro slot
    refine Eq.trans ?_ (h.gen slot)
    show mem' (.gen slot) % 2 = _
    by_cases hslot : slot = k.slot
    · rw [hslot, hw.gen, hbaseGen]
    · rw [hw.frame _ (by simp [Loc.publishedBy, hslot]), hbaseGen]

/-- The packed token of the record set aside may be rewritten. -/
theorem setPacked (h : Sound B v carried (some row) dead) (hk : v.cold.conn? row = some k)
    (w : Nat) : Sound B (v.setMem (.packed k.slot) w) carried (some row) dead := by
  have hkmem := mem_of_conn? hk
  have hsame : ∀ slot, slot ≠ k.slot → ∀ l, l.guard = some slot ∨ l = .packed slot →
      (v.setMem (.packed k.slot) w).mem l = v.mem l := by
    rintro slot hne l (hl | rfl)
    · refine Function.update_of_ne ?_ _ _
      rintro rfl
      cases hl
    · refine Function.update_of_ne ?_ _ _
      rintro he
      injection he with he
      exact hne he
  exact
    { h with
      shows := fun a ha hne hnd => (h.shows a ha hne hnd).congr (hsame _ (h.slot_ne hk ha hne))
      dead_clear := fun a ha hne hd =>
        (h.dead_clear a ha hne hd).congr (hsame _ (h.slot_ne hk ha hne))
      clear := fun slot hlt hfree =>
        (h.clear slot hlt hfree).congr (hsame _ fun he => hfree k hkmem he.symm)
      owner_form := h.owner_form
      owner_free := h.owner_free
      owner_iff := h.owner_iff
      gen := h.gen }

/-- The record set aside was cleared: nothing of it is published. -/
theorem bury (h : Sound B v carried (some row) dead) (hk : v.cold.conn? row = some k) (hok : k.Ok)
    (hclear : SlotClear v.mem k.slot)
    (howner : ∀ s ∈ serials, ∀ i, i < 16 →
      (v.mem (.padOwner s) = hotPadOwner k.slot i ↔ k.Active i s)) :
    Sound B v carried none (row :: dead) := by
  refine { h with
    ok := fun a ha _ => h.forall_of_rest hk hok h.ok a ha
    owner_iff := fun a ha _ => h.forall_of_rest hk howner h.owner_iff a ha
    shows := ?_, dead_clear := ?_, agrees := ?_ }
  · intro a ha _ hnd
    rw [mem_cons, not_or] at hnd
    exact h.shows a ha (fun he => hnd.1 (Option.some.inj he).symm) hnd.2
  · refine fun a ha _ => h.forall_of_rest hk
      (P := fun a => a.row ∈ row :: dead → SlotClear v.mem a.slot) (fun _ => hclear)
      (fun a ha he hd => ?_) a ha
    rcases mem_cons.1 hd with hrow | hd
    · exact absurd (by rw [hrow]) he
    · exact h.dead_clear a ha he hd
  · intro a ha _ hnd
    rw [mem_cons, not_or] at hnd
    exact h.agrees a ha (fun he => hnd.1 (Option.some.inj he).symm) hnd.2

/-- What an observer sees of records that agree with all that was seen. -/
theorem see {seen : List Held} (h : Sound B v carried stale dead)
    (hseen : ∀ x ∈ seen, ∃ a ∈ v.cold.connections, a.Agrees v.held ∧ x = a.held) :
    Sound B { v with held := seen ++ v.held } carried stale dead := by
  have hone : ∀ a ∈ v.cold.connections, ∀ b ∈ v.cold.connections, a.row = b.row → a = b := by
    intro a ha b hb hrow
    exact inj_on_of_nodup_map h.rows ha hb hrow
  refine { h with held_row := ?_, held_inj := ?_, agrees := ?_ }
  · intro x hx
    rcases mem_append.1 hx with hx | hx
    · obtain ⟨a, ha, -, rfl⟩ := hseen x hx
      exact h.row_le a ha
    · exact h.held_row x hx
  · intro x hx y hy hrow hepoch
    rcases mem_append.1 hx with hx | hx <;> rcases mem_append.1 hy with hy | hy
    · obtain ⟨a, ha, -, rfl⟩ := hseen x hx
      obtain ⟨b, hb, -, rfl⟩ := hseen y hy
      rw [hone a ha b hb hrow]
    · obtain ⟨a, ha, hag, rfl⟩ := hseen x hx
      exact ((hag y hy hrow.symm).2 hepoch.symm).symm
    · obtain ⟨b, hb, hag, rfl⟩ := hseen y hy
      exact (hag x hx hrow).2 hepoch
    · exact h.held_inj x hx y hy hrow hepoch
  · intro b hb hne hnd x hx hrow
    rcases mem_append.1 hx with hx | hx
    · obtain ⟨a, ha, -, rfl⟩ := hseen x hx
      rw [hone a ha b hb hrow]
      exact ⟨le_refl _, fun _ => rfl⟩
    · exact h.agrees b hb hne hnd x hx hrow

end Sound

/-! ## Dropping records -/

/-- The cold state with only some of the records. -/
def Cold.keep (c : Cold) (q : Connection → Bool) : Cold :=
  { c with connections := c.connections.filter q }

theorem Cold.keep_rowsNodup {c : Cold} (h : c.RowsNodup) (q : Connection → Bool) :
    (c.keep q).RowsNodup :=
  h.sublist (List.filter_sublist.map _)

theorem Cold.conn?_keep {c : Cold} (h : c.RowsNodup) (q : Connection → Bool) (r : Nat) :
    (c.keep q).conn? r = (c.conn? r).filter q := by
  cases hc : c.conn? r with
  | none =>
    rw [filter_none, conn?, find?_eq_none]
    intro a ha
    exact find?_eq_none.1 hc a (mem_filter.1 ha).1
  | some k =>
    have hkmem := mem_of_conn? hc
    have hkrow : k.row = r := conn?_row hc
    by_cases hq : q k = true
    · rw [filter_some_pos hq]
      exact (conn?_eq_some_iff (keep_rowsNodup h q)).2 ⟨mem_filter.2 ⟨hkmem, hq⟩, hkrow⟩
    · rw [filter_some_neg (by simpa using hq), conn?, find?_eq_none]
      intro a ha har
      obtain ⟨ha, hqa⟩ := mem_filter.1 ha
      have hak : a = k := inj_on_of_nodup_map h ha hkmem
        ((by simpa using har : a.row = r).trans hkrow.symm)
      exact hq (hak ▸ hqa)

/-- Dropping records without pads takes no pad away. -/
theorem Cold.pad_keep {c : Cold} (h : c.RowsNodup) {q : Connection → Bool}
    (hdrop : ∀ k ∈ c.connections, q k = false → ∀ i, k.pad i = none) : (c.keep q).pad = c.pad := by
  funext r i
  rw [pad_eq, pad_eq, conn?_keep h]
  cases hc : c.conn? r with
  | none => rfl
  | some k =>
    by_cases hq : q k = true
    · rw [filter_some_pos hq]
    · rw [filter_some_neg (by simpa using hq), bind_some,
        hdrop k (mem_of_conn? hc) (by simpa using hq) i, bind_none]

theorem Connection.activeCount_eq_zero {k : Connection} (h : ∀ i, k.pad i = none) :
    k.activeCount = 0 := by
  have hzero : ctrlIndices.countP (fun i => (k.controllers i).active) = 0 := by
    refine countP_eq_zero.2 fun i hi ha => ?_
    have hpad := Connection.pad_eq_some.2 ⟨mem_ctrlIndices.1 hi, ha, rfl⟩
    rw [h i] at hpad
    cases hpad
  rw [activeCount, hzero]
  rfl

/-- Dropping records whose counter is 0 keeps the total. -/
theorem Cold.activeTotal_keep (c : Cold) {q : Connection → Bool}
    (hdrop : ∀ k ∈ c.connections, q k = false → k.activeControllerCount = 0) :
    (c.keep q).activeTotal = c.activeTotal := by
  have hsum : ∀ l : List Connection, (∀ k ∈ l, q k = false → k.activeControllerCount = 0) →
      ((l.filter q).map Connection.activeControllerCount).sum =
        (l.map Connection.activeControllerCount).sum := by
    intro l
    induction l with
    | nil =>
      intro _
      rfl
    | cons k l ih =>
      intro hl
      have hrest := ih fun a ha => hl a (mem_cons_of_mem _ ha)
      cases hq : q k with
      | true => simp [hq, hrest]
      | false => simp [hq, hrest, hl k (by simp) hq]
  exact hsum c.connections hdrop

/-- Records that were cleared and hold no pad may be dropped. -/
theorem Sound.discard {B : Backend} {v : Topo} {carried : Carried} {dead : List Nat}
    (h : Sound B v carried none dead) (q : Connection → Bool)
    (hkeep : ∀ k ∈ v.cold.connections, q k = true → k.row ∉ dead)
    (hdrop : ∀ k ∈ v.cold.connections, q k = false → k.row ∈ dead ∧ ∀ i, k.pad i = none) :
    Sound B { v with cold := v.cold.keep q } carried none [] := by
  have hsub : ∀ {a}, a ∈ (v.cold.keep q).connections → a ∈ v.cold.connections ∧ q a = true :=
    fun ha => mem_filter.1 ha
  have hnd : ∀ {β : Type} (g : Connection → β), (v.cold.connections.map g).Nodup →
      ((v.cold.keep q).connections.map g).Nodup :=
    fun g hg => hg.sublist (List.filter_sublist.map g)
  have hpads : ∀ k ∈ v.cold.connections, q k = false → ∀ i, k.pad i = none :=
    fun k hk hq => (hdrop k hk hq).2
  -- A slot that only dropped records used is clear.
  have hclear : ∀ slot < maxSessions, (∀ k ∈ (v.cold.keep q).connections, k.slot ≠ slot) →
      SlotClear v.mem slot := by
    intro slot hlt hfree
    by_cases hused : ∃ k ∈ v.cold.connections, k.slot = slot
    · obtain ⟨k, hk, rfl⟩ := hused
      have hq : q k = false := by
        rw [← Bool.not_eq_true]
        exact fun hq => hfree k (mem_filter.2 ⟨hk, hq⟩) rfl
      exact h.dead_clear k hk nofun (hdrop k hk hq).1
    · exact h.clear slot hlt fun k hk hs => hused ⟨k, hk, hs⟩
  constructor
  · have hledger : ({ v with cold := v.cold.keep q } : Topo).ledger = v.ledger := by
      simp only [Topo.ledger, pad_keep h.rows hpads]
      rfl
    rw [hledger]
    exact h.ledger
  · exact keep_rowsNodup h.rows q
  · exact fun k hk => h.row_le k (hsub hk).1
  · exact hnd _ h.tokens
  · exact fun k hk => h.token_range k (hsub hk).1
  · exact hnd _ h.ids
  · exact hnd _ h.devices
  · exact fun k hk => h.slot_lt k (hsub hk).1
  · exact fun a ha b hb => h.slot_inj a (hsub ha).1 b (hsub hb).1
  · refine h.total.trans (activeTotal_keep v.cold fun k hk hq => ?_).symm
    rw [(h.ok k hk nofun).count, Connection.activeCount_eq_zero (hpads k hk hq)]
  · exact fun k hk _ => h.ok k (hsub hk).1 nofun
  · exact fun k hk _ _ => h.shows k (hsub hk).1 nofun (hkeep k (hsub hk).1 (hsub hk).2)
  · exact fun k _ _ hd => absurd hd not_mem_nil
  · exact hclear
  · exact h.owner_form
  · intro s hs slot i hi ho
    obtain ⟨k, hk, rfl⟩ := h.owner_free s hs slot i hi ho
    have hactive := (h.owner_iff k hk nofun s hs i hi).1 ho
    refine ⟨k, mem_filter.2 ⟨hk, ?_⟩, rfl⟩
    by_contra hq
    have hpad := Connection.pad_eq_some.2 hactive
    rw [hpads k hk (by simpa using hq) i] at hpad
    cases hpad
  · exact fun k hk _ => h.owner_iff k (hsub hk).1 nofun
  · exact h.gen
  · exact h.held_row
  · exact h.held_inj
  · exact fun k hk _ _ => h.agrees k (hsub hk).1 nofun (hkeep k (hsub hk).1 (hsub hk).2)

end Satellite
