import Satellite.Topology.Rules

/-!
# The invariant of a topology operation

`Sound` says what holds at every point of an operation where nothing is half
done: the serial ledger balances over the serials the operation carries, every
record but the one being edited is well formed and published, and nothing an
observer saw contradicts a record. Between two operations nothing is carried and
nothing is being edited; that is `Settled`.
-/

namespace Satellite

open List

/-! ## Edits of one record -/

/-- The record of one row was rewritten; the pool and the other records were not touched. -/
structure Cold.Edit (c c' : Cold) (row : Nat) (k' : Connection) : Prop where
  connections : c'.connections = c.connections.map fun k => if k.row == row then k' else k
  serialInUse : c'.serialInUse = c.serialInUse
  serialQuarantined : c'.serialQuarantined = c.serialQuarantined
  serialScanStart : c'.serialScanStart = c.serialScanStart
  nextRow : c'.nextRow = c.nextRow

namespace Cold.Edit

variable {c c' c'' : Cold} {row : Nat} {k k' k'' : Connection}

theorem of_setConn (hc : c.RowsNodup) (hk : c.conn? row = some k) (f : Connection → Connection) :
    c.Edit (c.setConn row f) row (f k) := by
  refine ⟨?_, rfl, rfl, rfl, rfl⟩
  refine map_congr_left fun a ha => ?_
  by_cases hrow : a.row = row
  · have hak : some a = some k := by
      rw [← conn?_of_mem hc ha, hrow, hk]
    rw [Option.some.inj hak]
  · simp [hrow]

theorem trans (h : c.Edit c' row k') (h' : c'.Edit c'' row k'') (hrow : k'.row = row) :
    c.Edit c'' row k'' := by
  refine ⟨?_, h'.serialInUse.trans h.serialInUse, h'.serialQuarantined.trans h.serialQuarantined,
    h'.serialScanStart.trans h.serialScanStart, h'.nextRow.trans h.nextRow⟩
  rw [h'.connections, h.connections, map_map]
  refine map_congr_left fun a _ => ?_
  by_cases ha : a.row = row <;> simp [ha, hrow]

theorem rows (h : c.Edit c' row k') (hrow : k'.row = row) :
    c'.connections.map Connection.row = c.connections.map Connection.row := by
  rw [h.connections, map_map]
  refine map_congr_left fun a _ => ?_
  by_cases ha : a.row = row <;> simp [ha, hrow]

theorem rowsNodup (h : c.Edit c' row k') (hrow : k'.row = row) (hc : c.RowsNodup) :
    c'.RowsNodup := by
  rw [Cold.RowsNodup, h.rows hrow]
  exact hc

theorem conn? (h : c.Edit c' row k') (hrow : k'.row = row) (hk : c.conn? row = some k) (r : Nat) :
    c'.conn? r = if r = row then some k' else c.conn? r := by
  have heq : c'.conn? r = (c.setConn row fun a => if a.row = row then k' else a).conn? r := by
    rw [Cold.conn?, Cold.conn?, h.connections, setConn]
    congr 1
    refine map_congr_left fun a _ => ?_
    by_cases ha : a.row = row <;> simp [ha]
  rw [heq, conn?_setConn _ _ _ (fun a => by by_cases ha : a.row = row <;> simp [ha, hrow])]
  by_cases hr : r = row
  · subst hr
    simp [hk, conn?_row hk]
  · simp [hr]

theorem mem_iff (h : c.Edit c' row k') (hk : c.conn? row = some k) {a : Connection} :
    a ∈ c'.connections ↔ a = k' ∨ a ∈ c.connections ∧ a.row ≠ row := by
  rw [h.connections, mem_map]
  constructor
  · rintro ⟨b, hb, rfl⟩
    by_cases hrow : b.row = row
    · simp [hrow]
    · simp [hrow, hb]
  · rintro (rfl | ⟨ha, hrow⟩)
    · exact ⟨k, mem_of_conn? hk, by simp [conn?_row hk]⟩
    · exact ⟨a, ha, by simp [hrow]⟩

/-- A field that the edit kept reads the same over all records. -/
theorem map_eq {β : Type} (h : c.Edit c' row k') (hc : c.RowsNodup) (hk : c.conn? row = some k)
    (g : Connection → β) (hg : g k' = g k) : c'.connections.map g = c.connections.map g := by
  rw [h.connections, map_map]
  refine map_congr_left fun a ha => ?_
  by_cases hrow : a.row = row
  · have hak : some a = some k := by rw [← conn?_of_mem hc ha, hrow, hk]
    cases hak
    simp [hrow, hg]
  · simp [hrow]

/-- A record may take a token that no record carries. -/
theorem tokens_nodup (h : c.Edit c' row k') (hrows : c.RowsNodup)
    (hc : (c.connections.map Connection.token).Nodup)
    (hfresh : ∀ a ∈ c.connections, a.token ≠ k'.token) :
    (c'.connections.map Connection.token).Nodup := by
  rw [h.connections, map_map]
  refine List.Nodup.map_on (fun a ha b hb hab => ?_) (List.Nodup.of_map _ hrows)
  simp only [Function.comp_apply, beq_iff_eq] at hab
  by_cases har : a.row = row <;> by_cases hbr : b.row = row
  · exact inj_on_of_nodup_map hrows ha hb (har.trans hbr.symm)
  · rw [if_pos har, if_neg hbr] at hab
    exact absurd hab.symm (hfresh b hb)
  · rw [if_neg har, if_pos hbr] at hab
    exact absurd hab (hfresh a ha)
  · rw [if_neg har, if_neg hbr] at hab
    exact inj_on_of_nodup_map hc ha hb hab

end Cold.Edit

/-- The record `k` of one row has become `k'` through a chain of edits. -/
structure Cold.Chain (c c' : Cold) (row : Nat) (k k' : Connection) : Prop where
  nodup : c.RowsNodup
  conn : c.conn? row = some k
  edit : c.Edit c' row k'
  row_eq : k'.row = row

namespace Cold.Chain

variable {c c' : Cold} {row : Nat} {k k' : Connection}

theorem refl (hc : c.RowsNodup) (hk : c.conn? row = some k) : c.Chain c row k k := by
  refine ⟨hc, hk, ⟨?_, rfl, rfl, rfl, rfl⟩, conn?_row hk⟩
  refine ((map_congr_left fun a ha => ?_).trans (map_id _)).symm
  by_cases hrow : a.row = row
  · have hak : some a = some k := by rw [← conn?_of_mem hc ha, hrow, hk]
    cases hak
    simp
  · simp [hrow]

theorem conn' (h : c.Chain c' row k k') : c'.conn? row = some k' := by
  simpa using h.edit.conn? h.row_eq h.conn row

theorem setConn (h : c.Chain c' row k k') {f : Connection → Connection} (hf : (f k').row = k'.row) :
    c.Chain (c'.setConn row f) row k (f k') where
  nodup := h.nodup
  conn := h.conn
  edit := h.edit.trans (.of_setConn (h.edit.rowsNodup h.row_eq h.nodup) h.conn' f) h.row_eq
  row_eq := hf.trans h.row_eq

theorem trans {c'' : Cold} {k'' : Connection} (h : c.Chain c' row k k')
    (h' : c'.Chain c'' row k' k'') : c.Chain c'' row k k'' where
  nodup := h.nodup
  conn := h.conn
  edit := h.edit.trans h'.edit h.row_eq
  row_eq := h'.row_eq

/-- The stamp counters are not part of any record. -/
theorem counters (h : c.Chain c' row k k') (plugGen stamp : Nat) :
    c.Chain { c' with nextPlugGen := plugGen, nextPointerStamp := stamp } row k k' :=
  { h with edit := { h.edit with } }

end Cold.Chain

/-! ## Records -/

namespace Connection

/-- The serial that controller `i` is active with. -/
def pad (k : Connection) (i : Nat) : Option Nat :=
  if i < 16 ∧ (k.controllers i).active then some (k.controllers i).serialNo else none

theorem pad_eq_some {k : Connection} {i s : Nat} : k.pad i = some s ↔ k.Active i s := by
  simp [pad, Active, and_assoc]

/-- How many controllers are active. -/
def activeCount (k : Connection) : Int := ctrlIndices.countP fun i => (k.controllers i).active

/-- A record as the service keeps it. -/
structure Ok (k : Connection) : Prop where
  identity : ∀ i < 16, (k.controllers i).active = true →
    (k.controllers i).identity = controllerIdentity (k.controllers i).controllerType ∧
    (k.controllers i).controllerType < controllerTypeCount ∧ (k.controllers i).index = i
  inactive : ∀ i < 16, (k.controllers i).active = false → (k.controllers i).serialNo = 0
  count : k.activeControllerCount = k.activeCount

/-- Nothing seen of the record's row contradicts it: what carries its epoch agrees with it. -/
def Agrees (k : Connection) (held : List Held) : Prop :=
  ∀ h ∈ held, h.row = k.row → h.epoch ≤ k.epoch ∧ (h.epoch = k.epoch → h.types = k.types)

end Connection

theorem Cold.pad_eq (c : Cold) (row i : Nat) : c.pad row i = (c.conn? row).bind fun k => k.pad i :=
  rfl

/-- The serial account of a state. -/
def Topo.ledger (v : Topo) : Ledger where
  pad := v.cold.pad
  inUse := v.cold.serialInUse
  quarantined := v.cold.serialQuarantined
  calls := v.calls
  bus := v.bus

/-- The sum of the active counters of all records. -/
def Cold.activeTotal (c : Cold) : Int := (c.connections.map Connection.activeControllerCount).sum

theorem Cold.Edit.activeTotal {c c' : Cold} {row : Nat} {k k' : Connection}
    (h : c.Edit c' row k') (hc : c.RowsNodup) (hk : c.conn? row = some k) :
    c'.activeTotal = c.activeTotal + (k'.activeControllerCount - k.activeControllerCount) := by
  obtain ⟨l₁, l₂, hl⟩ := append_of_mem (Cold.mem_of_conn? hk)
  have hrow := Cold.conn?_row hk
  have hnd : ((l₁ ++ k :: l₂).map Connection.row).Nodup := hl ▸ hc
  have hother : ∀ a ∈ l₁ ++ l₂, a.row ≠ row := by
    intro a ha har
    have hperm : (l₁ ++ k :: l₂).Perm (k :: (l₁ ++ l₂)) := perm_middle
    have hcons := (hperm.map Connection.row).nodup_iff.1 hnd
    rw [map_cons, nodup_cons] at hcons
    exact hcons.1 (List.mem_map.2 ⟨a, ha, har.trans hrow.symm⟩)
  have hkeep : ∀ l : List Connection, (∀ a ∈ l, a.row ≠ row) →
      (l.map fun a => if a.row == row then k' else a) = l := by
    intro l hrows
    refine (map_congr_left fun a ha => ?_).trans (map_id l)
    simp [hrows a ha]
  rw [Cold.activeTotal, Cold.activeTotal, h.connections, hl, map_append, map_cons,
    hkeep l₁ fun a ha => hother a (mem_append_left _ ha),
    hkeep l₂ fun a ha => hother a (mem_append_right _ ha)]
  simp only [hrow, beq_self_eq_true, if_true, map_append, map_cons, sum_append,
    sum_cons]
  omega

/-! ## The invariant -/

/-- What holds at every point of an operation that carries the serials `carried`, edits the
record `stale` and has cleared the records `dead`. -/
structure Sound (B : Backend) (v : Topo) (carried : Carried) (stale : Option Nat)
    (dead : List Nat) : Prop where
  ledger : v.ledger.Balanced B.Steady carried
  rows : v.cold.RowsNodup
  row_le : ∀ k ∈ v.cold.connections, k.row ≤ v.cold.nextRow
  tokens : (v.cold.connections.map Connection.token).Nodup
  token_range : ∀ k ∈ v.cold.connections, 1 ≤ k.token ∧ k.token < 2 ^ 32
  ids : (v.cold.connections.map Connection.connectionId).Nodup
  devices : (v.cold.connections.map Connection.deviceId).Nodup
  slot_lt : ∀ k ∈ v.cold.connections, k.slot < maxSessions
  slot_inj : ∀ k ∈ v.cold.connections, ∀ k' ∈ v.cold.connections, k.slot = k'.slot → k.row = k'.row
  total : v.activePads = v.cold.activeTotal
  ok : ∀ k ∈ v.cold.connections, stale ≠ some k.row → k.Ok
  shows : ∀ k ∈ v.cold.connections, stale ≠ some k.row → k.row ∉ dead → SlotShows v.mem k
  dead_clear : ∀ k ∈ v.cold.connections, stale ≠ some k.row → k.row ∈ dead → SlotClear v.mem k.slot
  clear : ∀ slot < maxSessions, (∀ k ∈ v.cold.connections, k.slot ≠ slot) → SlotClear v.mem slot
  owner_form : ∀ s ∈ serials, v.mem (.padOwner s) = 0 ∨
    ∃ slot i, i < 16 ∧ v.mem (.padOwner s) = hotPadOwner slot i
  owner_free : ∀ s ∈ serials, ∀ slot i, i < 16 → v.mem (.padOwner s) = hotPadOwner slot i →
    ∃ k ∈ v.cold.connections, k.slot = slot
  owner_iff : ∀ k ∈ v.cold.connections, stale ≠ some k.row → ∀ s ∈ serials, ∀ i, i < 16 →
    (v.mem (.padOwner s) = hotPadOwner k.slot i ↔ k.Active i s)
  gen : ∀ slot, v.mem (.gen slot) % 2 = if v.writing.map Prod.fst = some slot then 1 else 0
  held_row : ∀ h ∈ v.held, h.row ≤ v.cold.nextRow
  held_inj : ∀ h ∈ v.held, ∀ h' ∈ v.held, h.row = h'.row → h.epoch = h'.epoch → h.types = h'.types
  agrees : ∀ k ∈ v.cold.connections, stale ≠ some k.row → k.row ∉ dead → k.Agrees v.held

namespace Sound

variable {B : Backend} {v : Topo} {carried : Carried} {stale : Option Nat} {dead : List Nat}
  {row : Nat} {k : Connection}

/-- A record may be set aside for editing. -/
theorem edit_row (h : Sound B v carried none dead) (row : Nat) :
    Sound B v carried (some row) dead :=
  { h with
    ok := fun k hk _ => h.ok k hk nofun
    shows := fun k hk _ => h.shows k hk nofun
    dead_clear := fun k hk _ => h.dead_clear k hk nofun
    owner_iff := fun k hk _ => h.owner_iff k hk nofun
    agrees := fun k hk _ => h.agrees k hk nofun }

/-- An edit of the record that is set aside, with the serials it moves. -/
theorem edit {c' : Cold} {k' : Connection} {carried' : Carried} {activePads : Int}
    (h : Sound B v carried (some row) dead) (hk : v.cold.conn? row = some k)
    (he : v.cold.Edit c' row k') (hrow : k'.row = k.row)
    (htok : k'.token = k.token ∨ (1 ≤ k'.token ∧ k'.token < 2 ^ 32) ∧
      ∀ a ∈ v.cold.connections, a.token ≠ k'.token)
    (hid : k'.connectionId = k.connectionId) (hdev : k'.deviceId = k.deviceId)
    (hslot : k'.slot = k.slot)
    (hpads : activePads =
      v.activePads + (k'.activeControllerCount - k.activeControllerCount))
    (hledger : ({ v with cold := c' } : Topo).ledger.Balanced B.Steady carried') :
    Sound B { v with cold := c', activePads := activePads } carried' (some row) dead := by
  have hkrow := Cold.conn?_row hk
  have hkmem := Cold.mem_of_conn? hk
  have hmem := @Cold.Edit.mem_iff _ _ _ _ _ he hk
  -- Whatever holds of every record by a field the edit kept still does.
  have hall : ∀ P : Connection → Prop, (P k → P k') → (∀ a ∈ v.cold.connections, P a) →
      ∀ a ∈ c'.connections, P a := by
    intro P hP hold a ha
    rcases hmem.1 ha with rfl | ⟨ha, -⟩
    · exact hP (hold k hkmem)
    · exact hold a ha
  have hrest : ∀ a ∈ c'.connections, some row ≠ some a.row → a ∈ v.cold.connections := by
    intro a ha hne
    rcases hmem.1 ha with rfl | ⟨ha, -⟩
    · exact absurd (by rw [hrow, hkrow]) hne
    · exact ha
  have hslots : ∀ slot, (∃ a ∈ c'.connections, a.slot = slot) ↔
      ∃ a ∈ v.cold.connections, a.slot = slot := by
    intro slot
    have hm := he.map_eq h.rows hk Connection.slot hslot
    rw [← mem_map, hm, mem_map]
  constructor
  · exact hledger
  · exact he.rowsNodup (hrow.trans hkrow) h.rows
  · have := hall (fun a => a.row ≤ v.cold.nextRow) (fun hle => hrow ▸ hle) h.row_le
    simpa only [he.nextRow] using this
  · rcases htok with htok | ⟨-, hfresh⟩
    · have hm := he.map_eq h.rows hk Connection.token htok
      simpa only [hm] using h.tokens
    · exact he.tokens_nodup h.rows h.tokens hfresh
  · refine hall (fun a => 1 ≤ a.token ∧ a.token < 2 ^ 32) (fun ht => ?_) h.token_range
    rcases htok with htok | ⟨hrange, -⟩
    · exact htok ▸ ht
    · exact hrange
  · have hm := he.map_eq h.rows hk Connection.connectionId hid
    simpa only [hm] using h.ids
  · have hm := he.map_eq h.rows hk Connection.deviceId hdev
    simpa only [hm] using h.devices
  · exact hall (fun a => a.slot < maxSessions) (fun hs => hslot ▸ hs) h.slot_lt
  · intro a ha a' ha' hs
    rcases hmem.1 ha with rfl | ⟨ha, -⟩ <;> rcases hmem.1 ha' with rfl | ⟨ha', -⟩
    · rfl
    · exact hrow.trans (h.slot_inj k hkmem a' ha' (hslot.symm.trans hs))
    · exact (h.slot_inj a ha k hkmem (hs.trans hslot)).trans hrow.symm
    · exact h.slot_inj a ha a' ha' hs
  · rw [he.activeTotal h.rows hk, hpads, h.total]
  · exact fun a ha hne => h.ok a (hrest a ha hne) hne
  · exact fun a ha hne => h.shows a (hrest a ha hne) hne
  · exact fun a ha hne => h.dead_clear a (hrest a ha hne) hne
  · intro slot hlt hfree
    refine h.clear slot hlt fun a ha hs => ?_
    obtain ⟨b, hb, hbs⟩ := (hslots slot).2 ⟨a, ha, hs⟩
    exact hfree b hb hbs
  · exact h.owner_form
  · exact fun s hs slot i hi ho => (hslots slot).2 (h.owner_free s hs slot i hi ho)
  · exact fun a ha hne => h.owner_iff a (hrest a ha hne) hne
  · exact h.gen
  · simpa only [he.nextRow] using h.held_row
  · exact h.held_inj
  · exact fun a ha hne => h.agrees a (hrest a ha hne) hne

/-- What holds of the record set aside and of the others holds of every record. -/
theorem forall_of_rest (h : Sound B v carried (some row) dead) (hk : v.cold.conn? row = some k)
    {P : Connection → Prop} (hP : P k)
    (hrest : ∀ a ∈ v.cold.connections, some row ≠ some a.row → P a) :
    ∀ a ∈ v.cold.connections, P a := by
  intro a ha
  by_cases he : some row = some a.row
  · have hak := Cold.conn?_of_mem h.rows ha
    rw [← Option.some.inj he, hk] at hak
    exact Option.some.inj hak ▸ hP
  · exact hrest a ha he

/-- The edited record is well formed and published again. -/
theorem done (h : Sound B v carried (some row) dead) (hk : v.cold.conn? row = some k) (hok : k.Ok)
    (hshows : SlotShows v.mem k)
    (howner : ∀ s ∈ serials, ∀ i, i < 16 → (v.mem (.padOwner s) = hotPadOwner k.slot i ↔ k.Active i s))
    (hagrees : k.Agrees v.held) (hdead : row ∉ dead) : Sound B v carried none dead := by
  have hkrow := Cold.conn?_row hk
  exact { h with
    ok := fun a ha _ => h.forall_of_rest hk hok h.ok a ha
    shows := fun a ha _ => h.forall_of_rest hk (fun _ => hshows) h.shows a ha
    dead_clear := fun a ha _ =>
      h.forall_of_rest hk (fun hd => absurd (hkrow ▸ hd) hdead) h.dead_clear a ha
    owner_iff := fun a ha _ => h.forall_of_rest hk howner h.owner_iff a ha
    agrees := fun a ha _ => h.forall_of_rest hk (fun _ => hagrees) h.agrees a ha }

/-- A change of the pool alone. -/
theorem pool {c' : Cold} {carried' : Carried} (h : Sound B v carried stale dead)
    (hconn : c'.connections = v.cold.connections) (hrow : c'.nextRow = v.cold.nextRow)
    (hledger : ({ v with cold := c' } : Topo).ledger.Balanced B.Steady carried') :
    Sound B { v with cold := c' } carried' stale dead := by
  obtain ⟨conns, inUse, quarantined, start, plugGen, nextRow, stamp⟩ := c'
  simp only at hconn hrow
  subst hconn hrow
  exact { h with ledger := hledger }

end Sound

/-- An operation that does not hold `mtx_` and carries the serials `carried`. -/
structure Running (B : Backend) (v : Topo) (carried : Carried) : Prop where
  unlocked : v.locked = false
  closed : v.writing = none
  sound : Sound B v carried none []

/-- An operation that holds `mtx_` with nothing half done. -/
structure Holding (B : Backend) (v : Topo) (carried : Carried) : Prop where
  locked : v.locked = true
  closed : v.writing = none
  sound : Sound B v carried none []

/-- The state between two operations. -/
abbrev Settled (B : Backend) (v : Topo) : Prop := Running B v []

end Satellite
