import Satellite.Topology.Converge

/-!
# Minting a session

A record that joins the map takes a slot, an id, a row and a token that no record
has. There is always a token and an id left: the slots bound the number of
records. A minted record has no pad, so joining moves no serial.
-/

namespace Satellite

open List Connection

/-! ## Values that are still free -/

/-- Fewer values are taken than an injective enumeration offers. -/
theorem exists_untaken {α : Type} {f : Nat → α} {n : Nat}
    (hf : ∀ a < n, ∀ b < n, f a = f b → a = b) (taken : List α) (hlen : taken.length < n) :
    ∃ a < n, f a ∉ taken := by
  by_contra hall
  push Not at hall
  have hnd : ((List.range n).map f).Nodup := by
    apply List.Nodup.map_on _ nodup_range
    intro a ha b hb hab
    exact hf a (mem_range.1 ha) b (mem_range.1 hb) hab
  have hsub : (List.range n).map f ⊆ taken := by
    intro x hx
    obtain ⟨a, ha, rfl⟩ := mem_map.1 hx
    exact hall a (mem_range.1 ha)
  have hle := (subperm_of_subset hnd hsub).length_le
  rw [length_map, length_range] at hle
  omega

/-- The slots bound the number of records. -/
theorem Sound.length_le {B : Backend} {v : Topo} {carried : Carried} {stale : Option Nat}
    {dead : List Nat} (h : Sound B v carried stale dead) : v.cold.connections.length ≤ 32 := by
  have hnd : (v.cold.connections.map slot).Nodup := by
    apply List.Nodup.map_on _ (List.Nodup.of_map _ h.rows)
    intro a ha b hb hab
    exact inj_on_of_nodup_map h.rows ha hb (h.slot_inj a ha b hb hab)
  have hsub : v.cold.connections.map slot ⊆ List.range maxSessions := by
    intro slot hslot
    obtain ⟨k, hk, rfl⟩ := mem_map.1 hslot
    exact mem_range.2 (h.slot_lt k hk)
  have hle := (subperm_of_subset hnd hsub).length_le
  simpa using hle

namespace SessionService

theorem hexDigits_inj {a b : Nat} (ha : a < 16) (hb : b < 16)
    (h : hexDigits.getD a '0' = hexDigits.getD b '0') : a = b := by
  have hnd : hexDigits.Nodup := by decide
  have hlen : hexDigits.length = 16 := by decide
  rw [getD_eq_getElem _ _ (by omega), getD_eq_getElem _ _ (by omega)] at h
  exact (hnd.getElem_inj_iff).1 h

/-- Eight hexadecimal digits determine a 32-bit value. -/
theorem hexEncodeBE32_inj {a b : Nat} (ha : a < 2 ^ 32) (hb : b < 2 ^ 32)
    (h : hexEncodeBE32 a = hexEncodeBE32 b) : a = b := by
  have hdigit : ∀ d < 8, a / 16 ^ d % 16 = b / 16 ^ d % 16 := by
    intro d hd
    have hlist := String.ofList_injective h
    rw [map_inj_left] at hlist
    have hmem : d ∈ (List.range 8).reverse := by simpa using hd
    exact hexDigits_inj (Nat.mod_lt _ (by decide)) (Nat.mod_lt _ (by decide)) (hlist d hmem)
  have h0 := hdigit 0 (by decide)
  have h1 := hdigit 1 (by decide)
  have h2 := hdigit 2 (by decide)
  have h3 := hdigit 3 (by decide)
  have h4 := hdigit 4 (by decide)
  have h5 := hdigit 5 (by decide)
  have h6 := hdigit 6 (by decide)
  have h7 := hdigit 7 (by decide)
  omega

theorem connectionId_inj {a b : Nat} (ha : a < 2 ^ 32) (hb : b < 2 ^ 32)
    (h : "conn_" ++ hexEncodeBE32 a = "conn_" ++ hexEncodeBE32 b) : a = b := by
  apply hexEncodeBE32_inj ha hb
  have hlist := congrArg String.toList h
  rw [String.toList_append, String.toList_append] at hlist
  exact String.toList_injective (append_cancel_left hlist)

variable {B : Backend} {v : Topo} {carried : Carried}

/-! ## Drawing them -/

/-- No record has the slot. -/
def SlotFree (v : Topo) (slot : Nat) : Prop :=
  slot < maxSessions ∧ ∀ k ∈ v.cold.connections, k.slot ≠ slot

/-- A slot is free exactly when its entry of the packed table is 0. -/
theorem packed_eq_zero_iff (h : Holding B v carried) {slot : Nat} (hslot : slot < maxSessions) :
    v.mem (.packed slot) = 0 ↔ SlotFree v slot := by
  constructor
  · intro hzero
    refine ⟨hslot, fun k hk he => ?_⟩
    have hshows := (h.sound.shows k hk nofun not_mem_nil).packed
    have htoken := (h.sound.token_range k hk).1
    rw [he, hzero] at hshows
    omega
  · intro hfree
    exact (h.sound.clear slot hslot hfree.2).packed

theorem wp_findFree (h : Holding B v carried) {Q : Option Nat → Topo → Prop}
    (hQ : ∀ o, (∀ slot, o = some slot → SlotFree v slot) →
      (o = none → ∀ slot, ¬ SlotFree v slot) → Q o v) :
    (topoMachine B).wp findFree Q v := by
  refine Machine.wp_firstOf (fun done t => t = v ∧ ∀ slot ∈ done, ¬ SlotFree v slot) Q
    ⟨rfl, nofun⟩ ?_ ?_
  · rintro done slot rest t hsplit ⟨rfl, hdone⟩
    have hslot : slot < maxSessions := by
      apply mem_range.1
      rw [hsplit]
      simp
    have hiff := packed_eq_zero_iff h hslot
    rw [wp_bind', wp_load_owned rfl, wp_ite]
    split
    next hzero =>
      have hgen : t.mem (.gen slot) % 2 = 0 := by
        rw [h.sound.gen slot, h.closed]
        rfl
      rw [wp_bind', wp_load_owned rfl, if_pos hgen, wp_pure]
      refine hQ _ (fun s hs => ?_) nofun
      rw [← Option.some.inj hs]
      exact hiff.1 hzero
    next hne =>
      refine ⟨rfl, fun s hs => ?_⟩
      rcases mem_append.1 hs with hs | hs
      · exact hdone s hs
      · rw [mem_singleton.1 hs]
        exact fun hfree => hne (hiff.2 hfree)
  · rintro t ⟨rfl, hdone⟩
    apply hQ none nofun
    exact fun _ slot hfree => hdone slot (mem_range.2 hfree.1) hfree

/-- Draw random values until one of them serves. -/
theorem wp_draw {β : Type} {g : Nat → Cold → Option β} (h : Holding B v carried)
    (hserves : ∃ n b, (1 ≤ n ∧ n < 2 ^ 32) ∧ g n v.cold = some b) {Q : β → Topo → Prop}
    (hQ : ∀ n b, 1 ≤ n ∧ n < 2 ^ 32 → g n v.cold = some b → Q b v) :
    (topoMachine B).wp (Prog.loop do
      let n ← random
      let c ← cold
      pure (g n c)) Q v := by
  refine Machine.wp_loop (fun t => t = v) rfl ?_ ?_
  · rintro - t rfl
    obtain ⟨n, b, hn, hb⟩ := hserves
    have hret : (topoMachine B).Exec (Prog.ret (g n t.cold)) t (some b) t := by
      rw [hb]
      exact .ret _ _
    have hrandom : (topoMachine B).step .random t n t := ⟨hn, rfl⟩
    have hcold : (topoMachine B).step .cold t t.cold t := ⟨rfl, rfl⟩
    exact ⟨b, t, .op hrandom (.op hcold hret)⟩
  · rintro t rfl
    rw [wp_bind', wp_random]
    intro n hn
    rw [wp_bind', wp_cold h.locked, wp_pure]
    cases hb : g n t.cold with
    | none => rfl
    | some b => exact hQ n b hn hb

/-- A token that no record carries. -/
def TokenFree (v : Topo) (token : Nat) : Prop :=
  (1 ≤ token ∧ token < 2 ^ 32) ∧ ∀ k ∈ v.cold.connections, k.token ≠ token

theorem exists_tokenFree (h : Holding B v carried) : ∃ token, TokenFree v token := by
  have hlen := h.sound.length_le
  obtain ⟨n, hn, hfresh⟩ := exists_untaken (f := (· + 1)) (n := 33)
    (fun a _ b _ hab => Nat.succ.inj hab) (v.cold.connections.map token)
    (by rw [length_map]; omega)
  refine ⟨n + 1, ⟨by omega, by omega⟩, fun k hk he => hfresh ?_⟩
  rw [← he]
  exact mem_map_of_mem hk

theorem wp_generateUniqueToken (h : Holding B v carried) {Q : Nat → Topo → Prop}
    (hQ : ∀ token, TokenFree v token → Q token v) :
    (topoMachine B).wp generateUniqueToken Q v := by
  have hfree : ∀ n b, (if (v.cold.connections.any fun k => k.token == n) then none else some n) =
      some b ↔ (∀ k ∈ v.cold.connections, k.token ≠ n) ∧ n = b := by
    intro n b
    split <;> simp_all
  refine wp_draw h ?_ ?_
  · obtain ⟨token, hrange, hnone⟩ := exists_tokenFree h
    exact ⟨token, token, hrange, (hfree _ _).2 ⟨hnone, rfl⟩⟩
  · intro n b hrange hb
    obtain ⟨hnone, rfl⟩ := (hfree n b).1 hb
    exact hQ n ⟨hrange, hnone⟩

/-- An id that no record has. -/
def IdFree (v : Topo) (id : String) : Prop := ∀ k ∈ v.cold.connections, k.connectionId ≠ id

theorem wp_connectionId (h : Holding B v carried) {Q : String → Topo → Prop}
    (hQ : ∀ id, IdFree v id → Q id v) :
    (topoMachine B).wp (Prog.loop do
      let n ← random
      let c ← cold
      let id := "conn_" ++ hexEncodeBE32 n
      pure (if (c.findByConnectionId id).isSome then none else some id)) Q v := by
  have hfree : ∀ id b, (if (v.cold.findByConnectionId id).isSome then none else some id) =
      some b ↔ IdFree v id ∧ id = b := by
    intro id b
    simp [Cold.findByConnectionId, IdFree]
  refine wp_draw h ?_ ?_
  · have hlen := h.sound.length_le
    obtain ⟨n, hn, hnone⟩ := exists_untaken (f := fun n => "conn_" ++ hexEncodeBE32 (n + 1))
      (n := 33) (fun a ha b hb hab => Nat.succ.inj (connectionId_inj (by omega) (by omega) hab))
      (v.cold.connections.map connectionId) (by rw [length_map]; omega)
    refine ⟨n + 1, _, ⟨by omega, by omega⟩, (hfree _ _).2 ⟨fun k hk he => hnone ?_, rfl⟩⟩
    rw [← he]
    exact mem_map_of_mem hk
  · intro n b _ hb
    obtain ⟨hid, rfl⟩ := (hfree _ b).1 hb
    exact hQ _ hid

/-! ## A record that is not in the map yet -/

/-- A new record: nothing in the state has its row, slot, id or device, and it has no pad. -/
structure Fresh (v : Topo) (k : Connection) : Prop where
  row_le : k.row ≤ v.cold.nextRow
  rows : ∀ a ∈ v.cold.connections, a.row < k.row
  held : ∀ x ∈ v.held, x.row < k.row
  slot : SlotFree v k.slot
  id : IdFree v k.connectionId
  device : ∀ a ∈ v.cold.connections, a.deviceId ≠ k.deviceId
  pads : k.controllers = fun _ => {}
  count : k.activeControllerCount = 0

variable {k : Connection}

/-- A record stays new while the map does not change and observers see only what is in it. -/
theorem Fresh.later {v' : Topo} (h : Fresh v k)
    (hconn : v'.cold.connections = v.cold.connections) (hrow : v'.cold.nextRow = v.cold.nextRow)
    (hheld : ∀ x ∈ v'.held, x ∈ v.held ∨ x ∈ v.seenCold) : Fresh v' k where
  row_le := by
    rw [hrow]
    exact h.row_le
  rows := by
    rw [hconn]
    exact h.rows
  held x hx := by
    rcases hheld x hx with hx | hx
    · exact h.held x hx
    · obtain ⟨a, ha, rfl⟩ := mem_map.1 hx
      exact h.rows a ha
  slot := by
    rw [SlotFree, hconn]
    exact h.slot
  id := by
    rw [IdFree, hconn]
    exact h.id
  device := by
    rw [hconn]
    exact h.device
  pads := h.pads
  count := h.count

/-- The counter of rows was advanced. -/
def rowTaken (v : Topo) : Topo :=
  { v with cold := { v.cold with nextRow := v.cold.nextRow + 1 } }

theorem holding_rowTaken (h : Holding B v carried) : Holding B (rowTaken v) carried where
  locked := h.locked
  closed := h.closed
  sound := { h.sound with
    row_le := fun k hk => (h.sound.row_le k hk).trans (Nat.le_succ _)
    held_row := fun x hx => (h.sound.held_row x hx).trans (Nat.le_succ _) }

theorem wp_reserveSession {deviceId : String} (h : Holding B v carried)
    (hdev : ∀ a ∈ v.cold.connections, a.deviceId ≠ deviceId) {Q : Option Connection → Topo → Prop}
    (hnone : (∀ slot, ¬ SlotFree v slot) → Q none v)
    (hsome : ∀ k, Fresh (rowTaken v) k → k.deviceId = deviceId → Q (some k) (rowTaken v)) :
    (topoMachine B).wp (reserveSessionLocked deviceId) Q v := by
  unfold reserveSessionLocked
  rw [wp_bind']
  refine wp_findFree h fun slot hslot hfull => ?_
  cases slot with
  | none => exact hnone (hfull rfl)
  | some slot =>
    simp only [wp_bind']
    refine wp_connectionId h fun id hid => ?_
    refine (wp_modify h.locked).2 ((wp_cold (by exact h.locked)).2 ?_)
    rw [wp_now]
    intro connectedAt
    refine hsome _ ⟨Nat.le_refl _, ?_, ?_, hslot slot rfl, hid, hdev, rfl, rfl⟩ rfl
    · exact fun a ha => Nat.lt_succ_of_le (h.sound.row_le a ha)
    · exact fun x hx => Nat.lt_succ_of_le (h.sound.held_row x hx)

theorem wp_mintSessionKey {derive : Key → Salt → Nat → Key} {pairingKey : Key} {row : Connection}
    (h : Holding B v carried) {Q : SessionMint → Topo → Prop}
    (hQ : ∀ mint, TokenFree v mint.token → mint.row = row →
      mint.key = derive pairingKey mint.salt mint.token → Q mint v) :
    (topoMachine B).wp (mintSessionKeyLocked derive pairingKey row) Q v := by
  unfold mintSessionKeyLocked
  rw [wp_bind']
  refine wp_generateUniqueToken h fun token htoken => ?_
  rw [wp_bind', wp_random]
  intro salt0 _
  rw [wp_bind', wp_random]
  intro salt1 _
  exact hQ _ htoken rfl rfl

/-! ## Joining the map -/

/-- The record joins the map. -/
def joined (v : Topo) (k : Connection) : Topo :=
  { v with cold := { v.cold with connections := v.cold.connections ++ [k] } }

theorem mem_joined {a : Connection} :
    a ∈ (joined v k).cold.connections ↔ a ∈ v.cold.connections ∨ a = k := by
  simp [joined]

theorem Fresh.conn?_joined (h : Fresh v k) (r : Nat) :
    (joined v k).cold.conn? r = if r = k.row then some k else v.cold.conn? r := by
  rw [Cold.conn?, joined, find?_append]
  by_cases hr : r = k.row
  · have hnone : v.cold.connections.find? (fun a => a.row == r) = none := by
      rw [find?_eq_none]
      intro a ha
      have hlt := h.rows a ha
      simp only [beq_iff_eq]
      omega
    rw [hnone, if_pos hr]
    simp [hr]
  · have hsingle : [k].find? (fun a => a.row == r) = none := by
      simp [Ne.symm hr]
    rw [hsingle, if_neg hr, Option.or_none, Cold.conn?]

theorem Fresh.pad_joined (h : Fresh v k) (r i : Nat) :
    (joined v k).cold.pad r i = v.cold.pad r i := by
  rw [Cold.pad_eq, Cold.pad_eq, h.conn?_joined]
  by_cases hr : r = k.row
  · have hnone : v.cold.conn? r = none := by
      rw [Cold.conn?, find?_eq_none]
      intro a ha
      have hlt := h.rows a ha
      simp only [beq_iff_eq]
      omega
    rw [if_pos hr, hnone]
    simp [pad, h.pads]
  · rw [if_neg hr]

/-- A list without a value stays without duplicates when the value joins it. -/
theorem nodup_map_joined {β : Type} {f : Connection → β}
    (h : (v.cold.connections.map f).Nodup) (hk : ∀ a ∈ v.cold.connections, f a ≠ f k) :
    ((joined v k).cold.connections.map f).Nodup := by
  rw [joined, map_append, nodup_append]
  refine ⟨h, by simp, ?_⟩
  intro x hx y hy
  obtain ⟨a, ha, rfl⟩ := mem_map.1 hx
  have hyk : y = f k := by simpa using hy
  rw [hyk]
  exact hk a ha

/-- A new record joins as the one being edited. -/
theorem sound_joined (h : Sound B v carried none []) (hk : Fresh v k)
    (htok : TokenFree v k.token) : Sound B (joined v k) carried (some k.row) [] := by
  -- What holds of the old records and of the new one holds of all.
  have hall : ∀ P : Connection → Prop, (∀ a ∈ v.cold.connections, P a) → P k →
      ∀ a ∈ (joined v k).cold.connections, P a := by
    intro P hold hnew a ha
    rcases mem_joined.1 ha with ha | rfl
    · exact hold a ha
    · exact hnew
  have hrest : ∀ a ∈ (joined v k).cold.connections, some k.row ≠ some a.row →
      a ∈ v.cold.connections := by
    intro a ha hne
    rcases mem_joined.1 ha with ha | rfl
    · exact ha
    · exact absurd rfl hne
  constructor
  · have hpad : (joined v k).cold.pad = v.cold.pad := by
      ext r i : 2
      exact hk.pad_joined r i
    have hledger : (joined v k).ledger = v.ledger := by
      simp only [Topo.ledger, hpad]
      rfl
    rw [hledger]
    exact h.ledger
  · exact nodup_map_joined h.rows fun a ha => Nat.ne_of_lt (hk.rows a ha)
  · exact hall _ h.row_le hk.row_le
  · exact nodup_map_joined h.tokens htok.2
  · exact hall _ h.token_range htok.1
  · exact nodup_map_joined h.ids hk.id
  · exact nodup_map_joined h.devices hk.device
  · exact hall _ h.slot_lt hk.slot.1
  · intro a ha b hb hab
    rcases mem_joined.1 ha with ha' | ha' <;> rcases mem_joined.1 hb with hb' | hb'
    · exact h.slot_inj a ha' b hb' hab
    · rw [hb'] at hab
      exact absurd hab (hk.slot.2 a ha')
    · rw [ha'] at hab
      exact absurd hab.symm (hk.slot.2 b hb')
    · rw [ha', hb']
  · show v.activePads = _
    rw [h.total, Cold.activeTotal, Cold.activeTotal, joined, map_append, sum_append]
    simp [hk.count]
  · exact fun a ha hne => h.ok a (hrest a ha hne) (by simp)
  · exact fun a ha hne => h.shows a (hrest a ha hne) (by simp)
  · exact fun a ha hne => h.dead_clear a (hrest a ha hne) (by simp)
  · intro slot hslot hfree
    exact h.clear slot hslot fun a ha => hfree a (mem_joined.2 (.inl ha))
  · exact h.owner_form
  · intro s hs slot i hi ho
    obtain ⟨a, ha, hslot⟩ := h.owner_free s hs slot i hi ho
    exact ⟨a, mem_joined.2 (.inl ha), hslot⟩
  · exact fun a ha hne => h.owner_iff a (hrest a ha hne) (by simp)
  · exact h.gen
  · exact h.held_row
  · exact h.held_inj
  · exact fun a ha hne => h.agrees a (hrest a ha hne) (by simp)

theorem editing_joined (h : Holding B v carried) (hk : Fresh v k)
    (htok : TokenFree v k.token) : Editing B (joined v k) k.row k carried where
  locked := h.locked
  closed := h.closed
  sound := sound_joined h.sound hk htok
  conn := by rw [hk.conn?_joined, if_pos rfl]
  ok := by
    refine ⟨?_, ?_, ?_⟩
    · intro i _ ha
      rw [hk.pads] at ha
      cases ha
    · intro i _ _
      rw [hk.pads]
    · rw [hk.count, activeCount, hk.pads]
      simp
  agrees x hx hrow := absurd hrow (Nat.ne_of_lt (hk.held x hx))

end SessionService

end Satellite
