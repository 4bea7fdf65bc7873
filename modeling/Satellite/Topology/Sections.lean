import Satellite.Topology.Restore

/-!
# Locked sections

A section that holds `mtx_` starts and ends with the invariant, and what it
leaves is what observers see next. The publications of a section are here: the
controllers of a record whose key stays, a record with a new key, and the
clearing of a record that goes away.
-/

namespace Satellite

open Function List Cold Machine

/-- The state once `mtx_` is released. -/
def Topo.release (v : Topo) : Topo := { v with locked := false, held := v.seenCold ++ v.held }

variable {carried : Carried}

variable {B : Backend} {v : Topo}

/-- The invariant implies that the published words are the projection of the records. -/
theorem Sound.published
    (h : Sound B v carried none []) : v.Published :=
  { h with
    shows k hk := h.shows k hk nofun not_mem_nil
    owner_iff s hs slot i hi := by
      constructor
      · intro ho
        obtain ⟨k, hk, rfl⟩ := h.owner_free s hs slot i hi ho
        exact ⟨k, hk, rfl, (h.owner_iff k hk nofun s hs i hi).1 ho⟩
      · rintro ⟨k, hk, rfl, ha⟩
        exact (h.owner_iff k hk nofun s hs i hi).2 ha }

theorem Running.acquire (h : Running B v carried) :
    Holding B { v with locked := true } carried :=
  ⟨rfl, h.closed, { h.sound with }⟩

theorem Holding.release (h : Holding B v carried) :
    Running B v.release carried := by
  refine ⟨rfl, h.closed, ?_⟩
  have hseen : ∀ x ∈ v.seenCold, ∃ a ∈ v.cold.connections, a.Agrees v.held ∧ x = a.held := by
    intro x hx
    obtain ⟨a, ha, rfl⟩ := mem_map.1 hx
    exact ⟨a, ha, h.sound.agrees a ha nofun not_mem_nil, rfl⟩
  exact { h.sound.see hseen with }

variable {k : Connection}

theorem Holding.editing {row : Nat}
    (h : Holding B v carried) (hk : v.cold.conn? row = some k) : Editing B v row k carried where
  locked := h.locked
  closed := h.closed
  sound := h.sound.edit_row row
  conn := hk
  ok := h.sound.ok k (mem_of_conn? hk) nofun
  agrees := h.sound.agrees k (mem_of_conn? hk) nofun not_mem_nil

theorem Topo.mem_seenSlot {slot : Nat} {x : Held} (hx : x ∈ v.seenSlot slot) :
    ∃ a ∈ v.cold.connections, a.slot = slot ∧ v.mem (.token slot) ≠ 0 ∧ x = a.held := by
  obtain ⟨a, ha, rfl⟩ := mem_map.1 hx
  simp only [mem_filter, Bool.and_eq_true, beq_iff_eq, bne_iff_ne] at ha
  exact ⟨a, ha.1, ha.2.1, ha.2.2.1, rfl⟩

/-! ## Words of the key and of the owner table -/

/-- The slot carries the token, the key and the row of the record. -/
structure KeyShown (mem : Loc → Nat) (k : Connection) : Prop where
  packed : mem (.packed k.slot) = k.token
  token : mem (.token k.slot) = k.token
  key : ∀ w, mem (.key k.slot w) = k.sessionKey w
  row : mem (.row k.slot) = k.row % 2 ^ 32

theorem SlotShows.keyShown {mem : Loc → Nat} (h : SlotShows mem k) :
    KeyShown mem k :=
  ⟨h.packed, h.token, h.key, h.row⟩

/-- The owner table and the controller words of the slot name the same serials. -/
def OwnersMatch (mem : Loc → Nat) (slot : Nat) : Prop :=
  ∀ s ∈ serials, ∀ i < 16, mem (.padOwner s) = hotPadOwner slot i ↔
    mem (.ctrl slot i) = hotCtrlWord true s

/-- A controller word of a record names the serial the record is active with. -/
theorem ctrlWord_eq_iff (hrange : ∀ i s, k.Active i s → 1 ≤ s ∧ s ≤ 16)
    {i s : Nat} (hi : i < 16) (hs : 1 ≤ s ∧ s ≤ 16) :
    (k.controllers i).ctrlWord = hotCtrlWord true s ↔ k.Active i s := by
  constructor
  · intro hword
    have hact : (k.controllers i).active = true := by
      have h := congrArg ctrlWordActive hword
      rwa [Controller.ctrlWord, ctrlWordActive_hotCtrlWord, ctrlWordActive_hotCtrlWord] at h
    have hown := hrange i _ ⟨hi, hact, rfl⟩
    rw [Controller.ctrlWord, hact] at hword
    exact ⟨hi, hact, hotCtrlWord_true_inj (by omega) (by omega) hword⟩
  · rintro ⟨-, hact, hser⟩
    rw [Controller.ctrlWord, hact, hser]

theorem Sound.ownersMatch
    (h : Sound B v carried none []) (hk : k ∈ v.cold.connections) : OwnersMatch v.mem k.slot := by
  intro s hs i hi
  rw [h.owner_iff k hk nofun s hs i hi, (h.shows k hk nofun not_mem_nil).ctrl i hi]
  exact (ctrlWord_eq_iff (fun _ _ ha => h.active_range hk ha) hi (mem_serials.1 hs)).symm

namespace Written

variable {k : Connection} {mem mem' : Loc → Nat}

/-- After a publication the owner table names exactly the record's pads under its slot. -/
theorem owner_iff (h : Written k mem mem') {s i : Nat} (hs : s ∈ serials) (hi : i < 16) :
    mem' (.padOwner s) = hotPadOwner k.slot i ↔ k.Active i s := by
  constructor
  · intro ho
    by_cases hv : ∃ j, k.Active j s
    · obtain ⟨j, hj⟩ := hv
      rw [h.held j s hj] at ho
      have hji := (hotPadOwner_inj (by have := hj.1; omega) (by omega) ho).2
      exact hji ▸ hj
    · -- No controller holds the serial, so the entry is not one of this slot.
      rw [h.vacant s hs fun j hj => hv ⟨j, hj⟩] at ho
      split at ho
      · exact absurd ho.symm (hotPadOwner_ne_zero (by omega))
      next hnot =>
        refine absurd ⟨?_, ?_⟩ hnot
        · rw [ho]
          exact hotPadOwner_ne_zero (by omega)
        · rw [ho, hotOwnerSlot_hotPadOwner (by omega)]
  · exact h.held i s

theorem slotShows (h : Written k mem mem') (hkey : KeyShown mem k) : SlotShows mem' k :=
  { h with
    packed := (h.frame _ rfl).trans hkey.packed
    token := (h.frame _ rfl).trans hkey.token
    key w := (h.frame _ rfl).trans (hkey.key w)
    row := (h.frame _ rfl).trans hkey.row }

end Written

namespace SessionService

variable {B : Backend} {v : Topo} {row : Nat} {k : Connection} {carried : Carried}

/-! ## Rules -/

/-- A locked section has to leave the words published. -/
theorem wp_locked_published {α : Type} {body : TProg α} {Q : α → Topo → Prop}
    (h : v.locked = false)
    (hbody : (topoMachine B).wp body (fun a t =>
      (t.locked = true ∧ t.writing = none ∧ t.Published ∧
        (∀ k ∈ t.cold.connections, k.token ≠ 0) ∧ Held.Consistent (t.seenCold ++ t.held)) ∧
        Q a t.release)
      { v with locked := true }) : (topoMachine B).wp (locked body) Q v := by
  simp only [locked, wp_bind', wp_lock, wp_pure, wp_unlock]
  exact ⟨h, hbody⟩

/-- A locked section that ends with nothing half done. -/
theorem wp_locked {α : Type} {body : TProg α} {Q : α → Topo → Prop} (h : v.locked = false)
    (hbody : (topoMachine B).wp body (fun a t => (∃ c, Holding B t c) ∧ Q a t.release)
      { v with locked := true }) : (topoMachine B).wp (locked body) Q v := by
  refine wp_locked_published h (wp_mono hbody ?_)
  rintro a t ⟨⟨c, ht⟩, hq⟩
  have htoken : ∀ k ∈ t.cold.connections, k.token ≠ 0 := fun k hk =>
    Nat.one_le_iff_ne_zero.1 (ht.sound.token_range k hk).1
  exact ⟨⟨ht.locked, ht.closed, ht.sound.published, htoken, ht.release.sound.held_inj⟩, hq⟩

variable {Q : Unit → Topo → Prop}

/-- A datagram to a session whose slot carries its token and key. -/
theorem wp_sendEncryptedPacket (h : Holding B v carried) (hk : k ∈ v.cold.connections)
    {inner : List UInt8} :
    (topoMachine B).wp (sendEncryptedPacket k inner) Q v ↔ Q () v := by
  have hshows := h.sound.shows k hk nofun not_mem_nil
  have htoken := (h.sound.token_range k hk).1
  exact wp_sendSealed h.locked h.closed (h.sound.slot_lt k hk) (by omega) hshows.token hshows.key

theorem wp_sendSeededRumble (h : Holding B v carried) (hk : v.cold.conn? row = some k)
    (hQ : Q () v) :
    (topoMachine B).wp (sendSeededRumbleLocked row) Q v := by
  unfold sendSeededRumbleLocked
  rw [wp_bind', wp_conn h.locked, conn_eq hk]
  refine wp_mono (wp_forEach (fun _ t => t = v) rfl ?_) ?_
  · rintro _ i _ t - rfl
    rw [wp_ite]
    split
    · rw [wp_bind', wp_seededRumble]
      intro report
      cases report with
      | none => rfl
      | some r => exact (wp_sendEncryptedPacket h (mem_of_conn? hk)).2 rfl
    · rfl
  · rintro _ t rfl
    exact hQ

/-- Comparing words that only topology operations write. -/
theorem wp_firstDifference {ws : List (Loc × Nat)} (hown : ∀ p ∈ ws, p.1.owned = true)
    {Q : Option Unit → Topo → Prop} (hQ : ∀ o, (o = none → ∀ p ∈ ws, v.mem p.1 = p.2) → Q o v) :
    (topoMachine B).wp (Prog.firstOf ws fun (l, w) => do
      let same ← wordIs l w
      pure (if same then none else some ())) Q v := by
  refine wp_firstOf (fun done t => t = v ∧ ∀ p ∈ done, v.mem p.1 = p.2) Q ⟨rfl, nofun⟩ ?_ ?_
  · rintro done ⟨l, w⟩ rest t hxs ⟨rfl, hdone⟩
    have hl : l.owned = true := hown (l, w) (by rw [hxs]; simp)
    simp only [wordIs, wp_bind', wp_load_owned hl, wp_pure]
    by_cases hsame : t.mem l = w
    · simp only [hsame, beq_self_eq_true, if_true, Option.elim_none]
      refine ⟨trivial, fun p hp => ?_⟩
      rcases mem_append.1 hp with hp | hp
      · exact hdone p hp
      · rw [mem_singleton.1 hp]
        exact hsame
    · simp only [beq_eq_false_iff_ne.2 hsame, Bool.false_eq_true, if_false, Option.elim_some]
      exact hQ _ nofun
  · rintro t ⟨rfl, hall⟩
    exact hQ none fun _ => hall

/-- The words of the slot are those of the record's controllers. -/
structure CtrlShown (mem : Loc → Nat) (k : Connection) : Prop where
  ctrl : ∀ i < 16, mem (.ctrl k.slot i) = (k.controllers i).ctrlWord
  padInfo : ∀ i < 16, mem (.padInfo k.slot i) = (k.controllers i).padInfoWord
  padGen : ∀ i < 16, mem (.padGen k.slot i) = (k.controllers i).padGenWord
  padStamp : ∀ i < 16, mem (.padStamp k.slot i) = (k.controllers i).padStampWord
  session : mem (.session k.slot) = k.sessionWord

theorem wp_controllersPublished (hl : v.locked = true) (hk : v.cold.conn? row = some k)
    {Q : Bool → Topo → Prop} (hQ : ∀ r, (r = true → CtrlShown v.mem k) → Q r v) :
    (topoMachine B).wp (controllersPublished row) Q v := by
  unfold controllersPublished
  rw [wp_bind', wp_conn hl, conn_eq hk, wp_bind']
  let words := fun i => [(Loc.ctrl k.slot i, (k.controllers i).ctrlWord),
    (Loc.padInfo k.slot i, (k.controllers i).padInfoWord),
    (Loc.padGen k.slot i, (k.controllers i).padGenWord),
    (Loc.padStamp k.slot i, (k.controllers i).padStampWord)]
  refine wp_firstOf
    (fun done t => t = v ∧ ∀ i ∈ done, ∀ p ∈ words i, v.mem p.1 = p.2) _ ⟨rfl, nofun⟩ ?_ ?_
  · rintro done i rest t - ⟨rfl, hdone⟩
    have hown : ∀ p ∈ words i, p.1.owned = true := by
      intro p hp
      simp only [words, mem_cons, not_mem_nil, or_false] at hp
      rcases hp with rfl | rfl | rfl | rfl <;> rfl
    apply wp_firstDifference hown
    intro o ho
    · cases o with
      | some _ => exact hQ false nofun
      | none =>
        refine ⟨rfl, fun j hj => ?_⟩
        rcases mem_append.1 hj with hj | hj
        · exact hdone j hj
        · rw [mem_singleton.1 hj]
          exact ho rfl
  · rintro t ⟨rfl, hall⟩
    have hword : ∀ i < 16, t.mem (.ctrl k.slot i) = (k.controllers i).ctrlWord ∧
        t.mem (.padInfo k.slot i) = (k.controllers i).padInfoWord ∧
        t.mem (.padGen k.slot i) = (k.controllers i).padGenWord ∧
        t.mem (.padStamp k.slot i) = (k.controllers i).padStampWord := by
      intro i hi
      simpa [words] using hall i (mem_ctrlIndices.2 hi)
    have hown : (Loc.session k.slot).owned = true := rfl
    simp only [wordIs, wp_bind', wp_load_owned hown, wp_pure]
    refine hQ _ fun hs => ⟨?_, ?_, ?_, ?_, beq_iff_eq.1 hs⟩
    · exact fun i hi => (hword i hi).1
    · exact fun i hi => (hword i hi).2.1
    · exact fun i hi => (hword i hi).2.2.1
    · exact fun i hi => (hword i hi).2.2.2

variable {dead : List Nat}

/-- Opening a slot, rewriting its words and closing it. -/
theorem wp_write {body : TProg Unit} {f : (Loc → Nat) → Loc → Nat}
    (hl : v.locked = true) (hw : v.writing = none) (h : Sound B v carried (some row) dead)
    (hk : v.cold.conn? row = some k)
    (hbody : ∀ w Q', w.locked = true → w.writing = some (k.slot, rxParticipants) →
      w.cold = v.cold → Q' () { w with mem := f w.mem } → (topoMachine B).wp body Q' w)
    (hf : ∀ w, f (update v.mem (.gen k.slot) w) =
      update (f v.mem) (.gen k.slot) w)
    (hbase : ∀ l, l.guard ≠ some k.slot → f v.mem l = v.mem l)
    (htoken : f v.mem (.token k.slot) = 0 ∨ f v.mem (.token k.slot) = k.token)
    (hsee : ∀ mem', Written k (f v.mem) mem' →
      Sound B { v with mem := mem' } carried (some row) dead →
      Held.Consistent (({ v with mem := mem' } : Topo).seenSlot k.slot ++ v.held))
    (hQ : ∀ mem', Written k (f v.mem) mem' → Sound B { v with mem := mem' } carried (some row) dead →
      Q () { v with
        mem := mem', held := ({ v with mem := mem' } : Topo).seenSlot k.slot ++ v.held }) :
    (topoMachine B).wp (connectionWrite row body) Q v := by
  have hkmem := mem_of_conn? hk
  have hwritten : Written k (f v.mem) (writtenMem k f v.mem) := by
    refine written_writtenMem hf (hbase _ (by simp [Loc.guard])) ?_ ?_ ?_
    · exact fun i j s hi hj => (h.active_inj hkmem hkmem hi hj).2
    · exact fun i s hi => h.active_range hkmem hi
    · intro s hs
      rw [hbase _ (by simp [Loc.guard])]
      exact h.owner_form s hs
  have hsound := h.rewrite hk hwritten hbase
  refine wp_connectionWrite hl hw hk (h.slot_lt k hkmem) ?_ (hsee _ hwritten hsound) hbody ?_
  · refine ⟨hkmem, rfl, fun a ha hslot => ?_, ?_, fun i hi => ?_, ?_, fun i s hi => ?_⟩
    · exact inj_on_of_nodup_map h.rows ha hkmem (h.slot_inj a ha k hkmem hslot)
    · simpa [controllersMem, setControllers, Connection.takeOwners, setOwners,
        Connection.dropOwners, hf] using htoken
    · simp [controllersMem, setControllers, hi]
    · simp [controllersMem]
    · exact ⟨h.active_range hkmem hi, (h.ledger.outstanding_iff s).2 (.inl (h.active_holds hkmem hi))⟩
  exact hQ _ hwritten hsound

/-- The only record seen through the slot of `k` is `k`. -/
theorem seenSlot_eq (h : Sound B v carried (some row) dead)
    (hk : v.cold.conn? row = some k) {x : Held} (hx : x ∈ v.seenSlot k.slot) : x = k.held := by
  obtain ⟨a, ha, hslot, -, rfl⟩ := Topo.mem_seenSlot hx
  have hrow := h.slot_inj a ha k (mem_of_conn? hk) hslot
  rw [inj_on_of_nodup_map h.rows ha (mem_of_conn? hk) hrow]

/-- A record that agrees with all that was seen may be seen through its slot. -/
theorem seenSlot_consistent (h : Sound B v carried (some row) dead)
    (hk : v.cold.conn? row = some k) (hagrees : k.Agrees v.held) :
    Held.Consistent (v.seenSlot k.slot ++ v.held) := by
  have hseen : ∀ x ∈ v.seenSlot k.slot, ∃ a ∈ v.cold.connections, a.Agrees v.held ∧ x = a.held :=
    fun x hx => ⟨k, mem_of_conn? hk, hagrees, seenSlot_eq h hk hx⟩
  exact (h.see hseen).held_inj

/-! ## Publishing the controllers of a record -/

theorem wp_publishControllersLocked (h : Editing B v row k carried) (hkey : KeyShown v.mem k)
    (hown : OwnersMatch v.mem k.slot)
    (hQ : ∀ mem' held', Holding B { v with mem := mem', held := held' } carried →
      Q () { v with mem := mem', held := held' }) :
    (topoMachine B).wp (publishControllersLocked row) Q v := by
  have hkmem := mem_of_conn? h.conn
  unfold publishControllersLocked
  rw [wp_bind']
  refine wp_controllersPublished h.locked h.conn fun same hsame => ?_
  rw [wp_ite]
  split
  · -- Nothing differs: the controllers hold the serials that are published.
    rename_i hyes
    have hctrl := hsame hyes
    have hshows : SlotShows v.mem k :=
      { hkey with
        ctrl := hctrl.ctrl, padInfo := hctrl.padInfo, padGen := hctrl.padGen
        padStamp := hctrl.padStamp, session := hctrl.session }
    refine hQ v.mem v.held ⟨h.locked, h.closed, ?_⟩
    refine h.sound.done h.conn h.ok hshows ?_ h.agrees not_mem_nil
    intro s hs i hi
    rw [hown s hs i hi, hctrl.ctrl i hi]
    exact ctrlWord_eq_iff (fun _ _ ha => h.sound.active_range hkmem ha) hi (mem_serials.1 hs)
  · rw [wp_bind']
    refine wp_write (f := id) h.locked h.closed h.sound h.conn (fun w Q' _ _ _ hq => by exact hq)
      (fun _ => rfl) (fun _ _ => rfl) (.inr hkey.token)
      (fun mem' _ hsound => seenSlot_consistent hsound (by exact h.conn) h.agrees)
      fun mem' hwritten hsound => ?_
    have hdone := hsound.done h.conn h.ok (hwritten.slotShows hkey)
      (fun s hs i hi => hwritten.owner_iff hs hi) h.agrees not_mem_nil
    have hhold : Holding B { v with
        mem := mem', held := ({ v with mem := mem' } : Topo).seenSlot k.slot ++ v.held } carried := by
      refine ⟨h.locked, h.closed, hdone.see fun x hx => ?_⟩
      exact ⟨k, hkmem, h.agrees, seenSlot_eq hsound h.conn hx⟩
    exact wp_sendSeededRumble hhold h.conn (hQ _ _ hhold)

/-! ## Publishing a key -/

/-- Replace the key of a slot. -/
def setKey (slot : Nat) (key : Key) (mem : Loc → Nat) : Loc → Nat
  | .key s w => if s = slot then key w else mem (.key s w)
  | l => mem l

theorem wp_storeKey {slot : Nat} {key : Key} (hl : v.locked = true)
    (hw : v.writing = some (slot, rxParticipants))
    (hQ : Q () { v with mem := setKey slot key v.mem }) :
    (topoMachine B).wp (storeKey slot key) Q v := by
  have hmem : setKey slot key v.mem = update (update (update
      (update v.mem (.key slot 0) (key 0)) (.key slot 1) (key 1)) (.key slot 2) (key 2))
      (.key slot 3) (key 3) := by
    funext l
    cases l with
    | key s w =>
      by_cases hs : s = slot
      · match w with
        | 0 | 1 | 2 | 3 => simp [setKey, update]
      · simp [setKey, update, hs]
    | _ => simp [setKey, update]
  have hrange : List.finRange 4 = [0, 1, 2, 3] := rfl
  rw [hmem] at hQ
  simp only [storeKey, hrange, Prog.forEach, wp_bind, wp_ret]
  refine (wp_store_guarded (by exact hl) (by exact hw) rfl rfl).2 ?_
  refine (wp_store_guarded (by exact hl) (by exact hw) rfl rfl).2 ?_
  refine (wp_store_guarded (by exact hl) (by exact hw) rfl rfl).2 ?_
  exact (wp_store_guarded (by exact hl) (by exact hw) rfl rfl).2 hQ

/-- The words that `publishSessionKeyLocked` leaves. -/
def keyMem (k : Connection) (mem : Loc → Nat) : Loc → Nat :=
  update (setKey k.slot k.sessionKey (update
    (update mem (.token k.slot) k.token) (.keyEpoch k.slot)
      ((mem (.keyEpoch k.slot) + 1) % 2 ^ 32))) (.row k.slot) (k.row % 2 ^ 32)

theorem wp_publishSessionKey {now : Nat} (hl : v.locked = true)
    (hw : v.writing = some (k.slot, rxParticipants)) (hk : v.cold.conn? row = some k)
    (ht : k.token ≠ 0) (hQ : Q () { v with mem := keyMem k v.mem }) :
    (topoMachine B).wp (publishSessionKeyLocked row now) Q v := by
  have hown : (Loc.keyEpoch k.slot).owned = true := rfl
  unfold publishSessionKeyLocked
  simp only [wp_bind', wp_conn hl, conn_eq hk]
  refine (wp_store_token hl hw ht).2 ?_
  rw [wp_load_owned hown]
  refine (wp_store_keyEpoch (by exact hl) rfl rfl).2 ?_
  rw [← hw]
  refine wp_storeKey (by exact hl) (by exact hw) ?_
  refine (wp_store_reset (by exact hl) (by exact hw) rfl).2 ?_
  refine (wp_store_reset (by exact hl) (by exact hw) rfl).2 ?_
  refine (wp_store_reset (by exact hl) (by exact hw) rfl).2 ?_
  refine (wp_store_reset (by exact hl) (by exact hw) rfl).2 ?_
  exact (wp_store_guarded (by exact hl) (by exact hw) rfl rfl).2 hQ

theorem wp_publishSession {now : Nat} (h : Editing B v row k carried)
    (hQ : ∀ mem' held', Holding B { v with mem := mem', held := held' } carried →
      Q () { v with mem := mem', held := held' }) :
    (topoMachine B).wp (publishSessionLocked row now) Q v := by
  have hkmem := mem_of_conn? h.conn
  unfold publishSessionLocked
  rw [wp_bind']
  refine wp_write (f := keyMem k) h.locked h.closed h.sound h.conn ?_ ?_ ?_
    (.inr (by simp [keyMem, setKey]))
    (fun mem' _ hsound => seenSlot_consistent hsound (by exact h.conn) h.agrees)
    fun mem' hwritten hsound => ?_
  · intro w Q' hl hw hcold hq
    have htoken := h.sound.token_range k hkmem
    exact wp_publishSessionKey hl hw (hcold ▸ h.conn) (by omega) hq
  · intro w
    funext l
    cases l <;> simp [keyMem, setKey, update]
  · intro l hl
    cases l <;> simp [Loc.guard] at hl <;> simp [keyMem, setKey, update, hl]
  · -- The packed token follows the publication; until then lookups still miss the slot.
    have hkey : KeyShown (update mem' (.packed k.slot) k.token) k := by
      refine ⟨by simp, ?_, fun w => ?_, ?_⟩
      · have := hwritten.frame (.token k.slot) rfl
        simpa [keyMem, setKey] using this
      · have := hwritten.frame (.key k.slot w) rfl
        simpa [keyMem, setKey] using this
      · have := hwritten.frame (.row k.slot) rfl
        simpa [keyMem, setKey] using this
    have hshows : SlotShows (update mem' (.packed k.slot) k.token) k :=
      { hkey with
        ctrl := fun i hi => by simpa using hwritten.ctrl i hi
        padInfo := fun i hi => by simpa using hwritten.padInfo i hi
        padGen := fun i hi => by simpa using hwritten.padGen i hi
        padStamp := fun i hi => by simpa using hwritten.padStamp i hi
        session := by simpa using hwritten.session }
    have hdone := (hsound.setPacked h.conn k.token).done h.conn h.ok hshows
      (fun s hs i hi => hwritten.owner_iff hs hi) h.agrees not_mem_nil
    have hhold : Holding B { v with
        mem := update mem' (.packed k.slot) k.token
        held := ({ v with mem := mem' } : Topo).seenSlot k.slot ++ v.held } carried := by
      refine ⟨h.locked, h.closed, hdone.see fun x hx => ?_⟩
      exact ⟨k, hkmem, h.agrees, seenSlot_eq hsound h.conn hx⟩
    rw [wp_bind', wp_conn (by exact h.locked), conn_eq (by exact h.conn), wp_bind']
    refine (wp_store_packed (by exact h.locked) (by exact h.closed)).2 ?_
    exact wp_sendSeededRumble hhold h.conn (hQ _ _ hhold)

end SessionService

end Satellite
