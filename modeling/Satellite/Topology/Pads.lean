import Satellite.Topology.Invariant

/-!
# Editing the pads of one record

Inside a locked section an operation edits one record. Every helper that changes
a pad rewrites one controller, moves the epoch and the active counters, and moves
at most two serials; `Editing.setPad` says once what such a change needs.
-/

namespace Satellite

open Function List Connection

/-- The serial a controller is active with. -/
def Controller.pad (p : Controller) : Option Nat := if p.active then some p.serialNo else none

/-- The type a controller is active with. -/
def Controller.type (p : Controller) : Option Nat := if p.active then some p.controllerType else none

/-- What a controller adds to the active counters. -/
def Controller.weight (p : Controller) : Int := if p.active then 1 else 0

/-- A controller as the service keeps it at index `i`. -/
def Controller.Ok (p : Controller) (i : Nat) : Prop :=
  (p.active = true → p.identity = controllerIdentity p.controllerType ∧
    p.controllerType < controllerTypeCount ∧ p.index = i) ∧ (p.active = false → p.serialNo = 0)

namespace Connection

/-- Rewrite controller `i`, advance the epoch by `e` and the active counter by `d`. -/
def setPad (k : Connection) (i : Nat) (p : Controller) (e : Nat) (d : Int) : Connection :=
  { k with controllers := update k.controllers i p, epoch := k.epoch + e
           activeControllerCount := k.activeControllerCount + d }

/-- The records agree on everything but their pads, epoch and active counter. -/
def SameSession (k k' : Connection) : Prop :=
  k' = { k with controllers := k'.controllers, epoch := k'.epoch
                activeControllerCount := k'.activeControllerCount }

theorem SameSession.refl (k : Connection) : k.SameSession k := rfl

theorem SameSession.trans {a b c : Connection} (h : a.SameSession b) (h' : b.SameSession c) :
    a.SameSession c := by
  rw [SameSession] at h h' ⊢
  rw [h'] at ⊢
  rw [h]

theorem sameSession_setPad (k : Connection) (i : Nat) (p : Controller) (e : Nat) (d : Int) :
    k.SameSession (k.setPad i p e d) := rfl

@[simp] theorem setPad_controllers_self (k : Connection) (i : Nat) (p : Controller) (e : Nat)
    (d : Int) : (k.setPad i p e d).controllers i = p := by
  simp [setPad]

variable {i : Nat}

theorem setPad_controllers_ne (k : Connection) {j : Nat} (h : j ≠ i) (p : Controller) (e : Nat)
    (d : Int) : (k.setPad i p e d).controllers j = k.controllers j := by
  simp [setPad, h]

theorem setPad_refl (k : Connection) (i : Nat) : k.setPad i (k.controllers i) 0 0 = k := by
  simp [setPad]

theorem pad_eq (k : Connection) (hi : i < 16) : k.pad i = (k.controllers i).pad := by
  simp [pad, Controller.pad, hi]

private theorem countP_update {β : Type} (q : β → Bool) (f : Nat → β) (i : Nat) (b : β) :
    ∀ l : List Nat, l.Nodup → i ∈ l →
      (l.countP fun j => q (update f i b j)) + (q (f i)).toNat =
        (l.countP fun j => q (f j)) + (q b).toNat := by
  intro l
  induction l with
  | nil =>
    intro _ hi
    cases hi
  | cons j l ih =>
    intro hnd hi
    obtain ⟨hj, hnd⟩ := nodup_cons.1 hnd
    by_cases hij : j = i
    · subst hij
      have hl : (l.countP fun a => q (update f j b a)) = l.countP fun a => q (f a) := by
        refine countP_congr fun a ha => ?_
        have hne : a ≠ j := fun e => hj (e ▸ ha)
        simp [hne]
      simp only [countP_cons, hl, update_self]
      cases q b <;> cases q (f j) <;> simp
    · have hil : i ∈ l := by
        rcases mem_cons.1 hi with h | h
        · exact absurd h.symm hij
        · exact h
      have hrest := ih hnd hil
      simp only [countP_cons, ne_eq, hij, not_false_eq_true, update_of_ne]
      omega

theorem activeCount_setPad (k : Connection) (hi : i < 16) (p : Controller) (e : Nat)
    (d : Int) : (k.setPad i p e d).activeCount =
      k.activeCount + (p.weight - (k.controllers i).weight) := by
  have hcount := countP_update (fun c : Controller => c.active) k.controllers i p ctrlIndices
    nodup_range (by simpa using hi)
  simp only [activeCount, setPad, Controller.weight]
  cases hp : p.active <;> cases hk : (k.controllers i).active <;> simp [hp, hk] at hcount ⊢ <;> omega

variable {p : Controller}

theorem Ok.setPad {k : Connection} (h : k.Ok) (hi : i < 16) {e : Nat}
    {d : Int} (hp : p.Ok i) (hd : d = p.weight - (k.controllers i).weight) :
    (k.setPad i p e d).Ok := by
  constructor
  · intro j hj ha
    by_cases hji : j = i
    · subst hji
      rw [setPad_controllers_self] at ha ⊢
      exact hp.1 ha
    · rw [setPad_controllers_ne k hji] at ha ⊢
      exact h.identity j hj ha
  · intro j hj ha
    by_cases hji : j = i
    · subst hji
      rw [setPad_controllers_self] at ha ⊢
      exact hp.2 ha
    · rw [setPad_controllers_ne k hji] at ha ⊢
      exact h.inactive j hj ha
  · rw [activeCount_setPad k hi, ← h.count, ← hd]
    rfl

theorem types_setPad (k : Connection) {e : Nat} {d : Int}
    (h : p.type = (k.controllers i).type) : (k.setPad i p e d).types = k.types := by
  funext j
  by_cases hji : j = i
  · subst hji
    simp only [types, setPad_controllers_self]
    simp only [Controller.type] at h
    by_cases hj : j < 16 <;> simp [hj, h]
  · simp only [types, setPad_controllers_ne k hji]

/-- A rewritten pad is seen under a new epoch or has the type it had. -/
theorem Agrees.setPad {k : Connection} {held : List Held} (h : k.Agrees held)
    {e : Nat} {d : Int} (he : 0 < e ∨ p.type = (k.controllers i).type) :
    (k.setPad i p e d).Agrees held := by
  intro x hx hrow
  obtain ⟨hle, heq⟩ := h x hx hrow
  refine ⟨hle.trans (Nat.le_add_right _ _), fun hxe => ?_⟩
  rcases he with he | he
  · have : x.epoch = k.epoch + e := hxe
    omega
  · rw [types_setPad k he]
    refine heq ?_
    have hxe' : x.epoch = k.epoch + e := hxe
    omega

end Connection

/-! ## What an edit leaves alone -/

/-- Only the record of one row, the serials in use and the stamp counters differ. -/
structure Cold.Beside (c c' : Cold) (row : Nat) : Prop where
  others : ∀ r, r ≠ row → c'.conn? r = c.conn? r
  rows : c'.connections.map Connection.row = c.connections.map Connection.row
  serialQuarantined : c'.serialQuarantined = c.serialQuarantined
  nextRow : c'.nextRow = c.nextRow

/-- Only the record of one row, the serials in use and the active counters differ. -/
structure Topo.Beside (v v' : Topo) (row : Nat) : Prop where
  eq : v' = { v with cold := v'.cold, activePads := v'.activePads }
  cold : v.cold.Beside v'.cold row

namespace Topo.Beside

variable {v v' v'' : Topo} {row : Nat}

theorem refl (v : Topo) (row : Nat) : v.Beside v row :=
  ⟨rfl, fun _ _ => rfl, rfl, rfl, rfl⟩

theorem trans (h : v.Beside v' row) (h' : v'.Beside v'' row) : v.Beside v'' row where
  eq := by
    rw [h'.eq, h.eq]
  cold :=
    { others := fun r hr => (h'.cold.others r hr).trans (h.cold.others r hr)
      rows := h'.cold.rows.trans h.cold.rows
      serialQuarantined := h'.cold.serialQuarantined.trans h.cold.serialQuarantined
      nextRow := h'.cold.nextRow.trans h.cold.nextRow }

theorem of_edit {c' : Cold} {k k' : Connection} {n : Int} (h : v.cold.Edit c' row k')
    (hk : v.cold.conn? row = some k) (hrow : k'.row = row) :
    v.Beside { v with cold := c', activePads := n } row where
  eq := rfl
  cold :=
    { others := fun r hr => by rw [h.conn? hrow hk, if_neg hr]
      rows := h.rows hrow
      serialQuarantined := h.serialQuarantined
      nextRow := h.nextRow }

/-- A change of the serials in use alone. -/
theorem pool {c' : Cold} (hconn : c'.connections = v.cold.connections)
    (hquar : c'.serialQuarantined = v.cold.serialQuarantined)
    (hrow : c'.nextRow = v.cold.nextRow) : v.Beside { v with cold := c' } row where
  eq := rfl
  cold :=
    { others := fun r _ => by simp only [Cold.conn?, hconn]
      rows := by rw [hconn]
      serialQuarantined := hquar
      nextRow := hrow }

end Topo.Beside

/-! ## The edited record -/

/-- The operation holds `mtx_` and edits the record `k` at `row`, carrying `carried`. -/
structure Editing (B : Backend) (v : Topo) (row : Nat) (k : Connection) (carried : Carried) :
    Prop where
  locked : v.locked = true
  closed : v.writing = none
  sound : Sound B v carried (some row) []
  conn : v.cold.conn? row = some k
  ok : k.Ok
  agrees : k.Agrees v.held

namespace Editing

variable {B : Backend} {v : Topo} {row i : Nat} {k : Connection} {carried carried' : Carried}

variable {p : Controller}

/-- The ledger after one pad of the record was rewritten. -/
theorem ledger_setPad {c' : Cold} {e : Nat} {d : Int} (hi : i < 16)
    (hk : v.cold.conn? row = some k) (he : v.cold.Edit c' row (k.setPad i p e d)) :
    ({ v with cold := c' } : Topo).ledger = v.ledger.setPad row i p.pad := by
  have hrow : k.row = row := Cold.conn?_row hk
  have hpad : c'.pad = fun r j => if r = row ∧ j = i then p.pad else v.cold.pad r j := by
    funext r j
    rw [Cold.pad_eq, Cold.pad_eq, he.conn? hrow hk]
    by_cases hr : r = row
    · subst hr
      by_cases hj : j = i
      · subst hj
        simp [pad_eq _ hi]
      · simp [hj, hk, pad, setPad_controllers_ne k hj]
    · simp [hr]
  simp only [Topo.ledger, Ledger.setPad, hpad, he.serialInUse, he.serialQuarantined]

/-- One rewritten pad, with the serials it moves. -/
theorem setPad (h : Editing B v row k carried) {c' : Cold} {e : Nat} {d : Int}
    (hi : i < 16) (he : v.cold.Edit c' row (k.setPad i p e d)) (hp : p.Ok i)
    (hd : d = p.weight - (k.controllers i).weight)
    (hseen : 0 < e ∨ p.type = (k.controllers i).type)
    (hledger : (v.ledger.setPad row i p.pad).Balanced B.Steady carried') :
    Editing B { v with cold := c', activePads := v.activePads + d } row (k.setPad i p e d)
      carried' where
  locked := h.locked
  closed := h.closed
  sound := by
    refine h.sound.edit h.conn he rfl (.inl rfl) rfl rfl rfl ?_ ?_
    · simp [Connection.setPad]
    · rw [ledger_setPad hi h.conn he]
      exact hledger
  conn := by
    have hrow : k.row = row := Cold.conn?_row h.conn
    simpa using he.conn? hrow h.conn row
  ok := h.ok.setPad hi hp hd
  agrees := h.agrees.setPad hseen

/-- A rewritten pad leaves the rest alone. -/
theorem beside (h : Editing B v row k carried) {c' : Cold} {e : Nat} {d : Int}
    (he : v.cold.Edit c' row (k.setPad i p e d)) {n : Int} :
    v.Beside { v with cold := c', activePads := n } row :=
  .of_edit he h.conn (Cold.conn?_row h.conn :)

/-- The carried serials may be listed in any order. -/
theorem perm (h : Editing B v row k carried) (hp : carried.Perm carried') :
    Editing B v row k carried' :=
  { h with sound := { h.sound with ledger := h.sound.ledger.perm hp } }

/-- A carried serial without a device is given back. -/
theorem release {s : Nat} (h : Editing B v row k ((s, .empty) :: carried)) :
    Editing B { v with cold := v.cold.dropSerial s } row k carried :=
  { h with sound := h.sound.pool rfl rfl h.sound.ledger.release }

theorem chain (h : Editing B v row k carried) (i : Nat) :
    v.cold.Chain v.cold row k (k.setPad i (k.controllers i) 0 0) := by
  rw [setPad_refl]
  exact .refl h.sound.rows h.conn

theorem pad_of_active (h : Editing B v row k carried) {s : Nat} (ha : k.Active i s) :
    v.ledger.pad row i = some s := by
  show v.cold.pad row i = some s
  rw [Cold.pad_eq, h.conn]
  exact pad_eq_some.2 ha

theorem pad_of_inactive (h : Editing B v row k carried) (ha : (k.controllers i).active = false) :
    v.ledger.pad row i = none := by
  show v.cold.pad row i = none
  rw [Cold.pad_eq, h.conn]
  simp [pad, ha]

theorem serial_range (h : Editing B v row k carried) {s : Nat} (ha : k.Active i s) :
    1 ≤ s ∧ s ≤ 16 :=
  h.sound.ledger.range s ((h.sound.ledger.inUse_iff s).2 (.inl ⟨row, i, h.pad_of_active ha⟩))

end Editing

/-! ## The helpers -/

namespace Controller

def vacated (p : Controller) (stamp : Nat) : Controller :=
  { p with active := false, serialNo := 0, pointerStamp := stamp }

def updated (p : Controller) (desc : ControllerDescriptor) (stamp : Nat) : Controller :=
  { p.update desc with pointerStamp := stamp }

def replugged (p : Controller) (serial : Nat) (desc : ControllerDescriptor) (plugGen stamp : Nat) :
    Controller :=
  { p with serialNo := serial, controllerType := desc.type
           identity := controllerIdentity desc.type, caps := desc.caps
           touchpadMode := safeTouchpadMode desc.touchpadMode
           preferredBackend := desc.preferredBackend, plugGen := plugGen, pointerStamp := stamp }

def bound (p : Controller) (serial : Nat) (desc : ControllerDescriptor) (plugGen stamp : Nat) :
    Controller :=
  { p.replugged serial desc plugGen stamp with index := desc.ctrlIdx, active := true }

end Controller

namespace SessionService

variable {B : Backend} {v : Topo} {row i s : Nat} {k : Connection} {carried : Carried}

/-! A chain of edits of one pad. -/

section Chain

variable {c c' : Cold} {p : Controller} {e : Nat} {d : Int}

theorem chain_setPad (h : c.Chain c' row k (k.setPad i p e d)) (f : Controller → Controller) :
    c.Chain (c'.setPad row i f) row k (k.setPad i (f p) e d) := by
  have hset := h.setConn (f := fun a =>
    { a with controllers := update a.controllers i (f (a.controllers i)) }) rfl
  simpa only [Cold.setPad, Connection.setPad, update_idem, update_self] using hset

theorem chain_stampPad (h : c.Chain c' row k (k.setPad i p e d)) :
    c.Chain (c'.stampPad row i) row k
      (k.setPad i { p with pointerStamp := Cold.nextStamp c'.nextPointerStamp } e d) :=
  (chain_setPad h fun p =>
    { p with pointerStamp := Cold.nextStamp c'.nextPointerStamp }).counters _ _

theorem chain_adjustActiveCount (h : c.Chain c' row k (k.setPad i p e d)) (d' : Int) :
    c.Chain (c'.adjustActiveCount row d') row k (k.setPad i p e (d + d')) := by
  have hset := h.setConn (f := fun a =>
    { a with activeControllerCount := a.activeControllerCount + d' }) rfl
  simpa only [Cold.adjustActiveCount, Connection.setPad, add_assoc] using hset

theorem chain_bumpEpoch (h : c.Chain c' row k (k.setPad i p e d)) :
    c.Chain (c'.bumpEpoch row) row k (k.setPad i p (e + 1) d) :=
  h.setConn (f := fun a => { a with epoch := a.epoch + 1 }) rfl

theorem chain_takeDescriptor (h : c.Chain c' row k (k.setPad i p e d))
    (desc : ControllerDescriptor) :
    c.Chain (c'.takeDescriptor row i desc) row k
      (k.setPad i (p.replugged p.serialNo desc (Cold.nextStamp c'.nextPlugGen)
        (Cold.nextStamp c'.nextPointerStamp)) e d) :=
  (chain_setPad h fun p => p.replugged p.serialNo desc (Cold.nextStamp c'.nextPlugGen)
    (Cold.nextStamp c'.nextPointerStamp)).counters _ _

end Chain

variable {Q : Unit → Topo → Prop}

/-- The pointer of a pad with a serial is released: only its stamp changes. -/
theorem wp_releasePointer (hl : v.locked = true) (hk : v.cold.conn? row = some k)
    (hs : 1 ≤ (k.controllers i).serialNo ∧ (k.controllers i).serialNo ≤ 16)
    :
    (topoMachine B).wp (releasePointerLocked row i) Q v ↔
      Q () { v with cold := v.cold.stampPad row i } := by
  have hserial : ¬ ((k.controllers i).serialNo = 0 ∨ (k.controllers i).serialNo > 16) := by omega
  simp (disch := exact hl) only [releasePointerLocked, wp_bind', wp_conn, Cold.conn_eq hk,
    maxBackendControllers, hserial, if_false, wp_modify, wp_postRelease]

variable {retired : List RetiredSerial}

/-- An active pad is vacated: its serial is carried, its device still plugged. -/
theorem wp_vacatePad (h : Editing B v row k carried) (ha : k.Active i s)
    {Q : List RetiredSerial → Topo → Prop}
    (hQ : ∀ v' stamp, v.Beside v' row →
      Editing B v' row (k.setPad i ((k.controllers i).vacated stamp) 1 (-1))
        ((s, .plugged) :: carried) →
      Q (retired ++ [{ serial := s }]) v') :
    (topoMachine B).wp (vacatePadLocked row i retired) Q v := by
  have hactive := ha
  obtain ⟨hi, hact, hser⟩ := ha
  have hrange := h.serial_range hactive
  have hs0 : (k.controllers i).serialNo ≠ 0 := by omega
  have hedit := (chain_bumpEpoch (chain_adjustActiveCount (chain_setPad
    (chain_stampPad (h.chain i)) fun p => { p with active := false, serialNo := 0 }) (-1))).edit
  have hled := h.sound.ledger.retire (h.pad_of_active hactive)
  have hed := h.setPad hi hedit ⟨nofun, fun _ => rfl⟩ (by simp [Controller.weight, hact])
    (.inl Nat.one_pos) hled
  have hwp := hQ _ _ (h.beside hedit) hed
  simp (disch := exact h.locked) only [vacatePadLocked, wp_bind', wp_conn, Cold.conn_eq h.conn]
  rw [if_pos hs0]
  simp only [wp_bind', wp_pure, adjustActivePadsLocked]
  rw [wp_releasePointer h.locked h.conn (by omega), hser]
  simp (disch := exact h.locked) only [wp_modify, wp_addActivePads]
  exact hwp

variable {pad : PadChange}

/-- A pad takes a carried serial with a device. -/
theorem wp_bindPad (h : Editing B v row k ((pad.serial, .plugged) :: carried))
    (hi : pad.desc.ctrlIdx < 16) (hty : pad.desc.type < controllerTypeCount)
    (ha : (k.controllers pad.desc.ctrlIdx).active = false)
    (hQ : ∀ v' plugGen stamp, v.Beside v' row →
      Editing B v' row (k.setPad pad.desc.ctrlIdx
        ((k.controllers pad.desc.ctrlIdx).bound pad.serial pad.desc plugGen stamp) 1 1) carried →
      Q () v') :
    (topoMachine B).wp (bindPadLocked row pad) Q v := by
  have hedit := (chain_bumpEpoch (chain_adjustActiveCount (chain_takeDescriptor (chain_setPad
    (h.chain pad.desc.ctrlIdx) fun p =>
      { p with index := pad.desc.ctrlIdx, serialNo := pad.serial, active := true })
    pad.desc) 1)).edit
  have hled := h.sound.ledger.bind (h.pad_of_inactive ha)
  have hed := h.setPad hi hedit ⟨fun _ => ⟨rfl, hty, rfl⟩, nofun⟩
    (by simp [Controller.weight, Controller.replugged, ha]) (.inl Nat.one_pos) hled
  have hwp := hQ _ _ _ (h.beside hedit) hed
  simp (disch := exact h.locked) only [bindPadLocked, wp_bind', wp_modify, wp_conn, wp_pure,
    seedRumbleLocked, adjustActivePadsLocked, wp_addActivePads, wp_load_hidMotors, forall_const]
  exact hwp

/-- A pad takes a descriptor of its own identity in place. -/
theorem wp_updatePad {desc : ControllerDescriptor} (h : Editing B v row k carried)
    (ha : k.Active desc.ctrlIdx s) (hty : desc.type < controllerTypeCount)
    (hid : controllerIdentity desc.type = (k.controllers desc.ctrlIdx).identity)
    (hQ : ∀ v' stamp, v.Beside v' row →
      Editing B v' row (k.setPad desc.ctrlIdx
        ((k.controllers desc.ctrlIdx).updated desc stamp) 0 0) carried → Q () v') :
    (topoMachine B).wp (updatePadLocked row desc) Q v := by
  have hactive := ha
  obtain ⟨hi, hact, hser⟩ := ha
  have hrange := h.serial_range hactive
  obtain ⟨hident, htype, hindex⟩ := h.ok.identity _ hi hact
  have hsame : desc.type = (k.controllers desc.ctrlIdx).controllerType :=
    controllerIdentity_inj hty htype (hid.trans hident)
  -- Whatever stamp the pad ends up with, its serial and type are the ones it had.
  have hend : ∀ c' stamp, v.cold.Edit c' row (k.setPad desc.ctrlIdx
      ((k.controllers desc.ctrlIdx).updated desc stamp) 0 0) → Q () { v with cold := c' } := by
    intro c' stamp hedit
    have hpad : ((k.controllers desc.ctrlIdx).updated desc stamp).pad =
        v.ledger.pad row desc.ctrlIdx := by
      rw [h.pad_of_active hactive]
      simp [Controller.pad, Controller.updated, Controller.update, hact, hser]
    have hled : (v.ledger.setPad row desc.ctrlIdx
        ((k.controllers desc.ctrlIdx).updated desc stamp).pad).Balanced B.Steady carried := by
      rw [hpad, Ledger.setPad_self]
      exact h.sound.ledger
    have hed := h.setPad hi hedit
      ⟨fun _ => ⟨by simpa [Controller.updated, Controller.update] using hid.symm, hty, hindex⟩,
        fun hna => by simp [Controller.updated, Controller.update, hact] at hna⟩
      (by simp [Controller.weight, Controller.updated, Controller.update, hact])
      (.inr (by simp [Controller.type, Controller.updated, Controller.update, hsame])) hled
    simpa only [add_zero] using hQ _ stamp (h.beside hedit) hed
  simp (disch := exact h.locked) only [updatePadLocked, wp_bind', wp_conn, Cold.conn_eq h.conn]
  rw [wp_ite]
  split
  · rw [wp_bind', wp_releasePointer h.locked h.conn (by omega)]
    simp (disch := exact h.locked) only [wp_modify]
    exact hend _ _ (chain_setPad (chain_stampPad (h.chain _)) fun p => p.update desc).edit
  · simp (disch := exact h.locked) only [wp_modify]
    exact hend _ _ (chain_setPad (h.chain _) fun p => p.update desc).edit

/-- A failed replug keeps the pad and gives the serial it was tried on back. -/
theorem wp_replugPad_failed {rest : Carried}
    (h : Editing B v row k (rest ++ carried)) (hplug : pad.plugged = false)
    (hserial : pad.serial = 0 ∧ rest = [] ∨ pad.serial ≠ 0 ∧ rest = [(pad.serial, .empty)])
    (hi : pad.desc.ctrlIdx < 16)
    {Q : PadChange × List RetiredSerial → Topo → Prop}
    (hQ : ∀ v', v.Beside v' row →
      Editing B v' row (k.setPad pad.desc.ctrlIdx (k.controllers pad.desc.ctrlIdx) 1 0) carried →
      Q ({ pad with result := .replugFail
                    appliedType := (k.controllers pad.desc.ctrlIdx).controllerType }, retired) v') :
    (topoMachine B).wp (replugPadLocked row pad retired) Q v := by
  have hedit := (chain_bumpEpoch (h.chain pad.desc.ctrlIdx)).edit
  have hpad : (k.controllers pad.desc.ctrlIdx).pad = v.ledger.pad row pad.desc.ctrlIdx := by
    show _ = v.cold.pad row pad.desc.ctrlIdx
    rw [Cold.pad_eq, h.conn, Option.bind_some, pad_eq _ hi]
  have hled : (v.ledger.setPad row pad.desc.ctrlIdx
      (k.controllers pad.desc.ctrlIdx).pad).Balanced B.Steady (rest ++ carried) := by
    rw [hpad, Ledger.setPad_self]
    exact h.sound.ledger
  have hed := h.setPad hi hedit ⟨h.ok.identity _ hi, h.ok.inactive _ hi⟩ (by simp)
    (.inr rfl) hled
  have hbeside := h.beside (n := v.activePads + 0) hedit
  have hconn : ((v.cold.bumpEpoch row).conn row).controllers = k.controllers := by
    rw [Cold.conn_eq hed.conn]
    simp [Connection.setPad]
  simp (disch := exact h.locked) only [replugPadLocked, wp_bind', wp_modify, wp_conn, hconn]
  rw [if_pos hplug]
  rcases hserial with ⟨hs, rfl⟩ | ⟨hs, rfl⟩
  · rw [if_pos hs]
    have hwp := hQ _ hbeside hed
    simpa only [wp_bind', wp_pure, add_zero] using hwp
  · rw [if_neg hs]
    have hrange := hed.sound.ledger.range pad.serial
      ((hed.sound.ledger.inUse_iff pad.serial).2 (.inr (by simp)))
    have hrel := hed.release
    have hdrop : ({ v with cold := v.cold.bumpEpoch row, activePads := v.activePads + 0 } : Topo).Beside
        { v with cold := (v.cold.bumpEpoch row).dropSerial pad.serial
                 activePads := v.activePads + 0 } row := .pool rfl rfl rfl
    have hwp := hQ _ (hbeside.trans hdrop) hrel
    simp (disch := first | exact h.locked | exact hrange) only [wp_bind', wp_releaseSerial, wp_pure]
    simpa only [add_zero] using hwp

/-- A replug moves the pad to the carried serial; the old one is carried instead. -/
theorem wp_replugPad_plugged (h : Editing B v row k ((pad.serial, .plugged) :: carried))
    (hplug : pad.plugged = true) (ha : k.Active pad.desc.ctrlIdx s)
    (hty : pad.desc.type < controllerTypeCount)
    {Q : PadChange × List RetiredSerial → Topo → Prop}
    (hQ : ∀ v' plugGen stamp, v.Beside v' row →
      Editing B v' row (k.setPad pad.desc.ctrlIdx
        ((k.controllers pad.desc.ctrlIdx).replugged pad.serial pad.desc plugGen stamp) 1 0)
        ((s, .plugged) :: carried) →
      Q (pad, retired ++ [{ serial := s }]) v') :
    (topoMachine B).wp (replugPadLocked row pad retired) Q v := by
  have hactive := ha
  obtain ⟨hi, hact, hser⟩ := ha
  have hrange := h.serial_range hactive
  obtain ⟨-, -, hindex⟩ := h.ok.identity _ hi hact
  have hbump := chain_bumpEpoch (h.chain pad.desc.ctrlIdx)
  have hconn : ((v.cold.bumpEpoch row).conn row).controllers = k.controllers := by
    rw [Cold.conn_eq hbump.conn']
    simp [Connection.setPad]
  have hedit := (chain_takeDescriptor (chain_setPad (chain_stampPad hbump) fun p =>
    { p with serialNo := pad.serial }) pad.desc).edit
  have hled := ((h.sound.ledger.retire (h.pad_of_active hactive)).perm (List.Perm.swap _ _ _)).bind
    (r := row) (i := pad.desc.ctrlIdx) (by simp [Ledger.setPad])
  rw [Ledger.setPad_setPad] at hled
  have hed := h.setPad hi hedit
    ⟨fun _ => ⟨rfl, hty, hindex⟩, fun hna => by simp [Controller.replugged, hact] at hna⟩
    (by simp [Controller.weight, Controller.replugged, hact]) (.inl Nat.one_pos)
    (by simpa [Controller.pad, Controller.replugged, hact] using hled)
  have hwp := hQ _ _ _ (h.beside hedit) hed
  simp (disch := exact h.locked) only [replugPadLocked, wp_bind', wp_modify, wp_conn, hconn]
  rw [if_neg (by simp [hplug]), wp_bind',
    wp_releasePointer (v := { v with cold := v.cold.bumpEpoch row }) h.locked hbump.conn'
      (by simpa [hser] using hrange), hser]
  simp (disch := exact h.locked) only [wp_modify, wp_conn, seedRumbleLocked, wp_bind', wp_pure,
    wp_load_hidMotors, forall_const]
  simpa only [add_zero] using hwp

end SessionService

end Satellite
