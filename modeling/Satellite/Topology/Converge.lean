import Satellite.Topology.Planning

/-!
# Converging on a plan

A round plugs the devices of its pads without `mtx_`, commits and publishes them
under it. What the first round retires is unplugged and settled, and then the
pads that waited for a serial have their own round. At the end every pad reports
what its controller is.
-/

namespace Satellite

open List

/-! ## Lists related entry by entry -/

section Forall₂

variable {α β γ : Type} {R : α → β → Prop} {l : List α} {l' : List β}

theorem mem_of_forall₂ (h : List.Forall₂ R l l') {b : β} (hb : b ∈ l') : ∃ a ∈ l, R a b := by
  induction h with
  | nil => cases hb
  | cons hab _ ih =>
    rcases mem_cons.1 hb with rfl | hb
    · exact ⟨_, mem_cons_self, hab⟩
    · obtain ⟨a, ha, hr⟩ := ih hb
      exact ⟨a, mem_cons_of_mem _ ha, hr⟩

theorem forall₂_trans {S : β → γ → Prop} {T : α → γ → Prop} (hT : ∀ a b c, R a b → S b c → T a c)
    {l'' : List γ} (h : List.Forall₂ R l l') (h' : List.Forall₂ S l' l'') :
    List.Forall₂ T l l'' := by
  induction h generalizing l'' with
  | nil =>
    cases h'
    exact .nil
  | cons hab _ ih =>
    cases h' with
    | cons hbc hrest => exact .cons (hT _ _ _ hab hbc) (ih hrest)

theorem map_eq_of_forall₂ {f : α → γ} {g : β → γ} (hfg : ∀ a b, R a b → g b = f a)
    (h : List.Forall₂ R l l') : l'.map g = l.map f := by
  induction h with
  | nil => rfl
  | cons hab _ ih => rw [map_cons, map_cons, ih, hfg _ _ hab]

end Forall₂

namespace SessionService

variable {B : Backend} {v : Topo} {row : Nat} {k : Connection} {carried : Carried}

/-! ## Plugging -/

/-- A pad after the calls of a round: only a pad of the round learns something. -/
structure Plugs (second : Bool) (pad pad' : PadChange) : Prop where
  eq : pad' = { pad with busDown := pad'.busDown, plugged := pad'.plugged }
  other : plugsInRound pad second = false → pad' = pad

variable {second : Bool} {pad pad' : PadChange}

theorem Plugs.plugsInRound (h : Plugs second pad pad')
    (r : Bool) : plugsInRound pad' r = plugsInRound pad r := by
  rw [h.eq]
  rfl

/-- The bus is open when the pads are plugged, and was closed before if it was reopened. -/
theorem wp_reopenBus (h : Running B v carried) {Q : Bool → Topo → Prop}
    (hQ : ∀ reopened bus calls, Running B { v with bus := bus, calls := calls } carried →
      (∀ s, unconfirmed calls s = unconfirmed v.calls s) →
      (reopened = true → B.Steady → ∀ s, unconfirmed calls s = false) →
      (∀ supported, B.Cooperates supported → bus = true) →
      Q reopened { v with bus := bus, calls := calls }) :
    (topoMachine B).wp reopenBus Q v := by
  unfold reopenBus
  rw [wp_bind', wp_isBusOpen]
  intro opened hopened
  rw [wp_ite]
  split
  next hyes =>
    refine hQ false v.bus v.calls h (fun _ => rfl) nofun fun supported hcoop => ?_
    rw [← (hcoop.isBusOpen _ _).1 hopened, hyes]
  next hno =>
    have hclosed : B.Steady → v.bus = false := by
      intro hsteady
      rw [← hsteady _ _ hopened]
      simpa using hno
    refine (wp_ensureBusOpen h.unlocked).2 fun answer bus hbus => ?_
    refine hQ answer bus _ ⟨h.unlocked, h.closed, ?_⟩ (fun _ => rfl) ?_ ?_
    · exact h.sound.call (h.sound.ledger.ensure hclosed answer bus)
    · exact fun _ hsteady s => (h.sound.ledger.closed hsteady (hclosed hsteady) s).2.1
    · exact fun supported hcoop => ((hcoop.ensureBusOpen _ _ _).1 hbus).2

/-- A serial that the operation reserved may be plugged. -/
theorem plug_pre {s : Nat} {g : GamepadIdentity} {preferred : String}
    (h : Running B v ((s, .empty) :: carried)) :
    Topo.pre B (.pluginDevicePreferring s g preferred) v := by
  obtain ⟨hout, hunc⟩ := h.sound.ledger.fresh
  exact ⟨h.unlocked, h.closed, h.sound.unpublished (by simp), hout, hunc⟩

theorem wp_plugPad {busOpen : Bool}
    (h : Running B v (pad.carried second ++ carried))
    (hplug : plugsInRound pad second = true → pad.plugged = false)
    (hbus : busOpen = true → B.Steady → v.bus = true) {Q : PadChange → Topo → Prop}
    (hQ : ∀ calls pad', Running B { v with calls := calls } (pad'.carried second ++ carried) →
      Plugs second pad pad' → (∀ s, unconfirmed calls s = unconfirmed v.calls s) →
      (busOpen = true → ∀ supported, B.Cooperates supported →
        plugsInRound pad' second = true → pad'.plugged = true) →
      Q pad' { v with calls := calls }) :
    (topoMachine B).wp (plugPad second busOpen pad) Q v := by
  unfold plugPad
  rw [wp_ite]
  split
  next hin =>
    have hnot := hplug hin
    have hcar : ∀ pad' : PadChange, Plugs second pad pad' → pad'.carried second =
        [(pad.serial, if pad'.plugged then .plugged else .empty)] := by
      intro pad' hp
      have hserial : pad'.serial = pad.serial := by rw [hp.eq]
      rw [PadChange.carried, hp.plugsInRound, if_pos hin, hserial]
    have hrun : Running B v ((pad.serial, .empty) :: carried) := by
      simpa [hcar pad ⟨rfl, fun _ => rfl⟩, hnot] using h
    rw [wp_ite]
    split
    next hopen =>
      rw [wp_bind']
      refine (wp_pluginDevice (plug_pre hrun)).2 fun answer hanswer => ?_
      have hp : Plugs second pad { pad with busDown := false, plugged := answer } := by
        refine ⟨rfl, fun hno => ?_⟩
        rw [hin] at hno
        cases hno
      refine hQ _ _ ?_ hp (fun s => ?_) fun _ supported hcoop _ => ?_
      · rw [hcar _ hp]
        exact ⟨h.unlocked, h.closed,
          hrun.sound.call (hrun.sound.ledger.plug (hbus hopen) answer)⟩
      · cases answer <;> rfl
      · exact (hcoop.pluginDevice _ _ _ _).1 hanswer
    next hclosed =>
      have hp : Plugs second pad { pad with busDown := true } := by
        refine ⟨rfl, fun hno => ?_⟩
        rw [hin] at hno
        cases hno
      refine hQ v.calls _ ?_ hp (fun _ => rfl) fun hopen => absurd hopen hclosed
      rw [hcar _ hp]
      simpa [hnot] using hrun
  next hout =>
    exact hQ v.calls pad h ⟨rfl, fun _ => rfl⟩ (fun _ => rfl) fun _ _ _ hin => absurd hin hout

variable {pads : List PadChange}

theorem wp_plugLoop {busOpen : Bool}
    (h : Running B v (padsCarried second pads ++ carried))
    (hplug : ∀ pad ∈ pads, plugsInRound pad second = true → pad.plugged = false)
    (hbus : busOpen = true → B.Steady → v.bus = true) {Q : List PadChange → Topo → Prop}
    (hQ : ∀ calls pads', Running B { v with calls := calls } (padsCarried second pads' ++ carried) →
      List.Forall₂ (Plugs second) pads pads' →
      (∀ s, unconfirmed calls s = unconfirmed v.calls s) →
      (busOpen = true → ∀ supported, B.Cooperates supported →
        ∀ pad ∈ pads', plugsInRound pad second = true → pad.plugged = true) →
      Q pads' { v with calls := calls }) :
    (topoMachine B).wp (Prog.mapEach pads (plugPad second busOpen)) Q v := by
  induction pads generalizing v carried Q with
  | nil => exact hQ v.calls [] h .nil (fun _ => rfl) nofun
  | cons pad rest ih =>
    have hfirst : Running B v (pad.carried second ++ (padsCarried second rest ++ carried)) := by
      rw [← append_assoc]
      exact h
    simp only [Prog.mapEach, Machine.wp_bind, Machine.wp_ret]
    refine wp_plugPad hfirst (hplug pad mem_cons_self) hbus
      fun calls₁ pad' h₁ hp hunc₁ hserved₁ => ?_
    have hrest : Running B { v with calls := calls₁ }
        (padsCarried second rest ++ (pad'.carried second ++ carried)) :=
      h₁.perm (perm_append_comm_assoc ..)
    refine ih hrest (fun q hq => hplug q (mem_cons_of_mem _ hq)) hbus
      fun calls₂ pads' h₂ hps hunc₂ hserved₂ => ?_
    exact hQ calls₂ (pad' :: pads') (h₂.perm padsCarried_cons_perm) (.cons hp hps)
      (fun s => (hunc₂ s).trans (hunc₁ s)) fun hopen supported hcoop => forall_mem_cons.2
        ⟨hserved₁ hopen supported hcoop, hserved₂ hopen supported hcoop⟩

variable {change : TopologyChange} {Q : TopologyChange → Topo → Prop}

/-- The calls of a round, made without `mtx_`. -/
theorem wp_plugPads
    (h : Running B v (padsCarried second change.pads ++ carried))
    (hplug : ∀ pad ∈ change.pads, plugsInRound pad second = true → pad.plugged = false)
    (hfirst : change.busReopened = false)
    (hQ : ∀ bus calls pads' reopened,
      Running B { v with bus := bus, calls := calls } (padsCarried second pads' ++ carried) →
      List.Forall₂ (Plugs second) change.pads pads' →
      (reopened = true → B.Steady → ∀ s, unconfirmed calls s = false) →
      (∀ supported, B.Cooperates supported →
        ∀ pad ∈ pads', plugsInRound pad second = true → pad.plugged = true) →
      Q { pads := pads', retired := change.retired, busReopened := reopened }
        { v with bus := bus, calls := calls }) :
    (topoMachine B).wp (plugPads change second) Q v := by
  obtain ⟨pads, retired, busReopened⟩ := change
  obtain rfl : busReopened = false := hfirst
  unfold plugPads
  rw [wp_ite]
  split
  · rw [wp_bind']
    refine wp_reopenBus h fun reopened bus calls h₁ _ hlift hcoopBus => ?_
    rw [wp_bind', wp_isBusOpen]
    intro busOpen hopen
    rw [wp_bind']
    refine wp_plugLoop h₁ hplug (fun hyes hsteady => ?_) fun calls' pads' h₂ hps hunc hserved => ?_
    · rw [← hsteady _ _ hopen, hyes]
    · rw [wp_pure, Bool.false_or]
      refine hQ bus calls' pads' reopened h₂ hps (fun hre hsteady s => ?_) fun supported hcoop => ?_
      · rw [hunc s]
        exact hlift hre hsteady s
      · refine hserved ?_ supported hcoop
        rw [(hcoop.isBusOpen _ _).1 hopen, ← hcoopBus supported hcoop]
  next hnone =>
    have hout : ∀ pad ∈ pads, plugsInRound pad second = false := by simpa using hnone
    refine hQ v.bus v.calls pads false h ?_ nofun fun _ _ pad hpad hin => ?_
    · exact forall₂_same.2 fun pad _ => ⟨rfl, fun _ => rfl⟩
    · rw [hout pad hpad] at hin
      cases hin

/-! ## Serials for the second round -/

/-- A program that looks for a serial: none is given only when none is free. -/
def Allocates (B : Backend) (p : TProg Nat) : Prop :=
  ∀ (v : Topo) (carried : Carried) (Q : Nat → Topo → Prop), Holding B v carried →
    (Full v → Q 0 v) →
    (∀ s v', s ≠ 0 → Holding B v' ((s, .empty) :: carried) → Reserves v v' → Q s v') →
    (topoMachine B).wp p Q v

theorem allocates_allocateSerial : Allocates B allocateSerial :=
  fun _ _ _ h hnone hsome => wp_allocate h hnone hsome

theorem allocates_claimOrAllocate (serial : Nat) : Allocates B (claimOrAllocate serial) := by
  intro v carried Q h hnone hsome
  unfold claimOrAllocate
  rw [wp_bind']
  by_cases hs : 1 ≤ serial ∧ serial ≤ 16
  · rw [wp_claimSerial h.locked hs]
    split
    · rw [wp_ite, if_neg (by simp)]
      exact wp_allocate h hnone hsome
    next hfree =>
      obtain ⟨hunused, hquar⟩ :
          v.cold.serialInUse serial = false ∧ v.cold.serialQuarantined serial = false := by
        simpa using hfree
      rw [wp_ite, if_pos rfl, wp_pure]
      refine hsome serial _ (by omega) ⟨h.locked, h.closed, ?_⟩ ⟨rfl, rfl, fun hfull => ?_⟩
      · exact h.sound.pool rfl rfl (h.sound.ledger.take hunused hquar hs)
      · have hnot := freeSerial_none hfull hs
        simp [hunused, hquar] at hnot
  · have hout : Cold.serialInRange serial = false := by
      rw [Bool.eq_false_iff, ne_eq, Cold.serialInRange_iff]
      exact hs
    simp only [claimSerialLocked, hout, Bool.false_eq_true, if_false, wp_pure]
    exact wp_allocate h hnone hsome

/-- A pad after serials were sought for the pads that `c` selects. -/
structure Serves (c : PadChange → Prop) (pad pad' : PadChange) : Prop where
  eq : pad' = { pad with serial := pad'.serial }
  other : ¬ c pad → pad' = pad

/-- A pad of the second round before it has a serial. -/
structure Unserved (pad : PadChange) : Prop where
  kind : pad.kind = .add ∨ pad.kind = .replugInPlace
  serial : pad.serial = 0
  plugged : pad.plugged = false

theorem Unserved.carried_serve (h : Unserved pad) (hwaits : pad.waits = true)
    (s : Nat) : PadChange.carried { pad with serial := s } true =
      if s = 0 then [] else [(s, .empty)] := by
  have hin : plugsInRound { pad with serial := s } true = decide (s ≠ 0) := by
    rcases h.kind with hk | hk <;> simp [plugsInRound, hk, hwaits, Bool.beq_eq_decide_eq, bne]
  rw [PadChange.carried, hin]
  by_cases hs : s = 0 <;> simp [hs, h.plugged]

/-- Serials for the pads that `c` selects, one after the other. -/
theorem wp_serveLoop {c : PadChange → Prop} [DecidablePred c] {alloc : PadChange → TProg Nat}
    (halloc : ∀ pad, Allocates B (alloc pad))
    (h : Holding B v (padsCarried true pads ++ carried))
    (hp : ∀ pad ∈ pads, c pad → Unserved pad ∧ pad.waits = true)
    {Q : List PadChange → Topo → Prop}
    (hQ : ∀ v' pads', Holding B v' (padsCarried true pads' ++ carried) → Reserves v v' →
      List.Forall₂ (Serves c) pads pads' → (∀ pad ∈ pads', c pad → pad.serial = 0 → Full v') →
      Q pads' v') :
    (topoMachine B).wp (Prog.mapEach pads fun pad =>
      if c pad then do
        let serial ← alloc pad
        pure { pad with serial := serial }
      else pure pad) Q v := by
  induction pads generalizing v carried Q with
  | nil => exact hQ v [] h (.refl v) .nil nofun
  | cons pad rest ih =>
    have hrest := fun q hq => hp q (mem_cons_of_mem pad hq)
    simp only [Prog.mapEach, Machine.wp_bind, Machine.wp_ret]
    -- However the first pad fares, the others go on from there.
    have hnext : ∀ v₁ pad', Holding B v₁ (padsCarried true rest ++ (pad'.carried true ++ carried)) →
        Reserves v v₁ → Serves c pad pad' → (c pad' → pad'.serial = 0 → Full v₁) →
        (topoMachine B).wp (Prog.mapEach rest fun pad =>
          if c pad then do
            let serial ← alloc pad
            pure { pad with serial := serial }
          else pure pad) (fun pads' t => Q (pad' :: pads') t) v₁ := by
      intro v₁ pad' h₁ hres₁ hserves hfull₁
      refine ih h₁ hrest fun v₂ pads' h₂ hres₂ hall hfull₂ => ?_
      refine hQ v₂ (pad' :: pads') ?_ (hres₁.trans hres₂) (.cons hserves hall) ?_
      · exact { h₂ with
          sound := { h₂.sound with ledger := h₂.sound.ledger.perm padsCarried_cons_perm } }
      · intro q hq hcq hs
        rcases mem_cons.1 hq with rfl | hq
        · have hfull := hfull₁ hcq hs
          rw [hres₂.full hfull]
          exact hfull
        · exact hfull₂ q hq hcq hs
    have hswap : ∀ (v₁ : Topo) (own : Carried),
        Holding B v₁ (own ++ (padsCarried true rest ++ carried)) →
        Holding B v₁ (padsCarried true rest ++ (own ++ carried)) := fun v₁ own h₁ =>
      { h₁ with sound := { h₁.sound with
        ledger := h₁.sound.ledger.perm (perm_append_comm_assoc ..) } }
    have hstart : Holding B v (pad.carried true ++ (padsCarried true rest ++ carried)) := by
      rw [← append_assoc]
      exact h
    by_cases hcp : c pad
    · obtain ⟨hun, hwaits⟩ := hp pad mem_cons_self hcp
      have hserve : ∀ s, Serves c pad { pad with serial := s } :=
        fun s => ⟨rfl, fun hnot => absurd hcp hnot⟩
      have hown := hun.carried_serve hwaits
      have hnone : pad.carried true = [] := by
        have hzero := hown pad.serial
        rwa [if_pos hun.serial] at hzero
      rw [hnone, nil_append] at hstart
      rw [wp_ite, if_pos hcp, wp_bind']
      refine halloc pad v _ _ hstart (fun hfull => ?_) fun s v₁ hs h₁ hres => ?_
      · refine hnext v _ (hswap v _ ?_) (.refl v) (hserve 0) fun _ _ => hfull
        rw [hown 0, if_pos rfl]
        exact hstart
      · refine hnext v₁ _ (hswap v₁ _ ?_) hres (hserve s) fun _ hzero => absurd hzero hs
        rw [hown s, if_neg hs]
        exact h₁
    · rw [wp_ite, if_neg hcp, wp_pure]
      exact hnext v pad (hswap v _ hstart) (.refl v) ⟨rfl, fun _ => rfl⟩
        fun hc' => absurd hc' hcp

/-- A pad between the two rounds, as the plan and the first round leave it. -/
structure Between (pad : PadChange) : Prop where
  unserved : pad.waits = true → Unserved pad
  inPlace : pad.kind = .replugInPlace → pad.waits = true

theorem wp_allocateWaiting (h : Holding B v carried)
    (hp : ∀ pad ∈ change.pads, Between pad) {Q : TopologyChange × Bool → Topo → Prop}
    (hQ : ∀ v' pads', Holding B v' (padsCarried true pads' ++ carried) → Reserves v v' →
      List.Forall₂ (Serves fun pad => pad.waits = true) change.pads pads' →
      (∀ pad ∈ pads', pad.waits = true → pad.serial = 0 → Full v') →
      Q ({ change with pads := pads' }, change.pads.any PadChange.waits) v') :
    (topoMachine B).wp (allocateWaitingLocked change) Q v := by
  have hnone : padsCarried true change.pads = [] := by
    refine flatMap_eq_nil_iff.2 fun pad hpad => ?_
    rw [PadChange.carried, if_neg]
    intro hin
    simp only [plugsInRound, Bool.and_eq_true, beq_iff_eq, bne_iff_ne] at hin
    exact hin.1.2 ((hp pad hpad).unserved hin.2).serial
  have hstart : Holding B v (padsCarried true change.pads ++ carried) := by
    rw [hnone]
    exact h
  have hflag : (change.pads.any fun pad =>
      pad.kind == .replugInPlace || (pad.kind == .add && pad.waits)) =
      change.pads.any PadChange.waits := by
    rw [Bool.eq_iff_iff, any_eq_true, any_eq_true]
    constructor
    · rintro ⟨pad, hpad, hkind⟩
      refine ⟨pad, hpad, ?_⟩
      simp only [Bool.or_eq_true, beq_iff_eq, Bool.and_eq_true] at hkind
      rcases hkind with hkind | hadd
      · exact (hp pad hpad).inPlace hkind
      · exact hadd.2
    · rintro ⟨pad, hpad, hwaits⟩
      refine ⟨pad, hpad, ?_⟩
      rcases ((hp pad hpad).unserved hwaits).kind with hk | hk <;> simp [hk, hwaits]
  unfold allocateWaitingLocked
  rw [wp_bind', hflag]
  refine wp_serveLoop (fun pad => allocates_claimOrAllocate pad.retiring) hstart
    (fun pad hpad hkind => ?_) fun v₁ pads₁ h₁ hres₁ hall₁ hfull₁ => ?_
  · have hwaits := (hp pad hpad).inPlace hkind
    exact ⟨(hp pad hpad).unserved hwaits, hwaits⟩
  rw [wp_bind']
  refine wp_serveLoop (fun _ => allocates_allocateSerial) h₁ (fun q hq hadd => ?_)
    fun v₂ pads₂ h₂ hres₂ hall₂ hfull₂ => ?_
  · -- A waiting add was passed over by the first search.
    obtain ⟨pad, hpad, hserves⟩ := mem_of_forall₂ hall₁ hq
    have hkind : pad.kind = q.kind := by rw [hserves.eq]
    have hsame : q = pad := hserves.other (by simp [hkind, hadd.1])
    subst hsame
    exact ⟨(hp q hpad).unserved hadd.2, hadd.2⟩
  · refine hQ v₂ pads₂ h₂ (hres₁.trans hres₂)
      (forall₂_trans ?_ ((forall₂_and_left _ _).2 ⟨hp, hall₁⟩) hall₂) ?_
    · rintro a b c ⟨ha, hab⟩ hbc
      refine ⟨?_, fun hwaits => ?_⟩
      · rw [hbc.eq, hab.eq]
      · have hb : b = a := hab.other fun hkind => hwaits (ha.inPlace hkind)
        subst hb
        exact hbc.other fun hadd => hwaits hadd.2
    · intro q hq hwaits hs
      obtain ⟨q₁, hq₁, hserves⟩ := mem_of_forall₂ hall₂ hq
      by_cases hadd : q₁.kind = .add ∧ q₁.waits = true
      · have hkind : q.kind = .add := by
          rw [hserves.eq]
          exact hadd.1
        exact hfull₂ q hq ⟨hkind, hwaits⟩ hs
      · -- A pad that is refitted found the pool full in the first search already.
        have hsame := hserves.other hadd
        subst hsame
        have hkind : q.kind = .replugInPlace := by
          obtain ⟨pad, hpad, hserves₁⟩ := mem_of_forall₂ hall₁ hq₁
          have hk : pad.kind = q.kind := by rw [hserves₁.eq]
          have hw : pad.waits = q.waits := by rw [hserves₁.eq]
          rcases ((hp pad hpad).unserved (hw.trans hwaits)).kind with hadd' | hin
          · exact absurd ⟨hk.symm.trans hadd', hwaits⟩ hadd
          · exact hk.symm.trans hin
        have hfull := hfull₁ q hq₁ hkind hs
        rw [hres₂.full hfull]
        exact hfull

/-! ## One round -/

/-- Only the record of one row changed, and no serial went into quarantine. -/
structure Keeps (v v' : Topo) (row : Nat) : Prop where
  others : ∀ r, r ≠ row → v'.cold.conn? r = v.cold.conn? r
  rows : v'.cold.connections.map Connection.row = v.cold.connections.map Connection.row
  quarantined : ∀ s, v'.cold.serialQuarantined s = true → v.cold.serialQuarantined s = true

/-- The section of a round: commit its pads and publish the record. -/
theorem wp_commitAndPublish
    (h : Running B v (padsCarried second change.pads ++ carried))
    (hk : v.cold.conn? row = some k)
    (hp : ∀ pad ∈ change.pads, RoundPre second pad (k.controllers pad.desc.ctrlIdx))
    (hidx : (change.pads.map (·.desc.ctrlIdx)).Nodup)
    (hlift : change.busReopened = true → B.Steady → ∀ s, unconfirmed v.calls s = false)
    (hQ : ∀ v' k' new, Running B v' (retiring new ++ carried) → v'.cold.conn? row = some k' →
      Keeps v v' row → Committed second change.pads k k' → (second = true → new = []) →
      Q { pads := change.pads.map fun pad =>
            roundOutcome second pad (k.controllers pad.desc.ctrlIdx)
          retired := change.retired ++ new, busReopened := false } v') :
    (topoMachine B).wp (locked do
      let change ← commitPadsLocked row change second
      publishControllersLocked row
      pure change) Q v := by
  have hmem := Cold.mem_of_conn? hk
  have hkey := (h.sound.shows k hmem nofun not_mem_nil).keyShown
  have hown := h.sound.ownersMatch hmem
  refine wp_locked h.unlocked ?_
  rw [wp_bind']
  refine wp_commitPads (h.acquire.editing hk) hp hidx hlift fun v₁ k' new hb hed hcom hnew => ?_
  have hmem₁ : v₁.mem = v.mem := by
    rw [hb.eq]
    split <;> rfl
  have hslot : k'.slot = k.slot := by rw [hcom.same]
  have hkeeps : Keeps v v₁ row := by
    refine ⟨fun r hr => (hb.cold.others r hr).trans ?_, hb.cold.rows.trans ?_, fun s hs => ?_⟩
    · split <;> rfl
    · split <;> rfl
    · rw [hb.cold.serialQuarantined] at hs
      split at hs
      · cases hs
      · exact hs
  rw [wp_bind']
  refine wp_publishControllersLocked hed ?_ ?_ fun mem' held' hhold => ?_
  · rw [hmem₁, hcom.same]
    exact ⟨hkey.packed, hkey.token, hkey.key, hkey.row⟩
  · rw [hmem₁, hslot]
    exact hown
  · refine ⟨⟨_, hhold⟩, hQ _ k' new hhold.release hed.conn ?_ hcom hnew⟩
    exact ⟨hkeeps.others, hkeeps.rows, hkeeps.quarantined⟩

/-! ## Between the rounds and after them -/

theorem length_padsCarried (second : Bool) (pads : List PadChange) :
    (padsCarried second pads).length = pads.countP (plugsInRound · second) := by
  induction pads with
  | nil => rfl
  | cons pad pads ih =>
    rw [padsCarried, flatMap_cons, length_append, ← padsCarried, ih, countP_cons,
      PadChange.carried, Nat.add_comm]
    split <;> simp_all

/-- A full pool has sixteen serials in use or quarantined. -/
theorem Full.le (h : Holding B v carried) (hfull : Full v) :
    16 ≤ v.cold.activeTotal + carried.length + v.cold.quarantinedCount := by
  by_contra hlt
  obtain ⟨s, hs⟩ := h.sound.exists_free (Int.not_le.1 hlt)
  rw [Full, hs] at hfull
  cases hfull

/-- A pad further on in its change: the request is the same, and a pad that does not wait is done. -/
structure Follows (pad pad' : PadChange) : Prop where
  desc : pad'.desc = pad.desc
  kind : pad'.kind = pad.kind
  waits : pad'.waits = pad.waits
  done : pad.waits = false → pad' = pad

theorem Follows.trans {a b c : PadChange} (h : Follows a b) (h' : Follows b c) : Follows a c where
  desc := h'.desc.trans h.desc
  kind := h'.kind.trans h.kind
  waits := h'.waits.trans h.waits
  done hw := (h'.done (h.waits.trans hw)).trans (h.done hw)

theorem Serves.follows (h : Serves (fun pad => pad.waits = true) pad pad') :
    Follows pad pad' where
  desc := by rw [h.eq]
  kind := by rw [h.eq]
  waits := by rw [h.eq]
  done hw := h.other (by simp [hw])

theorem Plugs.follows (h : Plugs true pad pad') : Follows pad pad' where
  desc := by rw [h.eq]
  kind := by rw [h.eq]
  waits := by rw [h.eq]
  done hw := h.other (by simp [SessionService.plugsInRound, hw])

theorem follows_roundOutcome (pad : PadChange) (p : Controller) :
    Follows pad (roundOutcome true pad p) where
  desc := by simp
  kind := by
    unfold roundOutcome
    split <;> simp
  waits := by
    unfold roundOutcome
    split <;> simp
  done hw := by simp [roundOutcome, hw]

/-- What is settled once the second round is over, given the pads and the record before it. -/
structure Settles (B : Backend) (v : Topo) (pads : List PadChange) (k : Connection)
    (pads' : List PadChange) (k' : Connection) : Prop where
  same : k.SameSession k'
  follows : List.Forall₂ Follows pads pads'
  reports : ∀ pad ∈ pads', pad.Matches (k'.controllers pad.desc.ctrlIdx)
  refuse : ∀ pad ∈ pads, pad.kind = .refuse →
    k'.controllers pad.desc.ctrlIdx = k.controllers pad.desc.ctrlIdx
  others : ∀ i, i ∉ pads.map (·.desc.ctrlIdx) → k'.controllers i = k.controllers i
  served : ∀ supported, B.Cooperates supported →
    v.cold.activeTotal + pads.countP PadChange.waits + v.cold.quarantinedCount ≤ 16 →
    ∀ pad ∈ pads', pad.waits = true → pad.result = .ok

/-- Fewer entries satisfy `p` than `q` if `p` implies `q` and some entry tells them apart. -/
theorem countP_lt_countP {α : Type} {p q : α → Bool} {l : List α}
    (hpq : ∀ a ∈ l, p a = true → q a = true)
    {a : α} (ha : a ∈ l) (hq : q a = true) (hp : p a = false) : l.countP p < l.countP q := by
  have hin : a ∈ l.filter q := mem_filter.2 ⟨ha, hq⟩
  have hlt := countP_lt_length_iff.2 ⟨a, hin, hp⟩
  rw [countP_filter, ← countP_eq_length_filter] at hlt
  have hand : l.countP (fun a => p a && q a) = l.countP p := by
    apply countP_congr
    intro b hb
    simpa using hpq b hb
  rwa [hand] at hlt

/-- A pad is left without a serial only if the waiting pads do not fit. -/
theorem waiting_exceeds
    (h : Holding B v (padsCarried true pads)) (hpad : pad ∈ pads) (hwaits : pad.waits = true)
    (hs : pad.serial = 0) (hfull : Full v) :
    16 < v.cold.activeTotal + pads.countP PadChange.waits + v.cold.quarantinedCount := by
  have hle := hfull.le h
  have hlt : pads.countP (plugsInRound · true) < pads.countP PadChange.waits := by
    apply countP_lt_countP _ hpad hwaits
    · simp [plugsInRound, hs]
    · intro q _ hq
      simp only [plugsInRound, Bool.and_eq_true, beq_iff_eq] at hq
      exact hq.2
  rw [length_padsCarried] at hle
  omega

/-- A pad of the second round as its plugging leaves it. -/
theorem RoundPre.of_plugged {pad₁ pad₂ : PadChange} {p : Controller}
    (hpost : RoundPost false pad p) (h₁ : Serves (fun pad => pad.waits = true) pad pad₁)
    (h₂ : Plugs true pad₁ pad₂) : RoundPre true pad₂ p := by
  have hf := h₁.follows.trans h₂.follows
  cases hw : pad.waits with
  | false =>
    rw [hf.done hw]
    simpa [RoundPre, RoundPost, hw] using hpost
  | true =>
    obtain ⟨hwait, hserial⟩ : pad.Waiting p ∧ pad.serial = 0 := by
      simpa [RoundPost, hw] using hpost
    have hunplugged : pad.plugged = false := by
      rw [Bool.eq_false_iff]
      exact fun hplug => hwait.plugged hplug hserial
    have hgoal : pad₂.Waiting p := by
      refine ⟨hf.waits.trans hw, ?_, ?_, hwait.vacant, fun hplug hzero => ?_⟩
      · rw [hf.kind]
        exact hwait.kind
      · rw [h₂.eq, h₁.eq]
        exact { hwait.fits with }
      · -- Without a serial the pad was not plugged in this round.
        have hserial₁ : pad₁.serial = 0 := by
          rw [h₂.eq] at hzero
          exact hzero
        have hsame := h₂.other (by simp [plugsInRound, hserial₁])
        rw [hsame, h₁.eq] at hplug
        rw [show pad.plugged = true from hplug] at hunplugged
        cases hunplugged
    simpa [RoundPre, hf.waits.trans hw] using hgoal

/-- A pad of the second round that was plugged is committed as it is. -/
theorem roundOutcome_plugged (hplug : pad.plugged = true) (p : Controller) :
    roundOutcome true pad p = pad := by
  unfold roundOutcome
  split
  · rfl
  · unfold PadChange.committed
    split <;> simp [hplug]

/-- The outcome of a second round that was held. -/
theorem Settles.of_committed {pads₁ pads₂ : List PadChange} {k' : Connection}
    (hpost : ∀ pad ∈ pads, RoundPost false pad (k.controllers pad.desc.ctrlIdx))
    (hall₁ : List.Forall₂ (Serves fun pad => pad.waits = true) pads pads₁)
    (hall₂ : List.Forall₂ (Plugs true) pads₁ pads₂) (hcom : Committed true pads₂ k k')
    (hserved : ∀ supported, B.Cooperates supported →
      v.cold.activeTotal + pads.countP PadChange.waits + v.cold.quarantinedCount ≤ 16 →
      ∀ pad ∈ pads₁, pad.waits = true → pad.serial ≠ 0)
    (hplugged : ∀ supported, B.Cooperates supported →
      ∀ pad ∈ pads₂, plugsInRound pad true = true → pad.plugged = true) :
    Settles B v pads k (pads₂.map fun pad =>
      roundOutcome true pad (k.controllers pad.desc.ctrlIdx)) k' := by
  have hall : List.Forall₂ Follows pads pads₂ :=
    forall₂_trans (fun _ _ _ hs hp => hs.follows.trans hp.follows) hall₁ hall₂
  refine ⟨hcom.same, ?_, ?_, ?_, ?_, ?_⟩
  · refine forall₂_trans (S := Follows) (fun _ _ _ hab hbc => hab.trans hbc) hall ?_
    exact forall₂_map_right_iff.2 (forall₂_same.2 fun pad _ => follows_roundOutcome _ _)
  · intro pad hpad
    obtain ⟨pad₂, hpad₂, rfl⟩ := mem_map.1 hpad
    rw [roundOutcome_desc]
    exact hcom.post pad₂ hpad₂
  · intro pad hpad hkind
    obtain ⟨pad₂, hpad₂, hf⟩ := mem_of_forall₂ (List.Forall₂.flip hall) hpad
    have hf : Follows pad pad₂ := hf
    rw [← hf.desc]
    exact hcom.refuse pad₂ hpad₂ (hf.kind.trans hkind)
  · intro i hi
    have hsame := map_eq_of_forall₂ (fun _ _ hf => congrArg (·.ctrlIdx) (Follows.desc hf)) hall
    apply hcom.others
    rw [hsame]
    exact hi
  · intro supported hcoop hcap pad hpad hw
    obtain ⟨pad₂, hpad₂, rfl⟩ := mem_map.1 hpad
    obtain ⟨pad₁, hpad₁, hplugs⟩ := mem_of_forall₂ hall₂ hpad₂
    obtain ⟨pad₀, hpad₀, hserves⟩ := mem_of_forall₂ hall₁ hpad₁
    have hw₂ : pad₂.waits = true := (follows_roundOutcome _ _).waits.symm.trans hw
    have hw₁ : pad₁.waits = true := hplugs.follows.waits.symm.trans hw₂
    have hw₀ : pad₀.waits = true := hserves.follows.waits.symm.trans hw₁
    obtain ⟨hwait, -⟩ : pad₀.Waiting (k.controllers pad₀.desc.ctrlIdx) ∧ pad₀.serial = 0 := by
      simpa [RoundPost, hw₀] using hpost pad₀ hpad₀
    have hserial := hserved supported hcoop hcap pad₁ hpad₁ hw₁
    have hin : plugsInRound pad₁ true = true := by
      have hkind := hserves.follows.kind
      rcases hwait.kind with hk | hk <;> simp [plugsInRound, hkind, hk, hserial, hw₁]
    have hplug := hplugged supported hcoop pad₂ hpad₂ ((hplugs.plugsInRound true).trans hin)
    have hresult : pad₂.result = pad₀.result := by rw [hplugs.eq, hserves.eq]
    rw [roundOutcome_plugged hplug, hresult]
    exact hwait.fits.result

/-- Without a second round the pads are settled already. -/
theorem Settles.of_none (hnone : pads.any PadChange.waits = false)
    (hpost : ∀ pad ∈ pads, RoundPost false pad (k.controllers pad.desc.ctrlIdx)) :
    Settles B v pads k pads k := by
  have hwaits : ∀ pad ∈ pads, pad.waits = false := by simpa using hnone
  refine ⟨.refl k, ?_, ?_, fun _ _ _ => rfl, fun _ _ => rfl, ?_⟩
  · exact forall₂_same.2 fun pad _ => ⟨rfl, rfl, rfl, fun _ => rfl⟩
  · intro pad hpad
    simpa [RoundPost, hwaits pad hpad] using hpost pad hpad
  · intro _ _ _ pad hpad hw
    rw [hwaits pad hpad] at hw
    cases hw

/-- The change between its rounds: what the first one retired is settled, and the pads that
waited have their own round. -/
theorem wp_settlePadChange (h : Running B v (retiring change.retired))
    (hk : v.cold.conn? row = some k)
    (hpost : ∀ pad ∈ change.pads, RoundPost false pad (k.controllers pad.desc.ctrlIdx))
    (hplace : ∀ pad ∈ change.pads, pad.kind = .replugInPlace → pad.waits = true)
    (hidx : (change.pads.map (·.desc.ctrlIdx)).Nodup) (hre : change.busReopened = false)
    (hQ : ∀ v' k' change', Settled B v' → v'.cold.conn? row = some k' →
      Settles B v change.pads k change'.pads k' → Q change' v') :
    (topoMachine B).wp (settlePadChange row change) Q v := by
  have hrun : Running B v (retiring change.retired ++ []) := by simpa using h
  have hbetween : ∀ pad ∈ change.pads, Between pad := by
    intro pad hpad
    refine ⟨fun hw => ?_, hplace pad hpad⟩
    obtain ⟨hwait, hserial⟩ : pad.Waiting (k.controllers pad.desc.ctrlIdx) ∧ pad.serial = 0 := by
      simpa [RoundPost, hw] using hpost pad hpad
    refine ⟨hwait.kind, hserial, ?_⟩
    rw [Bool.eq_false_iff]
    exact fun hplug => hwait.plugged hplug hserial
  unfold settlePadChange
  rw [wp_bind']
  refine wp_unplugRetired hrun fun calls retired' h₁ hallowed => ?_
  rw [wp_bind']
  refine wp_locked h₁.unlocked ?_
  rw [wp_bind']
  refine wp_settleRetired h₁.acquire fun v₂ h₂ hpool₂ hquar₂ => ?_
  refine wp_allocateWaiting h₂ (by exact hbetween)
    fun v₃ pads₁ h₃ hres₃ hall₁ hfull => ⟨⟨_, h₃⟩, ?_⟩
  rw [append_nil] at h₃
  have hconn₃ : v₃.cold.connections = v.cold.connections :=
    hres₃.pool.connections.trans hpool₂.connections
  have hk₃ : v₃.cold.conn? row = some k := by
    rw [← hk, Cold.conn?, Cold.conn?, hconn₃]
  -- A backend that cooperates leaves no pad without a serial if all of them fit.
  have hserved : ∀ supported, B.Cooperates supported →
      v.cold.activeTotal + change.pads.countP PadChange.waits + v.cold.quarantinedCount ≤ 16 →
      ∀ pad ∈ pads₁, pad.waits = true → pad.serial ≠ 0 := by
    intro supported hcoop hcap pad hpad hw hs
    have hlt := waiting_exceeds h₃ hpad hw hs (hfull pad hpad hw hs)
    have htotal : v₃.cold.activeTotal = v.cold.activeTotal := by
      rw [Cold.activeTotal, Cold.activeTotal, hconn₃]
    have hquar : v₃.cold.quarantinedCount = v.cold.quarantinedCount := by
      rw [Cold.quarantinedCount, Cold.quarantinedCount, hres₃.quarantined, hquar₂]
      exact fun r hr => (hcoop.unplugDevice _ _).1 (hallowed r hr)
    have hcount : pads₁.countP PadChange.waits = change.pads.countP PadChange.waits := by
      have hmap := map_eq_of_forall₂ (fun _ _ hs => hs.follows.waits) hall₁
      have hcong := congrArg (List.countP id) hmap
      rwa [countP_map, countP_map] at hcong
    rw [htotal, hquar, hcount] at hlt
    omega
  have hrun₃ : Running B v₃.release (padsCarried true pads₁ ++ []) := by simpa using h₃.release
  rw [wp_ite]
  split
  · rw [wp_bind']
    refine wp_plugPads hrun₃ (fun pad₁ hpad₁ hin => ?_) hre
      fun bus calls' pads₂ reopened h₄ hall₂ hlift hplugged => ?_
    · obtain ⟨pad, hpad, hserves⟩ := mem_of_forall₂ hall₁ hpad₁
      have hw : pad₁.waits = true := by
        simp only [plugsInRound, Bool.and_eq_true, beq_iff_eq] at hin
        exact hin.2
      have hun := (hbetween pad hpad).unserved (hserves.follows.waits.symm.trans hw)
      rw [hserves.eq]
      exact hun.plugged
    have hidx₂ : (pads₂.map (·.desc.ctrlIdx)).Nodup := by
      have hsame₁ := map_eq_of_forall₂ (fun _ _ hs => congrArg (·.ctrlIdx) hs.follows.desc) hall₁
      have hsame₂ := map_eq_of_forall₂ (fun _ _ hs => congrArg (·.ctrlIdx) hs.follows.desc) hall₂
      rw [hsame₂, hsame₁]
      exact hidx
    refine wp_commitAndPublish h₄ hk₃ ?_ hidx₂ hlift
      fun v' k' new hrun' hk' _ hcom hnew => ?_
    · intro pad₂ hpad₂
      obtain ⟨pad₁, hpad₁, hplugs⟩ := mem_of_forall₂ hall₂ hpad₂
      obtain ⟨pad, hpad, hserves⟩ := mem_of_forall₂ hall₁ hpad₁
      have hdesc := (hserves.follows.trans hplugs.follows).desc
      rw [hdesc]
      exact RoundPre.of_plugged (hpost pad hpad) hserves hplugs
    · have hnil := hnew rfl
      subst hnil
      exact hQ v' k' _ (by simpa [retiring] using hrun') hk'
        (Settles.of_committed hpost hall₁ hall₂ hcom hserved hplugged)
  next hnone =>
    rw [Bool.not_eq_true] at hnone
    have hwaits : ∀ pad ∈ change.pads, pad.waits = false := by simpa using hnone
    -- No pad waits, so the search changed nothing and nothing is carried.
    have hsame : pads₁ = change.pads := by
      have hid := map_eq_of_forall₂ (f := id) (g := id) (fun a b hab => ?_)
        ((forall₂_and_left _ _).2 ⟨hwaits, hall₁⟩)
      · rwa [map_id, map_id] at hid
      · exact hab.2.follows.done hab.1
    have hcarried : padsCarried true pads₁ = [] := by
      rw [hsame]
      refine flatMap_eq_nil_iff.2 fun pad hpad => ?_
      simp [PadChange.carried, plugsInRound, hwaits pad hpad]
    refine hQ v₃.release k _ (by simpa [hcarried] using hrun₃) hk₃ ?_
    simp only [hsame]
    exact Settles.of_none hnone hpost

/-! ## The whole change -/

/-- Plugging a pad of the first round keeps what its plan promises. -/
theorem Plugs.planned {p : Controller} (h : Plugs false pad pad')
    (hp : pad.Planned p) : pad'.Planned p := by
  cases hin : SessionService.plugsInRound pad false with
  | false =>
    rw [h.other hin]
    exact hp
  | true =>
    simp only [SessionService.plugsInRound, Bool.and_eq_true, Bool.or_eq_true, beq_iff_eq,
      bne_iff_ne] at hin
    obtain ⟨⟨hkind, hserial⟩, hwaits⟩ := hin
    rw [h.eq]
    rcases hkind with (hk | hk) | hk
    · simp only [PadChange.Planned, hk] at hp ⊢
      exact ⟨{ hp.1 with }, hp.2.1, hp.2.2.1, fun _ => hserial⟩
    · simp only [PadChange.Planned, hk] at hp ⊢
      exact ⟨hp.1, { hp.2.1 with }, hp.2.2.1, fun _ => hserial⟩
    · -- A pad that is replugged in place waits.
      simp only [PadChange.Planned, hk] at hp
      rw [hp.1] at hwaits
      cases hwaits

/-- The plan of a change after the calls of its first round. -/
theorem Plan.plugged_round {pads' : List PadChange} (h : Plan k pads)
    (hall : List.Forall₂ (Plugs false) pads pads') :
    (∀ pad ∈ pads', pad.Planned (k.controllers pad.desc.ctrlIdx)) ∧
      pads'.map (·.desc) = pads.map (·.desc) := by
  constructor
  · intro pad' hpad'
    obtain ⟨pad, hpad, hplugs⟩ := mem_of_forall₂ hall hpad'
    have hdesc : pad'.desc = pad.desc := by rw [hplugs.eq]
    rw [hdesc]
    exact hplugs.planned (h.planned pad hpad)
  · exact map_eq_of_forall₂ (fun _ _ hplugs => by rw [hplugs.eq]) hall

@[simp] theorem roundOutcome_kind (second : Bool) (pad : PadChange) (p : Controller) :
    (roundOutcome second pad p).kind = pad.kind := by
  unfold roundOutcome
  split <;> simp

@[simp] theorem roundOutcome_waits (second : Bool) (pad : PadChange) (p : Controller) :
    (roundOutcome second pad p).waits = pad.waits := by
  unfold roundOutcome
  split <;> simp

/-- What the first round leaves is what settling the change starts from. -/
theorem Committed.first_round {k' : Connection}
    (h : Committed false pads k k')
    (hp : ∀ pad ∈ pads, pad.Planned (k.controllers pad.desc.ctrlIdx))
    (hpad : pad ∈ pads.map fun pad => roundOutcome false pad (k.controllers pad.desc.ctrlIdx)) :
    RoundPost false pad (k'.controllers pad.desc.ctrlIdx) ∧
      (pad.kind = .replugInPlace → pad.waits = true) := by
  obtain ⟨q, hq, rfl⟩ := mem_map.1 hpad
  rw [roundOutcome_desc, roundOutcome_kind, roundOutcome_waits]
  refine ⟨h.post q hq, fun hkind => ?_⟩
  have hplanned := hp q hq
  simp only [PadChange.Planned, hkind] at hplanned
  exact hplanned.1

/-- A pad at the end of its change: the request is the same, and a refused pad is as planned. -/
structure Ends (pad pad' : PadChange) : Prop where
  desc : pad'.desc = pad.desc
  kind : pad'.kind = pad.kind
  waits : pad'.waits = pad.waits
  refuse : pad.kind = .refuse → pad.waits = false → pad' = pad

theorem Ends.trans {a b c : PadChange} (h : Ends a b) (h' : Ends b c) : Ends a c where
  desc := h'.desc.trans h.desc
  kind := h'.kind.trans h.kind
  waits := h'.waits.trans h.waits
  refuse hk hw :=
    (h'.refuse (h.kind.trans hk) (h.waits.trans hw)).trans (h.refuse hk hw)

theorem Plugs.ends (h : Plugs second pad pad') :
    Ends pad pad' where
  desc := by rw [h.eq]
  kind := by rw [h.eq]
  waits := by rw [h.eq]
  refuse hk _ := h.other (by simp [SessionService.plugsInRound, hk])

theorem Follows.ends (h : Follows pad pad') : Ends pad pad' :=
  ⟨h.desc, h.kind, h.waits, fun _ hw => h.done hw⟩

theorem ends_roundOutcome (pad : PadChange) (p : Controller) : Ends pad (roundOutcome false pad p) where
  desc := roundOutcome_desc ..
  kind := roundOutcome_kind ..
  waits := roundOutcome_waits ..
  refuse hk _ := by simp [roundOutcome, PadChange.committed, hk]

/-- The pads of a change at its end, against those of its plan. -/
theorem ends_of_rounds {pads₁ pads' : List PadChange}
    (hplugs : List.Forall₂ (Plugs false) pads pads₁)
    (hfollows : List.Forall₂ Follows (pads₁.map fun pad =>
      roundOutcome false pad (k.controllers pad.desc.ctrlIdx)) pads') :
    List.Forall₂ Ends pads pads' := by
  have hround : List.Forall₂ Ends pads₁ pads' := by
    rw [forall₂_map_left_iff] at hfollows
    exact hfollows.imp fun pad _ hf => (ends_roundOutcome pad _).trans hf.ends
  refine forall₂_trans ?_ (hplugs.imp fun _ _ hp => Plugs.ends hp) hround
  exact fun _ _ _ he he' => he.trans he'

theorem wp_convergePads (h : Running B v (padsCarried false change.pads))
    (hk : v.cold.conn? row = some k) (hplan : Plan k change.pads) (hret : change.retired = [])
    (hre : change.busReopened = false)
    (hQ : ∀ v' k' change', Settled B v' → v'.cold.conn? row = some k' → k.SameSession k' →
      (∀ pad ∈ change'.pads, pad.Matches (k'.controllers pad.desc.ctrlIdx)) →
      List.Forall₂ Ends change.pads change'.pads → Q change' v') :
    (topoMachine B).wp (convergePads row change) Q v := by
  have hrun : Running B v (padsCarried false change.pads ++ []) := by simpa using h
  unfold convergePads
  rw [wp_bind']
  refine wp_plugPads hrun (fun pad hpad _ => hplan.plugged pad hpad) hre
    fun bus calls pads₁ reopened h₁ hall hlift _ => ?_
  obtain ⟨hplanned, hdesc⟩ := hplan.plugged_round hall
  have hidx : (pads₁.map (·.desc.ctrlIdx)).Nodup := by
    have hmap := congrArg (List.map (·.ctrlIdx)) hdesc
    rw [map_map, map_map] at hmap
    exact hmap ▸ hplan.indices
  rw [wp_bind']
  refine wp_commitAndPublish h₁ hk hplanned hidx
    hlift fun v₂ k₂ new h₂ hk₂ _ hcom _ => ?_
  refine wp_settlePadChange (by simpa [hret, retiring] using h₂) hk₂
    (fun pad hpad => (hcom.first_round hplanned hpad).1)
    (fun pad hpad => (hcom.first_round hplanned hpad).2) ?_ rfl
    fun v' k' change' hsettled hk' hset => ?_
  · simpa [map_map, Function.comp_def] using hidx
  · exact hQ v' k' change' hsettled hk' (hcom.same.trans hset.same) hset.reports
      (ends_of_rounds hall hset.follows)

end SessionService

end Satellite
