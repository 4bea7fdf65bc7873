import Satellite.Generation.Caches

/-!
# What a read of a slot tells

A stable read finds a pad that its slot shows, with the generation of its plug. Outside a
section this is true of the moment of the read; inside, until the thread leaves, because a
write waits for it. With fewer than `2 ^ 32` plugs a generation stands for one plug.
-/

namespace Satellite.Generation

open Seqlock Function List

theorem mem_slotWords {i : Nat} (h : i < padsPerSlot) :
    SlotWord.ctrl i ∈ slotWords ∧ SlotWord.gen i ∈ slotWords := by
  simp [slotWords, h]

theorem nextStamp_eq {n : Nat} (h : n + 1 < 2 ^ 32) : Cold.nextStamp n = n + 1 := by
  unfold Cold.nextStamp
  rw [Nat.mod_eq_of_lt h, if_neg (Nat.succ_ne_zero n)]

namespace Hot

variable {h h' : Hot}

/-- The generation is that of the plug which made the serial's current device a pad. -/
def Genuine (h : Hot) (serial gen : Nat) : Prop :=
  gen ∈ h.plugged ∧ h.deviceOf gen = (serial, h.device serial)

/-- The slot shows the pad. -/
def Shows (h : Hot) (b : Bound) : Prop :=
  (h.slots b.pos.slot).mem (.ctrl b.pos.idx) = some b.serial ∧
    (h.slots b.pos.slot).mem (.gen b.pos.idx) = b.gen

/-- A slot that is not being written shows pads with their generations. -/
def Rests (h : Hot) (slot : Nat) : Prop :=
  (h.slots slot).writing = false ∧ ∀ idx < padsPerSlot, ∀ serial,
    (h.slots slot).mem (.ctrl idx) = some serial → h.Genuine serial ((h.slots slot).mem (.gen idx))

/-- A slot that is being written shows the sessions' pads in every word already stored. -/
def Catching (h : Hot) (slot : Nat) (todo : List SlotWord) : Prop :=
  (h.slots slot).writing = true ∧
    ∀ w ∈ slotWords, w ∈ todo ∨ (h.slots slot).mem w = coldWord h.cold slot w

structure Inv (h : Hot) : Prop where
  count : h.plugged.length = h.nextPlugGen
  few : h.plugged.length < 2 ^ 32
  nodup : h.plugged.Nodup
  range : ∀ g ∈ h.plugged, 1 ≤ g ∧ g ≤ h.nextPlugGen
  cold : ∀ pos pad, h.cold pos = some pad → h.Genuine pad.serial pad.gen
  rests : ∀ slot, (∀ todo, h.writer ≠ some (slot, todo)) → h.Rests slot
  catching : ∀ slot todo, h.writer = some (slot, todo) → h.Catching slot todo
  locked : h.writer.isSome → h.holder = some .topology
  reads : ∀ p r, (h.threads p).read = some r →
    r.pos.idx < padsPerSlot ∧ r.reading.Valid (h.slots r.pos.slot)
  bounds : ∀ p b, (h.threads p).bound = some b → b.gen ∈ h.plugged
  /-- A write to the slot of a pad held in a section waits for its holder. -/
  held : ∀ p b, (h.threads p).inside = true → (h.threads p).bound = some b →
    h.Shows b ∧ ∀ todo, h.writer = some (b.pos.slot, todo) → h.waits p = true

theorem inv_start : Inv {} where
  count := rfl
  few := by decide
  nodup := nodup_nil
  range := nofun
  cold := nofun
  rests _ _ := ⟨rfl, fun _ _ _ hs => nomatch hs⟩
  catching := nofun
  locked := nofun
  reads := nofun
  bounds := nofun
  held := nofun

theorem Inv.setHolder (hi : h.Inv) (hw : h.writer = none) (holder : Option Holder) :
    Inv { h with holder := holder } :=
  { hi with
    locked hsome := by
      rw [show ({ h with holder := holder } : Hot).writer = none from hw] at hsome
      cases hsome }

theorem writer_of_holder (hi : h.Inv) (hh : h.holder ≠ some .topology) : h.writer = none := by
  cases hw : h.writer with
  | none => rfl
  | some w => exact absurd (hi.locked (by rw [hw]; rfl)) hh

variable {p : Participant}

/-- One thread moves; the others keep what they have. -/
theorem Inv.setThread (hi : h.Inv) {t : Thread}
    (hread : ∀ r, t.read = some r → r.pos.idx < padsPerSlot ∧
      r.reading.Valid (h.slots r.pos.slot))
    (hbound : ∀ b, t.bound = some b → b.gen ∈ h.plugged)
    (hheld : ∀ b, t.inside = true → t.bound = some b →
      h.Shows b ∧ ∀ todo, h.writer = some (b.pos.slot, todo) → h.waits p = true) :
    (h.setThread p t).Inv :=
  { hi with
    reads := (forall_update_iff h.threads fun _ t => ∀ r, t.read = some r →
      r.pos.idx < padsPerSlot ∧ r.reading.Valid (h.slots r.pos.slot)).2
        ⟨hread, fun q _ => hi.reads q⟩
    bounds := (forall_update_iff h.threads fun _ t => ∀ b, t.bound = some b → b.gen ∈ h.plugged).2
      ⟨hbound, fun q _ => hi.bounds q⟩
    held := (forall_update_iff h.threads fun q t => ∀ b, t.inside = true → t.bound = some b →
      h.Shows b ∧ ∀ todo, h.writer = some (b.pos.slot, todo) → h.waits q = true).2
        ⟨hheld, fun q _ => hi.held q⟩ }

/-! ## Reads -/

/-- What a stable read found is shown by its slot, which is not being written. -/
theorem found_shows (hi : h.Inv) {r : SlotRead}
    (hr : (h.threads p).read = some r)
    (hrecent : r.reading.recent (h.slots r.pos.slot) = true) {b : Bound}
    (hb : h.found r = some b) :
    h.Shows b ∧ (∀ todo, h.writer ≠ some (b.pos.slot, todo)) ∧ h.Genuine b.serial b.gen := by
  obtain ⟨hidx, hvalid⟩ := hi.reads p r hr
  unfold found at hb
  split at hb
  next serial gen hctrl hgen =>
    split at hb
    next hstable =>
      cases hb
      obtain ⟨hquiet, hwords⟩ := hvalid.stable hrecent hstable
      have hc := hwords _ _ hctrl
      have hg := hwords _ _ hgen
      have hno : ∀ todo, h.writer ≠ some (r.pos.slot, todo) := by
        intro todo hw
        have hwriting := (hi.catching _ _ hw).1
        rw [hquiet] at hwriting
        cases hwriting
      refine ⟨⟨hc.symm, hg.symm⟩, hno, ?_⟩
      have hrest := (hi.rests _ hno).2 _ hidx serial hc.symm
      rw [← hg] at hrest
      exact hrest
    · cases hb
  · cases hb

theorem load_thread {w : Nat → SlotWord} (hl : h.load p w = some h') :
    ∃ r, (h.threads p).read = some r ∧ h' = h.setThread p { h.threads p with
      read := some { r with reading := r.reading.load (h.slots r.pos.slot) (w r.pos.idx) } } := by
  unfold load at hl
  split at hl
  · cases hl
  next r hr =>
    cases hl
    exact ⟨r, hr, rfl⟩

theorem Inv.load (hi : h.Inv) {w : Nat → SlotWord}
    (hl : h.load p w = some h') : h'.Inv := by
  obtain ⟨r, hr, rfl⟩ := load_thread hl
  obtain ⟨hidx, hvalid⟩ := hi.reads p r hr
  refine hi.setThread (fun r' hr' => ?_) (hi.bounds p) (hi.held p)
  cases hr'
  exact ⟨hidx, hvalid.load _⟩

theorem Inv.endRead (hi : h.Inv) {r : SlotRead}
    (hr : (h.threads p).read = some r)
    (hrecent : r.reading.recent (h.slots r.pos.slot) = true) :
    (h.setThread p { h.threads p with read := none, bound := h.found r }).Inv := by
  refine hi.setThread nofun (fun b hb => ?_) fun b _ hb => ?_
  · exact (found_shows hi hr hrecent hb).2.2.1
  · obtain ⟨hshows, hno, _⟩ := found_shows hi hr hrecent hb
    exact ⟨hshows, fun todo hw => absurd hw (hno todo)⟩

/-! ## Topology -/

theorem Inv.pluginDevice (hi : h.Inv) {serial : Nat} (hu : h.Unused serial) :
    Inv { h with device := update h.device serial (h.device serial + 1) } := by
  have hgenuine : ∀ k g, k ≠ serial → h.Genuine k g →
      Genuine { h with device := update h.device serial (h.device serial + 1) } k g := by
    intro k g hk hg
    refine ⟨hg.1, ?_⟩
    simp only [update_of_ne hk]
    exact hg.2
  exact
    { count := hi.count
      few := hi.few
      nodup := hi.nodup
      range := hi.range
      cold := fun pos pad hp => hgenuine _ _ (hu.1 pos pad hp) (hi.cold pos pad hp)
      rests := by
        intro slot hno
        obtain ⟨hquiet, hpads⟩ := hi.rests slot hno
        refine ⟨hquiet, fun idx hidx k hk => hgenuine _ _ ?_ (hpads idx hidx k hk)⟩
        rintro rfl
        exact hu.2 slot idx hk
      catching := hi.catching
      locked := hi.locked
      reads := hi.reads
      bounds := hi.bounds
      held := hi.held }

/-- The plug's generation is new, so what stood for earlier plugs still does. -/
theorem Inv.plug (hi : h.Inv) (hw : h.writer = none) (hfew : h.plugged.length + 1 < 2 ^ 32)
    (pos : Pos) (serial : Nat) :
    Inv { h with
      nextPlugGen := Cold.nextStamp h.nextPlugGen
      plugged := Cold.nextStamp h.nextPlugGen :: h.plugged
      cold := update h.cold pos (some ⟨serial, Cold.nextStamp h.nextPlugGen⟩)
      deviceOf := update h.deviceOf (Cold.nextStamp h.nextPlugGen)
        (serial, h.device serial) } := by
  have hcount := hi.count
  rw [nextStamp_eq (by omega)]
  have hfresh : h.nextPlugGen + 1 ∉ h.plugged := by
    intro hm
    have hrange := hi.range _ hm
    omega
  have hgenuine : ∀ k g, h.Genuine k g → g ∈ (h.nextPlugGen + 1) :: h.plugged ∧
      update h.deviceOf (h.nextPlugGen + 1) (serial, h.device serial) g =
        (k, h.device k) := by
    intro k g hg
    refine ⟨mem_cons_of_mem _ hg.1, ?_⟩
    rw [update_of_ne (by rintro rfl; exact hfresh hg.1)]
    exact hg.2
  exact
    { count := by simp only [length_cons, hcount]
      few := hfew
      nodup := nodup_cons.mpr ⟨hfresh, hi.nodup⟩
      range := by
        intro g hg
        rcases mem_cons.mp hg with rfl | hg
        · exact ⟨by omega, Nat.le_refl _⟩
        · have hrange := hi.range g hg
          exact ⟨hrange.1, Nat.le_succ_of_le hrange.2⟩
      cold := by
        intro q pad hp
        by_cases hq : q = pos
        · subst hq
          simp only [update_self, Option.some.injEq] at hp
          subst hp
          exact ⟨mem_cons_self, update_self ..⟩
        · simp only [update_of_ne hq] at hp
          exact hgenuine _ _ (hi.cold q pad hp)
      rests := by
        intro slot hno
        obtain ⟨hquiet, hpads⟩ := hi.rests slot hno
        exact ⟨hquiet, fun idx hidx k hk => hgenuine _ _ (hpads idx hidx k hk)⟩
      catching := by
        intro slot todo hwriter
        rw [show h.writer = some (slot, todo) from hwriter] at hw
        cases hw
      locked := hi.locked
      reads := hi.reads
      bounds := fun p b hb => mem_cons_of_mem _ (hi.bounds p b hb)
      held := hi.held }

theorem Inv.vacate (hi : h.Inv) (hw : h.writer = none) (pos : Pos) :
    Inv { h with cold := update h.cold pos none } :=
  { hi with
    cold := (forall_update_iff h.cold fun _ c => ∀ pad, c = some pad → h.Genuine pad.serial pad.gen).2
      ⟨nofun, fun q _ => hi.cold q⟩
    catching slot todo hwriter := by
      rw [show h.writer = some (slot, todo) from hwriter] at hw
      cases hw }

/-! ## Writes to a slot -/

/-- The counter and words of one slot change; the open reads of it must stay valid. -/
theorem Inv.reads_setSlot (hi : h.Inv) {slot : Nat} {s : HotSlot}
    (hs : ∀ r : Reading SlotWord.Val, r.Valid (h.slots slot) → r.Valid s) (p : Participant)
    (r : SlotRead) (hr : (h.threads p).read = some r) :
    r.pos.idx < padsPerSlot ∧ r.reading.Valid ((h.setSlot slot s).slots r.pos.slot) := by
  obtain ⟨hidx, hvalid⟩ := hi.reads p r hr
  refine ⟨hidx, ?_⟩
  by_cases hslot : r.pos.slot = slot
  · simp only [hslot, setSlot, update_self]
    rw [hslot] at hvalid
    exact hs _ hvalid
  · simp only [setSlot, update_of_ne hslot]
    exact hvalid

theorem bump_mem (slot k : Nat) :
    ((h.setSlot slot (h.slots slot).bump).slots k).mem = (h.slots k).mem := by
  by_cases hk : k = slot
  · subst hk
    simp only [setSlot, update_self]
    rfl
  · simp only [setSlot, update_of_ne hk]

theorem Inv.beginWrite (hi : h.Inv) (hh : h.holder = some .topology) (hw : h.writer = none)
    (slot : Nat) :
    Inv { h.setSlot slot (h.slots slot).bump with
      writer := some (slot, slotWords), waits := fun p => (h.threads p).inside } :=
  { hi with
    rests k hno := by
      have hk : k ≠ slot := by
        rintro rfl
        exact hno slotWords rfl
      obtain ⟨hquiet, hpads⟩ := hi.rests k (by rw [hw]; exact nofun)
      simp only [Rests, setSlot, update_of_ne hk]
      exact ⟨hquiet, hpads⟩
    catching k todo hwriter := by
      simp only [Option.some.injEq, Prod.mk.injEq] at hwriter
      obtain ⟨rfl, rfl⟩ := hwriter
      refine ⟨?_, fun w hmem => .inl hmem⟩
      simp only [setSlot, update_self]
      exact writing_bump.mpr (hi.rests slot (by rw [hw]; exact nofun)).1
    locked _ := hh
    reads := hi.reads_setSlot fun _ hr => hr.bump
    held p b hin hb := by
      refine ⟨?_, fun _ _ => hin⟩
      simp only [Shows, bump_mem]
      exact (hi.held p b hin hb).1 }

/-- A store waits for those who were inside, so it takes no pad from under them. -/
theorem Inv.storeNext (hi : h.Inv) {slot : Nat} {w : SlotWord} {todo : List SlotWord}
    (hw : h.writer = some (slot, w :: todo)) (hwaits : ∀ p, h.waits p = false) :
    Inv { h.setSlot slot ((h.slots slot).store w (coldWord h.cold slot w)) with
      writer := some (slot, todo) } where
  count := hi.count
  few := hi.few
  nodup := hi.nodup
  range := hi.range
  cold := hi.cold
  rests k hno := by
    have hk : k ≠ slot := by
      rintro rfl
      exact hno todo rfl
    have hrest := hi.rests k (by
      intro todo' hwriter
      rw [hw] at hwriter
      cases hwriter
      exact hk rfl)
    simp only [Rests, setSlot, update_of_ne hk]
    exact hrest
  catching k todo' hwriter := by
    simp only [Option.some.injEq, Prod.mk.injEq] at hwriter
    obtain ⟨rfl, rfl⟩ := hwriter
    obtain ⟨hopen, hdone⟩ := hi.catching _ _ hw
    simp only [Catching, setSlot, update_self]
    refine ⟨hopen, fun w' hmem => ?_⟩
    by_cases hw' : w' = w
    · subst hw'
      exact .inr (update_self ..)
    · rcases hdone w' hmem with hleft | hstored
      · exact .inl ((mem_cons.mp hleft).resolve_left hw')
      · refine .inr ?_
        simp only [Seqlock.store, update_of_ne hw']
        exact hstored
  locked _ := hi.locked (by rw [hw]; rfl)
  reads := hi.reads_setSlot fun _ hr => hr.store (hi.catching _ _ hw).1 _ _
  bounds := hi.bounds
  held p b hin hb := by
    obtain ⟨hshows, hwait⟩ := hi.held p b hin hb
    have hslot : b.pos.slot ≠ slot := by
      rintro rfl
      have hp := hwait _ hw
      rw [hwaits p] at hp
      cases hp
    simp only [Shows, setSlot, update_of_ne hslot]
    refine ⟨hshows, fun todo' hwriter => ?_⟩
    simp only [Option.some.injEq, Prod.mk.injEq] at hwriter
    exact absurd hwriter.1.symm hslot

theorem Inv.endWrite (hi : h.Inv) {slot : Nat} (hw : h.writer = some (slot, [])) :
    Inv { h.setSlot slot (h.slots slot).bump with writer := none } :=
  { hi with
    rests k _ := by
      by_cases hk : k = slot
      · subst hk
        obtain ⟨hopen, hdone⟩ := hi.catching _ _ hw
        have hcold : ∀ w ∈ slotWords, (h.slots k).mem w = coldWord h.cold k w := fun w hmem =>
          (hdone w hmem).resolve_left not_mem_nil
        simp only [Rests, bump_mem]
        refine ⟨?_, fun idx hidx serial hctrl => ?_⟩
        · simp only [setSlot, update_self]
          exact quiet_bump hopen
        · -- every word is the sessions', so an active pad is a session's pad
          rw [hcold _ (mem_slotWords hidx).1] at hctrl
          rw [hcold _ (mem_slotWords hidx).2]
          obtain ⟨pad, hpad, rfl⟩ := Option.map_eq_some_iff.mp hctrl
          simp only [coldWord, hpad, Option.map_some, Option.getD_some]
          exact hi.cold _ pad hpad
      · have hrest := hi.rests k (by
          intro todo hwriter
          rw [hw] at hwriter
          cases hwriter
          exact hk rfl)
        simp only [Rests, setSlot, update_of_ne hk]
        exact hrest
    catching := nofun
    locked := nofun
    reads := hi.reads_setSlot fun _ hr => hr.bump
    held p b hin hb := by
      simp only [Shows, bump_mem]
      exact ⟨(hi.held p b hin hb).1, nofun⟩ }

/-! ## Every step -/

theorem Inv.exit (hi : h.Inv) (p : Participant) :
    Inv { h.setThread p {} with waits := update h.waits p false } := by
  have hi' : (h.setThread p {}).Inv := hi.setThread nofun nofun nofun
  exact
    { hi' with
      held := by
        intro q b hin hb
        have hq : q ≠ p := by
          rintro rfl
          simp only [Hot.setThread, update_self] at hin
          cases hin
        obtain ⟨hshows, hwait⟩ := hi'.held q b hin hb
        refine ⟨hshows, fun todo hw => ?_⟩
        simp only [update_of_ne hq]
        exact hwait todo hw }

theorem Inv.step (hi : h.Inv) {m : HotMove} (hc : h.Counted m) (hs : h.Step m h') : h'.Inv := by
  cases hs with
  | lock hfree => exact hi.setHolder (writer_of_holder hi (by rw [hfree]; exact nofun)) _
  | unlock _ hw => exact hi.setHolder hw _
  | pluginDevice serial hu => exact hi.pluginDevice hu
  | plug pos serial _ hw => exact hi.plug hw hc pos serial
  | vacate pos _ hw => exact hi.vacate hw pos
  | beginWrite slot hh hw => exact hi.beginWrite hh hw slot
  | storeNext slot w todo hw hwaits => exact hi.storeNext hw hwaits
  | endWrite slot hw _ => exact hi.endWrite hw
  | enter p _ _ => exact hi.setThread nofun nofun nofun
  | exit p _ _ => exact hi.exit p
  | beginRead p pos r _ hidx hr =>
    refine hi.setThread (fun r' hr' => ?_) nofun nofun
    cases hr'
    exact ⟨hidx, beginRead_valid hr⟩
  | loadCtrl p _ hl => exact hi.load hl
  | loadGen p _ hl => exact hi.load hl
  | endRead p r hr => exact hi.endRead hr (hc r hr)
  | forget p => exact hi.setThread (hi.reads p) nofun nofun

/-- What a generation stands for does not change. -/
structure Grows (h h' : Hot) : Prop where
  plugged : ∀ g ∈ h.plugged, g ∈ h'.plugged
  deviceOf : ∀ g, g = 0 ∨ g ∈ h.plugged → h'.deviceOf g = h.deviceOf g

theorem Grows.of_eq (hp : h'.plugged = h.plugged) (hd : h'.deviceOf = h.deviceOf) :
    h.Grows h' where
  plugged g hg := by rw [hp]; exact hg
  deviceOf g _ := by rw [hd]

theorem Inv.grows (hi : h.Inv) {m : HotMove} (hc : h.Counted m) (hs : h.Step m h') :
    h.Grows h' := by
  cases hs with
  | plug pos serial _ _ =>
    have hcount := hi.count
    have hfew : h.plugged.length + 1 < 2 ^ 32 := hc
    rw [nextStamp_eq (by omega)]
    refine ⟨fun g hg => mem_cons_of_mem _ hg, fun g hg => update_of_ne ?_ _ _⟩
    rcases hg with rfl | hg
    · omega
    · have hrange := hi.range g hg
      omega
  | loadCtrl p _ hl | loadGen p _ hl =>
    obtain ⟨r, _, rfl⟩ := load_thread hl
    exact .of_eq rfl rfl
  | _ => exact .of_eq rfl rfl

/-- Only the backend makes devices. -/
theorem Step.device {m : HotMove} (hs : h.Step m h') (serial : Nat)
    (hm : m ≠ .pluginDevice serial) : h'.device serial = h.device serial := by
  cases hs with
  | pluginDevice k _ =>
    have hk : serial ≠ k := by
      rintro rfl
      exact hm rfl
    exact update_of_ne hk _ _
  | loadCtrl p _ hl | loadGen p _ hl =>
    obtain ⟨r, _, rfl⟩ := load_thread hl
    rfl
  | _ => rfl

theorem Genuine.grows {serial gen : Nat} (hg : h.Genuine serial gen) (hgrows : h.Grows h')
    (hdevice : h'.device serial = h.device serial) : h'.Genuine serial gen := by
  refine ⟨hgrows.plugged gen hg.1, ?_⟩
  rw [hgrows.deviceOf gen (.inr hg.1), hdevice]
  exact hg.2

theorem bound_setThread {q : Participant} {t : Thread} {b : Bound}
    (hb : ((h.setThread q t).threads p).bound = some b) :
    (h.threads p).bound = some b ∨ p = q ∧ t.bound = some b := by
  by_cases hp : p = q
  · subst hp
    simp only [setThread, update_self] at hb
    exact .inr ⟨rfl, hb⟩
  · simp only [setThread, update_of_ne hp] at hb
    exact .inl hb

/-- A thread has the pad it had, or one that a read has just found. -/
theorem Step.bound (hi : h.Inv) {m : HotMove} (hc : h.Counted m) (hs : h.Step m h')
    {b : Bound} (hb : (h'.threads p).bound = some b) :
    (h.threads p).bound = some b ∨ h.Genuine b.serial b.gen := by
  have hload : ∀ {q : Participant} {w : Nat → SlotWord}, h.load q w = some h' →
      (h.threads p).bound = some b := by
    intro q w hl
    obtain ⟨r, _, rfl⟩ := load_thread hl
    rcases bound_setThread hb with hold | ⟨rfl, hnew⟩
    · exact hold
    · exact hnew
  cases hs with
  | enter q _ _ | beginRead q pos r _ _ _ | forget q =>
    exact (bound_setThread hb).imp_right fun hnew => nomatch hnew.2
  | exit q _ _ => exact (bound_setThread (q := q) (t := {}) hb).imp_right fun hnew => nomatch hnew.2
  | loadCtrl q _ hl | loadGen q _ hl => exact .inl (hload hl)
  | endRead q r hr =>
    exact (bound_setThread hb).imp_right fun hnew =>
      (found_shows hi hr (hc r hr) hnew.2).2.2
  | _ => exact .inl hb

/-- While the dashboard holds the mutex no topology operation runs. -/
theorem Step.dashboard {m : HotMove} (hs : h.Step m h') (hh : h.holder = some .dashboard) :
    h'.holder = some .dashboard ∧ h'.cold = h.cold := by
  cases hs with
  | lock hfree => exact absurd (hfree.symm.trans hh) nofun
  | unlock htop _ | plug pos serial htop _ | vacate pos htop _ =>
    exact absurd (htop.symm.trans hh) nofun
  | loadCtrl q _ hl | loadGen q _ hl =>
    obtain ⟨r, _, rfl⟩ := load_thread hl
    exact ⟨hh, rfl⟩
  | _ => exact ⟨hh, rfl⟩

end Hot

end Satellite.Generation
