import Satellite.Generation.Caches

/-!
# What the receive thread publishes of a pad

Whenever no write is open, the reports that are flagged as known came for the pad whose
generation is published with them. A publication is a list of increments and stores that
other threads see one at a time; the lists of `rxPadFor` and of the three reports are shown
to keep this at every moment a read can be accepted.
-/

namespace Satellite.Generation

open Seqlock Function RxPad List

/-- Everything used was recorded for the pad that uses it. -/
def Use.Own (u : Use) : Prop := ∀ g ∈ u.sources, g = u.gen

/-- The known reports came for the published generation. -/
def Good (m : RxMem) : Prop :=
  ∀ k, (m.mem .flags).known k = true → ∀ i ∈ k.words,
    (m.mem (.data k i)).source = m.mem .gen

/-- Nothing of the pad is left to publish. -/
structure RxPad.AtRest (rx : RxPad) (m : RxMem) : Prop where
  quiet : m.writing = false
  good : Good m
  gen : m.mem .gen = rx.ownGen
  flags : m.mem .flags = rx.ownFlags

/-- The operations store only in an open write, are good whenever none is open, and end in `Q`. -/
def Safe (Q : RxMem → Prop) : RxMem → List RxOp → Prop
  | m, [] => Q m
  | m, .bump :: ops => (m.writing = false → Good m) ∧ Safe Q m.bump ops
  | m, .store w v :: ops => m.writing = true ∧ Safe Q (m.store w v) ops

theorem Safe.append {Q Q' : RxMem → Prop} {ops rest : List RxOp} :
    ∀ {m : RxMem}, Safe Q m ops → (∀ m', Q m' → Safe Q' m' rest) → Safe Q' m (ops ++ rest) := by
  induction ops with
  | nil =>
    intro m hs hrest
    exact hrest m hs
  | cons op ops ih =>
    intro m hs hrest
    cases op with
    | bump | store w v => exact ⟨hs.1, ih hs.2 hrest⟩

theorem Safe.good {rx : RxPad} {m : RxMem} {ops : List RxOp} (hs : Safe rx.AtRest m ops)
    (hquiet : m.writing = false) : Good m := by
  cases ops with
  | nil => exact RxPad.AtRest.good hs
  | cons op ops =>
    cases op with
    | bump => exact hs.1 hquiet
    | store w v =>
      rw [hs.1] at hquiet
      cases hquiet

/-- What is left after the next operation is safe, and an open read stays valid. -/
theorem Safe.next {Q : RxMem → Prop} {m : RxMem} {op : RxOp} {ops : List RxOp}
    (hs : Safe Q m (op :: ops)) :
    Safe Q (op.run m) ops ∧ ∀ r : Reading RxWord.Val, r.Valid m → r.Valid (op.run m) := by
  cases op with
  | bump => exact ⟨hs.2, fun r hr => hr.bump⟩
  | store w v => exact ⟨hs.2, fun r hr => hr.store hs.1 w v⟩

/-- Storing words of one report: those words hold their values, and all others are kept. -/
theorem safe_stores {Q : RxMem → Prop} (k : Report) (values : Nat → Datum) (rest : List RxOp)
    (words : List Nat) : ∀ m : RxMem, m.writing = true →
      (∀ m' : RxMem, m'.writing = true → m'.mem .gen = m.mem .gen → m'.mem .flags = m.mem .flags →
        (∀ i ∈ words, m'.mem (.data k i) = values i) →
        (∀ k' i, k' ≠ k ∨ i ∉ words → m'.mem (.data k' i) = m.mem (.data k' i)) →
        Safe Q m' rest) →
      Safe Q m (words.map (fun i => .store (.data k i) (values i)) ++ rest) := by
  induction words with
  | nil =>
    intro m hopen hrest
    exact hrest m hopen rfl rfl nofun fun _ _ _ => rfl
  | cons i words ih =>
    intro m hopen hrest
    refine ⟨hopen, ih _ hopen fun m' hopen' hgen hflags hstored hkept => ?_⟩
    have hother : ∀ k' j, k' ≠ k ∨ j ≠ i →
        (m.store (.data k i) (values i)).mem (.data k' j) = m.mem (.data k' j) := by
      intro k' j hne
      refine update_of_ne ?_ _ _
      intro heq
      cases heq
      rcases hne with hne | hne <;> exact hne rfl
    refine hrest m' hopen' hgen hflags (fun j hj => ?_) fun k' j hj => ?_
    · by_cases hmem : j ∈ words
      · exact hstored j hmem
      · rcases mem_cons.mp hj with rfl | hj
        · rw [hkept k j (.inr hmem)]
          exact update_self ..
        · exact absurd hj hmem
    · rcases hj with hk | hj
      · rw [hkept k' j (.inl hk), hother k' j (.inl hk)]
      · rw [mem_cons, not_or] at hj
        rw [hkept k' j (.inr hj.2), hother k' j (.inr hj.1)]

namespace RxPad

variable {rx : RxPad} {m : RxMem}

/-- Only the generation and the flags matter. -/
theorem atRest_congr {rx' : RxPad} (hgen : rx'.ownGen = rx.ownGen)
    (hflags : rx'.ownFlags = rx.ownFlags) : rx'.AtRest = rx.AtRest := by
  ext m
  constructor
  · rintro ⟨hq, hg, hown, hf⟩
    exact ⟨hq, hg, hown.trans hgen, hf.trans hflags⟩
  · rintro ⟨hq, hg, hown, hf⟩
    exact ⟨hq, hg, hown.trans hgen.symm, hf.trans hflags.symm⟩

theorem atRest_start : AtRest {} ({} : RxPad).mem where
  quiet := rfl
  good := nofun
  gen := rfl
  flags := rfl

theorem forGen_mem (rx : RxPad) (gen : Nat) : (rx.forGen gen).1.mem = rx.mem := by
  unfold forGen
  split <;> rfl

theorem forGen_ownGen (rx : RxPad) (gen : Nat) : (rx.forGen gen).1.ownGen = gen := by
  unfold forGen
  split
  · assumption
  · rfl

theorem publish_mem (rx : RxPad) (k : Report) (values : Nat → Datum) (delivered : Bool) :
    (rx.publish k values delivered).1.mem = rx.mem := rfl

theorem forGen_windowSource (h : rx.windowSource = rx.ownGen) (gen : Nat) :
    (rx.forGen gen).1.windowSource = gen := by
  unfold forGen
  split
  next heq => exact h.trans heq
  · rfl

/-- A pad of another plug starts with nothing known. -/
theorem forGen_safe (h : rx.AtRest m) (gen : Nat) :
    Safe (rx.forGen gen).1.AtRest m (rx.forGen gen).2 := by
  unfold forGen
  split
  · exact h
  · have hopen : m.bump.writing = true := writing_bump.mpr h.quiet
    refine ⟨fun _ => h.good, hopen, hopen, ?_, ?_⟩
    · intro hquiet
      rw [show ((m.bump.store .gen gen).store .flags {}).writing = m.bump.writing from rfl,
        hopen] at hquiet
      cases hquiet
    · exact
        { quiet := quiet_bump hopen
          good := fun k hk => nomatch hk
          gen := rfl
          flags := rfl }

/-- A report is flagged once its words, all for the pad's generation, are stored. -/
theorem publish_safe (h : rx.AtRest m) (k : Report) {values : Nat → Datum}
    (hv : ∀ i, (values i).source = rx.ownGen) (delivered : Bool) :
    Safe (rx.publish k values delivered).1.AtRest m (rx.publish k values delivered).2 := by
  have hopen : m.bump.writing = true := writing_bump.mpr h.quiet
  simp only [publish, append_assoc]
  refine ⟨fun _ => h.good, safe_stores k values _ k.words m.bump hopen ?_⟩
  intro m' hopen' hgen hflags hstored hkept
  refine ⟨hopen', fun hquiet => ?_, ?_⟩
  · rw [show (m'.store .flags (rx.flagged k delivered)).writing = m'.writing from rfl,
      hopen'] at hquiet
    cases hquiet
  · have hgen' : m'.mem .gen = rx.ownGen := hgen.trans h.gen
    exact
      { quiet := quiet_bump (s := m'.store .flags (rx.flagged k delivered)) hopen'
        good := by
          intro k' hknown i hi
          show (m'.mem (.data k' i)).source = m'.mem .gen
          rw [hgen']
          by_cases hk : k' = k
          · subst hk
            rw [hstored i hi]
            exact hv i
          · -- another report is known only if it was before
            have hknown' : rx.ownFlags.known k' = true := by
              rw [← update_of_ne hk true rx.ownFlags.known]
              exact hknown
            rw [← h.flags] at hknown'
            rw [hkept k' i (.inl hk), ← h.gen]
            exact h.good k' hknown' i hi
        gen := hgen'
        flags := rfl }

/-- The rate gate changes only its window. -/
theorem takePacket_keeps (rx : RxPad) (now second limit : Nat) :
    (rx.takePacket now second limit).2.mem = rx.mem ∧
      (rx.takePacket now second limit).2.ownGen = rx.ownGen ∧
      (rx.takePacket now second limit).2.ownFlags = rx.ownFlags ∧
      (rx.takePacket now second limit).2.windowSource = rx.windowSource := by
  unfold takePacket
  simp only
  split <;> split <;> exact ⟨rfl, rfl, rfl, rfl⟩

end RxPad

namespace Receiver

variable {r r' : Receiver}

structure Inv (r : Receiver) : Prop where
  window : ∀ serial, (r.pads serial).windowSource = (r.pads serial).ownGen
  rest : ∀ serial, serial ≠ r.publishing.1 →
    (r.pads serial).AtRest (r.pads serial).mem
  publishing : Safe (r.pads r.publishing.1).AtRest (r.pads r.publishing.1).mem r.publishing.2
  rated : ∀ u ∈ r.rated, u.Own

theorem inv_start : Inv {} where
  window _ := rfl
  rest _ _ := atRest_start
  publishing := atRest_start
  rated := nofun

/-- Nothing is being published: every pad is at rest. -/
theorem Inv.idle (hi : r.Inv) (h : r.publishing.2 = []) (serial : Nat) :
    (r.pads serial).AtRest (r.pads serial).mem := by
  by_cases hs : serial = r.publishing.1
  · subst hs
    have hsafe := hi.publishing
    rw [h] at hsafe
    exact hsafe
  · exact hi.rest serial hs

theorem Inv.good (hi : r.Inv) {serial : Nat} (hquiet : (r.pads serial).mem.writing = false) :
    Good (r.pads serial).mem := by
  by_cases hs : serial = r.publishing.1
  · subst hs
    exact hi.publishing.good hquiet
  · exact (hi.rest serial hs).good

/-- A pad changes its own fields and has a list to publish. -/
theorem Inv.setPad (hi : r.Inv) {serial : Nat} {rx : RxPad} {ops : List RxOp}
    (hothers : ∀ k, k ≠ serial → (r.pads k).AtRest (r.pads k).mem)
    (hwindow : rx.windowSource = rx.ownGen) (hsafe : Safe rx.AtRest rx.mem ops) :
    (r.setPad serial rx ops).Inv where
  window := (forall_update_iff r.pads fun _ rx => rx.windowSource = rx.ownGen).2
    ⟨hwindow, fun k _ => hi.window k⟩
  rest k hk := by
    simp only [Receiver.setPad] at hk
    simp only [Receiver.setPad, update_of_ne hk]
    exact hothers k hk
  publishing := by
    simp only [Receiver.setPad, update_self]
    exact hsafe
  rated := hi.rated

/-- The words of the pads are those before, but for the pad that was set. -/
theorem valid_setPad {serial : Nat} {rx : RxPad} (ops : List RxOp)
    (h : ∀ g : Reading RxWord.Val, g.Valid (r.pads serial).mem → g.Valid rx.mem) (k : Nat)
    (g : Reading RxWord.Val) (hg : g.Valid (r.pads k).mem) :
    g.Valid ((r.setPad serial rx ops).pads k).mem :=
  (forall_update_iff r.pads fun k rx => g.Valid (r.pads k).mem → g.Valid rx.mem).2
    ⟨h g, fun _ _ => id⟩ k hg

theorem Inv.report (hi : r.Inv) (hidle : r.publishing.2 = []) (b : Bound) (k : Report)
    (values : Nat → Nat) (delivered : Bool) :
    let own := (r.pads b.serial).forGen b.gen
    let pub := own.1.publish k (fun i => ⟨values i, b.gen⟩) delivered
    (r.setPad b.serial pub.1 (own.2 ++ pub.2)).Inv := by
  intro own pub
  have hrest := hi.idle hidle b.serial
  have hmem : pub.1.mem = (r.pads b.serial).mem :=
    (publish_mem _ _ _ _).trans (forGen_mem _ _)
  refine hi.setPad (fun k' _ => hi.idle hidle k') ?_ ?_
  · exact (forGen_windowSource (hi.window b.serial) b.gen).trans
      (forGen_ownGen _ _).symm
  · rw [hmem]
    refine (forGen_safe hrest b.gen).append fun m' hm' => ?_
    exact publish_safe hm' k (fun i => (forGen_ownGen _ _).symm) delivered

theorem Inv.rate (hi : r.Inv) (hidle : r.publishing.2 = []) (b : Bound) (now : Nat)
    (handing : Option MicPacket) :
    let own := (r.pads b.serial).forGen b.gen
    let taken := own.1.takePacket now micSecond micPacketsPerSec
    Inv { r.setPad b.serial taken.2 own.2 with
      rated := ⟨b.gen, [own.1.windowSource]⟩ :: r.rated, handing := handing } := by
  intro own taken
  obtain ⟨hmem, hgen, hflags, hsource⟩ :=
    own.1.takePacket_keeps now micSecond micPacketsPerSec
  have hwindow : own.1.windowSource = b.gen :=
    forGen_windowSource (hi.window b.serial) b.gen
  have hset : (r.setPad b.serial taken.2 own.2).Inv := by
    refine hi.setPad (fun k _ => hi.idle hidle k) ?_ ?_
    · rw [hsource, hgen, hwindow, forGen_ownGen]
    · rw [atRest_congr hgen hflags, hmem, forGen_mem]
      exact forGen_safe (hi.idle hidle b.serial) b.gen
  refine ⟨hset.window, hset.rest, hset.publishing, fun u hu => ?_⟩
  rcases mem_cons.mp hu with rfl | hu
  · intro g hg
    rw [mem_singleton.mp hg]
    exact hwindow
  · exact hi.rated u hu

/-- A step of the receive thread keeps what it published in order and open reads valid. -/
theorem Inv.step (hi : r.Inv) {t : Thread} {m : RxMove} (hs : r.step t m = some r') :
    r'.Inv ∧ ∀ serial (g : Reading RxWord.Val), g.Valid (r.pads serial).mem →
      g.Valid (r'.pads serial).mem := by
  cases m with
  | report k values delivered =>
    simp only [Receiver.step] at hs
    split at hs
    next b _ _ hidle =>
      cases hs
      refine ⟨hi.report hidle b k values delivered, valid_setPad _ fun g hg => ?_⟩
      rw [publish_mem, forGen_mem]
      exact hg
    · cases hs
  | micFrame seq bytes now =>
    simp only [Receiver.step] at hs
    split at hs
    next b _ _ hidle =>
      cases hs
      refine ⟨hi.rate hidle b now _,
        valid_setPad ((r.pads b.serial).forGen b.gen).2 fun g hg => ?_⟩
      rw [(takePacket_keeps _ _ _ _).1, forGen_mem]
      exact hg
    · cases hs
  | publishNext =>
    simp only [Receiver.step] at hs
    split at hs
    · cases hs
    next serial op ops hpub =>
      cases hs
      have hsafe := hi.publishing
      rw [hpub] at hsafe
      obtain ⟨hnext, hvalid⟩ := hsafe.next
      refine ⟨hi.setPad (fun k hk => hi.rest k ?_) (hi.window serial) ?_, valid_setPad _ hvalid⟩
      · rw [hpub]
        exact hk
      · have hcongr : AtRest { r.pads serial with mem := op.run (r.pads serial).mem } =
            (r.pads serial).AtRest := atRest_congr rfl rfl
        rw [hcongr]
        exact hnext
  | handOver =>
    simp only [Receiver.step] at hs
    split at hs
    · cases hs
    · split at hs
      · cases hs
        exact ⟨⟨hi.window, hi.rest, hi.publishing, hi.rated⟩, fun _ _ hg => hg⟩
      · cases hs
  | drop =>
    cases hs
    exact ⟨⟨hi.window, hi.rest, hi.publishing, hi.rated⟩, fun _ _ hg => hg⟩

end Receiver

/-! ## What the dashboard shows -/

/-- An accepted snapshot shows reports of its own pad only. -/
theorem Snapshot.shown_own {n : Snapshot} {m : RxMem} (hgood : Good m)
    (hwords : ∀ w v, n.reading.got w = some v → v = m.mem w) : ∀ u ∈ n.shown, u.Own := by
  intro u hu
  obtain ⟨k, _, hk⟩ := mem_filterMap.mp hu
  split at hk
  next hshows =>
    cases hk
    unfold Snapshot.shows at hshows
    split at hshows
    next gen flags hgen hflags =>
      rw [Bool.and_eq_true, beq_iff_eq] at hshows
      have hknown : (m.mem .flags).known k = true := by
        rw [← hwords _ _ hflags]
        exact hshows.2
      intro g hg
      obtain ⟨i, hi, hsource⟩ := mem_filterMap.mp hg
      obtain ⟨d, hd, rfl⟩ := Option.map_eq_some_iff.mp hsource
      rw [hwords _ _ hd, hgood k hknown i hi, ← hwords _ _ hgen]
      exact hshows.1
    · cases hshows
  · cases hk

end Satellite.Generation
