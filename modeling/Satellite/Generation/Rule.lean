import Satellite.Generation.Slots
import Satellite.Generation.Published

/-!
# The generation rule

In every interleaving with fewer than `2 ^ 32` plugs, and with fewer than `2 ^ 31` writes
during any one read, what is shown, counted, decoded or sent for a pad was recorded under the
plug that the pad has at that moment, and an accepted snapshot is the published state of one
moment.

The slots and the published state are treated in their own modules. Here come the mic worker
and the lanes, then the whole service.
-/

namespace Satellite.Generation

open Seqlock Function List Reading AudioLane

/-! ## The mic worker -/

/-- The generations of the packets behind the pad's window and decoder. -/
def MicPad.fed (pad : MicPad) : List Nat := pad.pushed ++ pad.decoder.getD []

namespace Worker

variable {k : Worker}

structure Inv (k : Worker) : Prop where
  pads : ∀ serial, ∀ g ∈ (k.pads serial).fed, g = (k.pads serial).gen
  decoded : ∀ u ∈ k.decoded, u.Own
  submitted : ∀ u ∈ k.submitted, u.Own

theorem inv_start : Inv {} where
  pads := nofun
  decoded := nofun
  submitted := nofun

/-- A pad of another plug starts with an empty window and no decoder. -/
theorem Inv.padFor (hi : k.Inv) (p : MicPacket) :
    (k.padFor p).gen = p.gen ∧ ∀ g ∈ (k.padFor p).fed, g = p.gen := by
  unfold Worker.padFor
  simp only
  split
  next heq =>
    refine ⟨heq, fun g hg => ?_⟩
    rw [hi.pads p.serial g hg]
    exact heq
  · exact ⟨rfl, nofun⟩

/-- A decoder that is fed was kept under the packet's generation or is new. -/
theorem decoderFor_own {pad : MicPad} {gen : Nat} (h : ∀ g ∈ pad.decoder.getD [], g = gen)
    (decodes makesDecoder : Bool) :
    ∀ g ∈ (decoderFor pad gen decodes makesDecoder).getD [], g = gen := by
  intro g hg
  unfold decoderFor at hg
  split at hg
  next fed hd =>
    rw [hd] at h
    rcases mem_cons.mp hg with rfl | hg
    · rfl
    · exact h g hg
  · exact mem_singleton.mp hg
  · cases hg
  · exact h g hg

theorem Inv.process (hi : k.Inv) (p : MicPacket) (makesDecoder : Bool) :
    (k.process p makesDecoder).Inv := by
  obtain ⟨hgen, hfed⟩ := hi.padFor p
  have huse : ∀ decodes, ∀ g ∈ p.gen :: (k.padFor p).pushed ++
      (decoderFor (k.padFor p) p.gen decodes makesDecoder).getD [], g = p.gen := by
    intro decodes g hg
    rcases mem_append.mp hg with hg | hg
    · rcases mem_cons.mp hg with rfl | hg
      · rfl
      · exact hfed g (mem_append_left _ hg)
    · exact decoderFor_own (fun g hg => hfed g (mem_append_right _ hg)) _ _ g hg
  exact
    { pads := by
        intro serial g hg
        by_cases hs : serial = p.serial
        · subst hs
          simp only [Worker.process, update_self] at hg ⊢
          rw [hgen]
          exact huse _ g hg
        · simp only [Worker.process, update_of_ne hs] at hg ⊢
          exact hi.pads serial g hg
      decoded := forall_mem_cons.2 ⟨huse _, hi.decoded⟩
      submitted := hi.submitted }

theorem Inv.sweep (hi : k.Inv) (serial : Nat) :
    Inv { k with
      pads := update k.pads serial { window := (k.pads serial).window.reset } } where
  pads := (forall_update_iff k.pads fun _ p => ∀ g ∈ p.fed, g = p.gen).2
    ⟨nofun, fun j _ => hi.pads j⟩
  decoded := hi.decoded
  submitted := hi.submitted

end Worker

/-! ## The lanes -/

/-- The devices of the samples behind a lane's encoder, tail and sequence number. -/
def AudioLane.devices (a : AudioLane) : List Nat :=
  a.encoder.getD [] ++ a.pending.map Sample.device ++ a.counted

/-- Everything in the lane was played on the device of its generation. -/
structure LaneState.Inv (h : Hot) (serial : Nat) (a : LaneState) : Prop where
  known : a.lane.gen = 0 ∨ a.lane.gen ∈ h.plugged
  own : ∀ d ∈ a.lane.devices, d = (h.deviceOf a.lane.gen).2
  outgoing : ∀ o, a.outgoing = some o → ∀ d ∈ o.devices, d = (h.deviceOf a.lane.gen).2
  rest : ∀ c, a.callback = some c → ∀ x ∈ c.rest, x.device = h.device serial
  target : ∀ c g, a.callback = some c → c.target = some g →
    a.lane.gen = g ∧ h.Genuine serial g

namespace LaneState

variable {h h' : Hot} {serial : Nat} {a : LaneState} {c : Callback}

theorem inv_start : LaneState.Inv {} serial {} where
  known := Or.inl rfl
  own := nofun
  outgoing := nofun
  rest := nofun
  target := nofun

/-- A running callback keeps its device, so a growing history keeps the lane in order. -/
theorem Inv.grows (hi : a.Inv h serial) (hg : h.Grows h')
    (hdevice : a.callback.isSome → h'.device serial = h.device serial) : a.Inv h' serial where
  known := hi.known.imp_right (hg.plugged _)
  own := by
    rw [hg.deviceOf _ hi.known]
    exact hi.own
  outgoing := by
    rw [hg.deviceOf _ hi.known]
    exact hi.outgoing
  rest c hc := by
    rw [hdevice (by rw [hc]; rfl)]
    exact hi.rest c hc
  target c g hc ht := by
    obtain ⟨hgen, hplugged, hdev⟩ := hi.target c g hc ht
    refine ⟨hgen, hg.plugged g hplugged, ?_⟩
    rw [hg.deviceOf g (.inr hplugged), hdevice (by rw [hc]; rfl)]
    exact hdev

/-- Once a target is found, the tail and the callback's samples are of one device. -/
theorem Inv.samples (hi : a.Inv h serial) (hc : a.callback = some c) (ht : c.target.isSome) :
    h.device serial = (h.deviceOf a.lane.gen).2 ∧
      ∀ x ∈ a.lane.pending ++ c.rest, x.device = h.device serial := by
  obtain ⟨g, hg⟩ := Option.isSome_iff_exists.mp ht
  obtain ⟨hgen, _, hdev⟩ := hi.target c g hc hg
  have hsame : h.device serial = (h.deviceOf a.lane.gen).2 := by rw [hgen, hdev]
  refine ⟨hsame, fun x hx => ?_⟩
  rcases mem_append.mp hx with hx | hx
  · rw [hsame]
    refine hi.own _ ?_
    exact mem_append_left _ (mem_append_right _ (mem_map_of_mem hx))
  · exact hi.rest c hc x hx

theorem Inv.window (hi : a.Inv h serial) (hc : a.callback = some c) (ht : c.target.isSome) :
    ∀ d ∈ (a.window c).map Sample.device, d = (h.deviceOf a.lane.gen).2 := by
  obtain ⟨hsame, hsamples⟩ := hi.samples hc ht
  intro d hd
  obtain ⟨x, hx, rfl⟩ := mem_map.mp hd
  rw [← hsame]
  exact hsamples x (mem_of_mem_take hx)

theorem Inv.afterWindow (hi : a.Inv h serial) (hc : a.callback = some c)
    (ht : c.target.isSome) : ∀ x ∈ a.afterWindow c, x.device = h.device serial := fun x hx =>
  (hi.samples hc ht).2 x (mem_of_mem_drop hx)

theorem Inv.start (hi : a.Inv h serial) (ho : a.outgoing = none) (values : List Int) :
    LaneState.Inv h serial { a with callback := some {
      device := h.device serial
      rest := values.map fun v => ⟨v, h.device serial⟩ } } where
  known := hi.known
  own := hi.own
  outgoing o heq := by
    rw [show a.outgoing = some o from heq] at ho
    cases ho
  rest c hc x hx := by
    cases hc
    obtain ⟨v, _, rfl⟩ := mem_map.mp hx
    rfl
  target c g hc ht := by
    cases hc
    cases ht

theorem Inv.adopt (hi : a.Inv h serial) (hc : a.callback = some c) (ho : a.outgoing = none)
    {gen : Nat} (hg : h.Genuine serial gen) (makesEncoder : Bool) :
    (a.adopt c gen makesEncoder).Inv h serial := by
  have hgen : (a.lane.forGen gen).gen = gen := by
    unfold forGen
    split
    · assumption
    · rfl
  have hown : ∀ d ∈ (a.lane.forGen gen).devices, d = (h.deviceOf gen).2 := by
    unfold forGen
    split
    next heq =>
      rw [← heq]
      exact hi.own
    · exact nofun
  exact
    { known := Or.inr (by
        simp only [LaneState.adopt, hgen]
        exact hg.1)
      own := by
        simp only [LaneState.adopt, devices, hgen]
        intro d hd
        refine hown d ?_
        cases makesEncoder with
        | true => exact hd
        | false => exact hd
      outgoing := by
        intro o heq
        rw [show a.outgoing = some o from heq] at ho
        cases ho
      rest := by
        intro c' hc'
        cases hc'
        exact hi.rest c hc
      target := by
        intro c' g hc' ht
        cases hc'
        cases ht
        exact ⟨hgen, hg⟩ }

/-- The tail and the samples left over change; the generation and the target stay. -/
theorem Inv.encodeWindow (hi : a.Inv h serial) (hc : a.callback = some c)
    (ht : c.target.isSome) {fed : List Nat} (hf : a.lane.encoder = some fed) (encodes : Bool) :
    (a.encodeWindow c fed encodes).Inv h serial := by
  have hwindow := hi.window hc ht
  have hfed : ∀ d ∈ fed, d = (h.deviceOf a.lane.gen).2 := by
    intro d hd
    refine hi.own d (mem_append_left _ (mem_append_left _ ?_))
    rw [hf]
    exact hd
  have hcounted : ∀ d ∈ a.lane.counted, d = (h.deviceOf a.lane.gen).2 := fun d hd =>
    hi.own d (mem_append_right _ hd)
  exact
    { known := hi.known
      own := by
        intro d hd
        simp only [LaneState.encodeWindow, devices, Option.getD_some, map_nil,
          append_nil, mem_append] at hd
        rcases hd with (hd | hd) | hd | hd
        · exact hwindow d hd
        · exact hfed d hd
        · exact hwindow d hd
        · exact hcounted d hd
      outgoing := by
        intro o ho d hd
        simp only [LaneState.encodeWindow] at ho
        split at ho
        · cases ho
          simp only [mem_append] at hd
          rcases hd with (hd | hd) | hd
          · exact hwindow d hd
          · exact hfed d hd
          · exact hcounted d hd
        · cases ho
      rest := by
        intro c' hc'
        cases hc'
        exact hi.afterWindow hc ht
      target := by
        intro c' g hc' hg
        cases hc'
        exact hi.target c g hc hg }

theorem Inv.skipWindow (hi : a.Inv h serial) (hc : a.callback = some c)
    (ht : c.target.isSome) : (a.skipWindow c).Inv h serial where
  known := hi.known
  own d hd := by
    simp only [LaneState.skipWindow, devices, map_nil, append_nil,
      mem_append] at hd
    refine hi.own d ?_
    simp only [devices, mem_append]
    exact hd.imp_left Or.inl
  outgoing := hi.outgoing
  rest c' hc' := by
    cases hc'
    exact hi.afterWindow hc ht
  target c' g hc' hg := by
    cases hc'
    exact hi.target c g hc hg

theorem Inv.keepTail (hi : a.Inv h serial) (hc : a.callback = some c)
    (ht : c.target.isSome) : (a.keepTail c).Inv h serial where
  known := hi.known
  own d hd := by
    obtain ⟨hsame, hsamples⟩ := hi.samples hc ht
    simp only [LaneState.keepTail, devices, mem_append] at hd
    rcases hd with (hd | hd) | hd
    · exact hi.own d (mem_append_left _ (mem_append_left _ hd))
    · obtain ⟨x, hx, rfl⟩ := mem_map.mp hd
      rw [hsamples x hx]
      exact hsame
    · exact hi.own d (mem_append_right _ hd)
  outgoing := hi.outgoing
  rest := nofun
  target := nofun

theorem Inv.giveUp (hi : a.Inv h serial) :
    LaneState.Inv h serial { a with outgoing := none } :=
  { hi with
    outgoing := nofun }

theorem Inv.done (hi : a.Inv h serial) :
    LaneState.Inv h serial { a with callback := none, outgoing := none } where
  known := hi.known
  own := hi.own
  outgoing := nofun
  rest := nofun
  target := nofun

end LaneState

/-! ## The service -/

/-- Sent for the pad of a generation, from samples of that pad's own device. -/
def Sent.Own (e : Sent) : Prop := e.padGen = e.gen ∧ ∀ d ∈ e.devices, d = e.device

/-- The words are those of one moment, at which no write was open. -/
def View.Whole (v : View) : Prop :=
  v.mem.writing = false ∧ ∀ w x, v.got w = some x → x = v.mem.mem w

namespace Service

variable {s s' : Service}

structure Inv (s : Service) : Prop where
  hot : s.hot.Inv
  rx : s.rx.Inv
  worker : s.worker.Inv
  lanes : ∀ serial l, (s.lanes.state serial l).Inv s.hot serial
  /-- A pad found during a callback has the callback's device. -/
  found : ∀ serial l b, (s.lanes.state serial l).callback.isSome →
    (s.hot.threads (.lane serial l)).bound = some b → b.serial = serial →
    s.hot.Genuine serial b.gen
  sent : ∀ e ∈ s.lanes.sent, e.Own
  snapshot : ∀ n, s.dash.snapshot = some n → s.hot.holder = some .dashboard ∧
    s.hot.cold n.pos = some n.pad ∧ n.reading.Valid (s.rx.pads n.pad.serial).mem
  shown : ∀ u ∈ s.dash.shown, u.Own
  views : ∀ v ∈ s.dash.views, v.Whole

theorem inv_start : Inv {} where
  hot := Hot.inv_start
  rx := Receiver.inv_start
  worker := Worker.inv_start
  lanes _ _ := LaneState.inv_start
  found := nofun
  sent := nofun
  snapshot := nofun
  shown := nofun
  views := nofun

theorem Inv.hotStep (hi : s.Inv) {m : HotMove} {h : Hot} (hc : s.hot.Counted m)
    (hs : s.hot.Step m h) (ha : s.Admits m) : Inv { s with hot := h } := by
  have hgrows := hi.hot.grows hc hs
  -- the backend joins a serial's callbacks before it makes another device for it
  have hdevice : ∀ serial l, (s.lanes.state serial l).callback.isSome →
      h.device serial = s.hot.device serial := by
    intro serial l hsome
    apply hs.device
    rintro rfl
    rw [show (s.lanes.state serial l).callback = none from ha l] at hsome
    cases hsome
  exact
    { hot := hi.hot.step hc hs
      rx := hi.rx
      worker := hi.worker
      lanes := fun serial l => (hi.lanes serial l).grows hgrows (hdevice serial l)
      found := by
        intro serial l b hsome hb hserial
        have hbefore : s.hot.Genuine serial b.gen := by
          rcases hs.bound hi.hot hc hb with hold | hnew
          · exact hi.found serial l b hsome hold hserial
          · rw [hserial] at hnew
            exact hnew
        exact hbefore.grows hgrows (hdevice serial l hsome)
      sent := hi.sent
      snapshot := by
        intro n hn
        obtain ⟨hholder, hcold, hvalid⟩ := hi.snapshot n hn
        obtain ⟨hholder', hcold'⟩ := hs.dashboard hholder
        refine ⟨hholder', ?_, hvalid⟩
        rw [show ({ s with hot := h } : Service).hot.cold = s.hot.cold from hcold']
        exact hcold
      shown := hi.shown
      views := hi.views }

theorem Inv.rxStep (hi : s.Inv) {m : RxMove} {r : Receiver}
    (hs : s.rx.step (s.hot.threads .receive) m = some r) : Inv { s with rx := r } := by
  obtain ⟨hr, hvalid⟩ := hi.rx.step hs
  exact
    { hi with
      rx := hr
      snapshot := by
        intro n hn
        obtain ⟨hholder, hcold, hv⟩ := hi.snapshot n hn
        exact ⟨hholder, hcold, hvalid _ _ hv⟩ }

theorem Inv.setWorker (hi : s.Inv) {k : Worker} (hk : k.Inv) : Inv { s with worker := k } :=
  { hi with worker := hk }

/-- A lane changes, without starting a callback; it may send. -/
theorem Inv.setLane (hi : s.Inv) {serial : Nat} {l : Lane} {a : LaneState} {sent : List Sent}
    (ha : a.Inv s.hot serial)
    (hfound : ∀ b, a.callback.isSome → (s.hot.threads (.lane serial l)).bound = some b →
      b.serial = serial → s.hot.Genuine serial b.gen)
    (hsent : ∀ e ∈ sent, e.Own) :
    Inv { s.setLane serial l a with lanes.sent := sent } := by
  exact
    { hot := hi.hot
      rx := hi.rx
      worker := hi.worker
      lanes := by
        intro i k
        simp only [Service.setLane]
        split
        next heq =>
          obtain ⟨rfl, rfl⟩ := heq
          exact ha
        · exact hi.lanes i k
      found := by
        intro i k b hsome hb hserial
        simp only [Service.setLane] at hsome
        split at hsome
        next heq =>
          obtain ⟨rfl, rfl⟩ := heq
          exact hfound b hsome hb hserial
        · exact hi.found i k b hsome hb hserial
      sent := hsent
      snapshot := hi.snapshot
      shown := hi.shown
      views := hi.views }

/-- The lane's callback was running before. -/
theorem Inv.found_of_callback (hi : s.Inv) {serial : Nat} {l : Lane} {c : Callback}
    {o : Option Callback} (hc : (s.lanes.state serial l).callback = some c) :
    ∀ b, o.isSome → (s.hot.threads (.lane serial l)).bound = some b → b.serial = serial →
      s.hot.Genuine serial b.gen := fun b _ hb hserial =>
  hi.found serial l b (by rw [hc]; rfl) hb hserial

/-- The mutex is taken for a snapshot, or given back. -/
theorem Inv.setDash (hi : s.Inv) (hw : s.hot.writer = none) {holder : Option Holder}
    {d : Dashboard} (hsnap : ∀ n, d.snapshot = some n → holder = some .dashboard ∧
      s.hot.cold n.pos = some n.pad ∧ n.reading.Valid (s.rx.pads n.pad.serial).mem)
    (hshown : ∀ u ∈ d.shown, u.Own) (hviews : ∀ v ∈ d.views, v.Whole) :
    Inv { s with hot := { s.hot with holder := holder }, dash := d } :=
  { hi with
    hot := hi.hot.setHolder hw holder
    lanes serial l := (hi.lanes serial l).grows (.of_eq rfl rfl) fun _ => rfl
    snapshot := hsnap
    shown := hshown
    views := hviews }

theorem Inv.endSnapshot (hi : s.Inv) {n : Snapshot} (hn : s.dash.snapshot = some n)
    (hrecent : n.reading.recent (s.rx.pads n.pad.serial).mem = true) :
    Inv { s with
      hot := { s.hot with holder := none }
      dash :=
        if n.reading.stable (s.rx.pads n.pad.serial).mem then
          { snapshot := none
            views := ⟨n.reading.got, (s.rx.pads n.pad.serial).mem⟩ :: s.dash.views
            shown := n.shown ++ s.dash.shown }
        else { s.dash with snapshot := none } } := by
  obtain ⟨hholder, _, hvalid⟩ := hi.snapshot n hn
  have hw : s.hot.writer = none := Hot.writer_of_holder hi.hot (by rw [hholder]; exact nofun)
  split
  next hstable =>
    obtain ⟨hquiet, hwords⟩ := hvalid.stable hrecent hstable
    exact hi.setDash hw nofun
      (forall_mem_append.2 ⟨Snapshot.shown_own (hi.rx.good hquiet) hwords, hi.shown⟩)
      (forall_mem_cons.2 ⟨⟨hquiet, hwords⟩, hi.views⟩)
  · exact hi.setDash hw nofun hi.shown hi.views

theorem Inv.step (hi : s.Inv) {m : Move} (hc : s.Counted m) (hs : s.Step m s') : s'.Inv := by
  cases hs with
  | hot m h hs ha => exact hi.hotStep hc hs ha
  | rx m r hs => exact hi.rxStep hs
  | process p ring makesDecoder _ _ =>
    exact
      { hi.setWorker (hi.worker.process p makesDecoder) with
        rx := ⟨hi.rx.window, hi.rx.rest, hi.rx.publishing, hi.rx.rated⟩ }
  | submit p b _ hin hb _ hgen =>
    refine hi.setWorker ⟨hi.worker.pads, hi.worker.decoded, fun u hu => ?_⟩
    rcases mem_cons.mp hu with rfl | hu
    · intro g hg
      rw [mem_singleton.mp hg, (hi.hot.held _ b hin hb).1.2]
      exact hgen
    · exact hi.worker.submitted u hu
  | finish => exact hi.setWorker ⟨hi.worker.pads, hi.worker.decoded, hi.worker.submitted⟩
  | sweep serial _ => exact hi.setWorker (hi.worker.sweep serial)
  | callback serial l values _ ho _ hb =>
    refine hi.setLane ((hi.lanes serial l).start ho values) (fun b _ hb' => ?_) hi.sent
    rw [hb] at hb'
    cases hb'
  | adopt serial l c b makesEncoder hcall _ ho hb hserial =>
    have hg := hi.found serial l b (by rw [hcall]; rfl) hb hserial
    exact hi.setLane ((hi.lanes serial l).adopt hcall ho hg makesEncoder)
      (hi.found_of_callback hcall) hi.sent
  | encode serial l c fed encodes hcall ht _ hf _ =>
    exact hi.setLane ((hi.lanes serial l).encodeWindow hcall ht hf encodes)
      (hi.found_of_callback hcall) hi.sent
  | skip serial l c hcall ht _ _ =>
    exact hi.setLane ((hi.lanes serial l).skipWindow hcall ht) (hi.found_of_callback hcall)
      hi.sent
  | reduce serial l c gen pos pad hcall ht _ _ _ _ hpad =>
    have hsome : c.target.isSome := by rw [ht]; rfl
    have hgen := ((hi.lanes serial l).target c gen hcall ht).1
    refine hi.setLane ((hi.lanes serial l).skipWindow hcall hsome)
      (hi.found_of_callback hcall) (forall_mem_cons.2 ⟨⟨hpad, ?_⟩, hi.sent⟩)
    rw [← hgen]
    exact (hi.lanes serial l).window hcall hsome
  | tail serial l c hcall ht _ =>
    exact hi.setLane ((hi.lanes serial l).keepTail hcall ht) nofun hi.sent
  | send serial l b o ho hin hb _ hgen =>
    refine hi.setLane (hi.lanes serial l).giveUp (hi.found serial l)
      (forall_mem_cons.2 ⟨⟨(hi.hot.held _ b hin hb).1.2, ?_⟩, hi.sent⟩)
    rw [hgen]
    exact (hi.lanes serial l).outgoing o ho
  | giveUp serial l =>
    exact hi.setLane (hi.lanes serial l).giveUp (hi.found serial l) hi.sent
  | done serial l => exact hi.setLane (hi.lanes serial l).done nofun hi.sent
  | beginSnapshot pos pad r hfree hcold hr =>
    refine hi.setDash (Hot.writer_of_holder hi.hot (by rw [hfree]; exact nofun)) (fun n hn => ?_)
      hi.shown hi.views
    cases hn
    exact ⟨rfl, hcold, beginRead_valid hr⟩
  | loadSnapshot n w hn =>
    obtain ⟨hholder, hcold, hvalid⟩ := hi.snapshot n hn
    refine { hi with snapshot := fun n' hn' => ?_ }
    cases hn'
    exact ⟨hholder, hcold, hvalid.load w⟩
  | endSnapshot n hn => exact hi.endSnapshot hn (hc n hn)

theorem Reaches.inv (h : Reaches Counted s) : s.Inv := by
  induction h with
  | start => exact inv_start
  | move _ hc hs ih => exact ih.step hc hs

/-- What is used for a pad is of its own plug, and a snapshot is of one moment. -/
structure Rule (s : Service) : Prop where
  /-- A generation is given to one plug. -/
  plugs : s.hot.plugged.Nodup
  /-- A pad held in a section is the one its slot shows until the thread leaves. -/
  held : ∀ p b, (s.hot.threads p).inside = true → (s.hot.threads p).bound = some b →
    s.hot.Shows b ∧ b.gen ∈ s.hot.plugged
  /-- A pad being read for the dashboard is its session's pad until the read is over. -/
  current : ∀ n, s.dash.snapshot = some n → s.hot.cold n.pos = some n.pad
  shown : ∀ u ∈ s.dash.shown, u.Own
  whole : ∀ v ∈ s.dash.views, v.Whole
  rated : ∀ u ∈ s.rx.rated, u.Own
  decoded : ∀ u ∈ s.worker.decoded, u.Own
  submitted : ∀ u ∈ s.worker.submitted, u.Own
  sent : ∀ e ∈ s.lanes.sent, e.Own

/-- No interleaving lets a pad use what was kept for an earlier plug of its serial. -/
theorem generation_rule (h : Reaches Counted s) : s.Rule := by
  have hi := h.inv
  exact
    { plugs := hi.hot.nodup
      held := fun p b hin hb => ⟨(hi.hot.held p b hin hb).1, hi.hot.bounds p b hb⟩
      current := fun n hn => (hi.snapshot n hn).2.1
      shown := hi.shown
      whole := hi.views
      rated := hi.rx.rated
      decoded := hi.worker.decoded
      submitted := hi.worker.submitted
      sent := hi.sent }

/-! ## Runs -/

theorem Reaches.mono (h : Reaches Counted s) : Reaches FewPlugs s := by
  induction h with
  | start => exact .start
  | @move s s' m _ hc hs ih =>
    refine .move ih ?_ hs
    cases m with
    | hot m =>
      cases m with
      | plug pos serial => exact hc
      | _ => trivial
    | _ => trivial

theorem Reaches.hot (hr : Reaches Counted s) (m : HotMove) {h : Hot} (hs : s.hot.Step m h)
    (hc : s.hot.Counted m) (ha : s.Admits m) : Reaches Counted { s with hot := h } :=
  .move (m := .hot m) hr hc (.hot m h hs ha)

theorem Reaches.rx (hr : Reaches Counted s) {m : RxMove} {r : Receiver}
    (hs : s.rx.step (s.hot.threads .receive) m = some r) : Reaches Counted { s with rx := r } :=
  .move (m := .rx m) hr trivial (.rx m r hs)

/-- The write to a slot goes on to its last word. -/
theorem Reaches.storeAll {slot : Nat} (todo : List SlotWord) : ∀ s : Service,
    Reaches Counted s → s.hot.writer = some (slot, todo) → (∀ p, s.hot.waits p = false) →
    ∃ h : Hot, Reaches Counted { s with hot := h } ∧ h.writer = some (slot, []) ∧
      (∀ p, h.waits p = false) ∧ h.cold = s.hot.cold ∧ h.holder = s.hot.holder ∧
      h.threads = s.hot.threads := by
  induction todo with
  | nil =>
    intro s hr hw hwaits
    exact ⟨s.hot, hr, hw, hwaits, rfl, rfl, rfl⟩
  | cons w todo ih =>
    intro s hr hw hwaits
    have hnext := hr.hot .storeNext (.storeNext slot w todo hw hwaits) trivial trivial
    obtain ⟨h, hr', hrest⟩ := ih _ hnext rfl hwaits
    exact ⟨h, hr', hrest⟩

theorem load_setThread {h : Hot} {p : Participant} {t : Thread} {r : SlotRead}
    (ht : t.read = some r) (w : Nat → SlotWord) :
    (h.setThread p t).load p w = some (h.setThread p { t with
      read := some { r with reading := r.reading.load (h.slots r.pos.slot) (w r.pos.idx) } }) := by
  simp only [Hot.load, Hot.setThread, update_self, ht, update_idem]

/-- A read with no write in between finds the pad that the slot shows. -/
theorem Reaches.readPad (hr : Reaches Counted s) (hw : s.hot.writer = none) {p : Participant}
    {b : Bound} (hidx : b.pos.idx < padsPerSlot) (hread : (s.hot.threads p).read = none)
    (hb : s.hot.Shows b) :
    ∃ h : Hot, Reaches Counted { s with hot := h } ∧ h.holder = s.hot.holder ∧
      h.cold = s.hot.cold ∧ (h.threads p).inside = (s.hot.threads p).inside ∧
      (h.threads p).bound = some b := by
  have hquiet := (hr.inv.hot.rests b.pos.slot (by rw [hw]; exact nofun)).1
  have hbegin : (s.hot.slots b.pos.slot).beginRead =
      some { before := (s.hot.slots b.pos.slot).bumps } := by
    unfold beginRead
    rw [hquiet]
    rfl
  have hbegun := hr.hot (.beginRead p b.pos) (.beginRead p b.pos _ hread hidx hbegin) trivial
    trivial
  have hctrl := hbegun.hot (.loadCtrl p) (.loadCtrl p _ (load_setThread rfl _)) trivial trivial
  have hgen := hctrl.hot (.loadGen p) (.loadGen p _ (load_setThread rfl _)) trivial trivial
  let reading : Reading SlotWord.Val :=
    (load { before := (s.hot.slots b.pos.slot).bumps } (s.hot.slots b.pos.slot)
      (.ctrl b.pos.idx)).load (s.hot.slots b.pos.slot) (.gen b.pos.idx)
  let loaded : Thread := { inside := (s.hot.threads p).inside, read := some ⟨b.pos, reading⟩ }
  have hloaded : Reaches Counted { s with hot := s.hot.setThread p loaded } := hgen
  refine ⟨_, hloaded.hot (.endRead p) (.endRead p ⟨b.pos, reading⟩ ?_) ?_ trivial, rfl, rfl,
    ?_, ?_⟩
  · simp only [Hot.setThread, update_self, loaded]
  · intro r hr
    simp only [Hot.setThread, update_self, loaded, Option.some.injEq] at hr
    subst hr
    simp only [reading, recent, load, Hot.setThread, Nat.sub_self]
    rfl
  · simp only [Hot.setThread, update_self, loaded]
  · have hstable : reading.stable (s.hot.slots b.pos.slot) = true := beq_self_eq_true _
    have hgotGen : reading.got (.gen b.pos.idx) = some b.gen := by
      rw [got_load, hb.2]
    have hgotCtrl : reading.got (.ctrl b.pos.idx) = some (some b.serial) := by
      have hne : SlotWord.ctrl b.pos.idx ≠ .gen b.pos.idx := by simp
      simp only [reading, got_load_of_ne hne, got_load, hb.1]
    simp only [Hot.setThread, update_self, Hot.found, hgotCtrl, hgotGen, hstable, if_true]

/-- The receive thread holds a section for the pad of the first plug. -/
theorem reaches_held : ∃ h : Hot, Reaches Counted { hot := h } ∧ h.holder = none ∧
    h.cold ⟨0, 0⟩ = some ⟨1, 1⟩ ∧ (h.threads .receive).inside = true ∧
    (h.threads .receive).bound = some ⟨⟨0, 0⟩, 1, 1⟩ := by
  have hlock := Reaches.start.hot .lock (.lock rfl) trivial trivial
  have hdevice := hlock.hot (.pluginDevice 1) (.pluginDevice 1 ⟨nofun, nofun⟩) trivial
    fun _ => rfl
  have hplug := hdevice.hot (.plug ⟨0, 0⟩ 1) (.plug ⟨0, 0⟩ 1 rfl rfl)
    (show 0 + 1 < 2 ^ 32 by decide) trivial
  have hbegin := hplug.hot (.beginWrite 0) (.beginWrite 0 rfl rfl) trivial trivial
  obtain ⟨h, hstored, hw, hwaits, hcold, hholder, hthreads⟩ :=
    Reaches.storeAll slotWords _ hbegin rfl fun _ => rfl
  have hpad : h.cold ⟨0, 0⟩ = some ⟨1, 1⟩ := by
    rw [hcold]
    rfl
  have hdone := (hstored.inv.hot.catching 0 [] hw).2
  have hshows : ∀ w ∈ slotWords, (h.slots 0).mem w = coldWord h.cold 0 w := fun w hmem =>
    (hdone w hmem).resolve_left not_mem_nil
  have hended := hstored.hot .endWrite (.endWrite 0 hw hwaits) trivial trivial
  have hunlocked := hended.hot .unlock (.unlock hholder rfl) trivial trivial
  have houtside : h.threads .receive = {} := by
    rw [hthreads]
    rfl
  have hentered := hunlocked.hot (.enter .receive)
    (.enter .receive (congrArg Thread.inside houtside) (congrArg Thread.read houtside)) trivial
    trivial
  obtain ⟨h', hread, hholder', hcold', hinside, hbound⟩ :=
    hentered.readPad rfl (p := .receive) (b := ⟨⟨0, 0⟩, 1, 1⟩) (by decide) (by
      simp only [Hot.setThread, update_self]) (by
      simp only [Hot.Shows, Hot.setThread, Hot.bump_mem]
      rw [hshows _ (mem_slotWords (by decide)).1, hshows _ (mem_slotWords (by decide)).2]
      simp only [coldWord, hpad]
      exact ⟨rfl, rfl⟩)
  refine ⟨h', hread, hholder', ?_, ?_, hbound⟩
  · rw [hcold']
    exact hpad
  · rw [hinside]
    simp only [Hot.setThread, update_self]

/-- A publication goes on to its end. -/
theorem Reaches.publishAll {serial : Nat} (ops : List RxOp) : ∀ s : Service,
    Reaches Counted s → s.rx.publishing = (serial, ops) →
    ∃ r : Receiver, Reaches Counted { s with rx := r } ∧ r.publishing.2 = [] ∧
      r.pads serial =
        { s.rx.pads serial with mem := ops.foldl RxOp.run (s.rx.pads serial).mem } := by
  induction ops with
  | nil =>
    intro s hr hp
    exact ⟨s.rx, hr, congrArg Prod.snd hp, rfl⟩
  | cons op ops ih =>
    intro s hr hp
    have hnext := hr.rx (m := .publishNext) (r := s.rx.setPad serial
      { s.rx.pads serial with mem := op.run (s.rx.pads serial).mem } ops) (by
        simp only [Receiver.step, hp])
    obtain ⟨r, hr', hidle, hpads⟩ := ih _ hnext rfl
    refine ⟨r, hr', hidle, ?_⟩
    rw [hpads]
    simp only [Receiver.setPad, update_self, foldl_cons]

/-- A report that reaches the pad held is published before the next. -/
theorem Reaches.report (hr : Reaches Counted s) {b : Bound}
    (hin : (s.hot.threads .receive).inside = true)
    (hb : (s.hot.threads .receive).bound = some b) (hidle : s.rx.publishing.2 = [])
    (k : Report) (values : Nat → Nat) (delivered : Bool) :
    let own := (s.rx.pads b.serial).forGen b.gen
    let pub := own.1.publish k (fun i => ⟨values i, b.gen⟩) delivered
    ∃ r : Receiver, Reaches Counted { s with rx := r } ∧ r.publishing.2 = [] ∧
      r.pads b.serial = { pub.1 with
        mem := (own.2 ++ pub.2).foldl RxOp.run (s.rx.pads b.serial).mem } := by
  intro own pub
  have hnext := hr.rx (m := .report k values delivered)
    (r := s.rx.setPad b.serial pub.1 (own.2 ++ pub.2)) (by
      simp only [Receiver.step, hin, hb, hidle]
      rfl)
  obtain ⟨r, hr', hidle', hpads⟩ := Reaches.publishAll _ _ hnext rfl
  refine ⟨r, hr', hidle', ?_⟩
  rw [hpads]
  simp only [Receiver.setPad, update_self]
  rw [RxPad.publish_mem, RxPad.forGen_mem]

/-- The published state after `n` motion reports: each word of a report holds its number. -/
structure Reported (rx : RxPad) (bumps n : Nat) : Prop where
  own : rx.ownGen = 1
  bumps : rx.mem.bumps = bumps
  words : ∀ i < 2, rx.mem.mem (.data .motion i) = ⟨n, 1⟩

theorem Reported.next {rx : RxPad} {bumps n : Nat} (h : Reported rx bumps n) (m : Nat) :
    let own := rx.forGen 1
    let pub := own.1.publish .motion (fun _ => ⟨m, 1⟩) true
    Reported { pub.1 with mem := (own.2 ++ pub.2).foldl RxOp.run rx.mem } (bumps + 2) m := by
  have hown : rx.forGen 1 = (rx, []) := by
    unfold RxPad.forGen
    rw [if_pos h.own]
  simp only [hown, nil_append]
  refine ⟨h.own, ?_, fun i hi => ?_⟩
  · rw [← h.bumps]
    rfl
  · have hcases : i = 0 ∨ i = 1 := by omega
    rcases hcases with rfl | rfl
    · rfl
    · rfl

theorem Reaches.reports (n : Nat) (hr : Reaches Counted s)
    (hin : (s.hot.threads .receive).inside = true)
    (hb : (s.hot.threads .receive).bound = some ⟨⟨0, 0⟩, 1, 1⟩)
    (hidle : s.rx.publishing.2 = []) {bumps : Nat} (h : Reported (s.rx.pads 1) bumps 0) :
    ∃ r : Receiver, Reaches Counted { s with rx := r } ∧ r.publishing.2 = [] ∧
      Reported (r.pads 1) (bumps + 2 * n) n := by
  induction n with
  | zero => exact ⟨s.rx, hr, hidle, h⟩
  | succ n ih =>
    obtain ⟨r, hr', hidle', hn⟩ := ih
    obtain ⟨r', hr'', hidle'', hpads⟩ :=
      hr'.report hin hb hidle' .motion (fun _ => n + 1) true
    refine ⟨r', hr'', hidle'', ?_⟩
    rw [hpads]
    exact hn.next (n + 1)

/-- The pad held, its first motion report published, and the mutex free. -/
theorem reaches_reported : ∃ h r, Reaches Counted { hot := h, rx := r } ∧ h.holder = none ∧
    h.cold ⟨0, 0⟩ = some ⟨1, 1⟩ ∧ (h.threads .receive).inside = true ∧
    (h.threads .receive).bound = some ⟨⟨0, 0⟩, 1, 1⟩ ∧ r.publishing.2 = [] ∧
    Reported (r.pads 1) 4 0 ∧ (r.pads 1).mem.mem .gen = 1 ∧
    ((r.pads 1).mem.mem .flags).known .motion = true := by
  obtain ⟨h, hr, hholder, hcold, hin, hb⟩ := reaches_held
  obtain ⟨r, hr', hidle, hpads⟩ := hr.report hin hb rfl .motion (fun _ => 0) true
  refine ⟨h, r, hr', hholder, hcold, hin, hb, hidle, ?_, ?_, ?_⟩
  · rw [hpads]
    refine ⟨rfl, rfl, fun i hi => ?_⟩
    have hcases : i = 0 ∨ i = 1 := by omega
    rcases hcases with rfl | rfl
    · rfl
    · rfl
  · rw [hpads]
    rfl
  · rw [hpads]
    rfl

theorem Reaches.loadSnapshot (hr : Reaches Counted s) {n : Snapshot}
    (hn : s.dash.snapshot = some n) (w : RxWord) :
    Reaches Counted { s with dash := { s.dash with
      snapshot := some { n with reading := n.reading.load (s.rx.pads n.pad.serial).mem w } } } :=
  .move (m := .loadSnapshot w) hr trivial (.loadSnapshot n w hn)

/-- A snapshot begins, under the mutex, on a pad that nothing is being published of. -/
theorem Reaches.beginSnapshot (hr : Reaches Counted s) (hfree : s.hot.holder = none) {pos : Pos}
    {pad : ColdPad} (hcold : s.hot.cold pos = some pad) (hidle : s.rx.publishing.2 = []) :
    Reaches Counted { s with
      hot := { s.hot with holder := some .dashboard }
      dash := { s.dash with
        snapshot := some ⟨pos, pad, { before := (s.rx.pads pad.serial).mem.bumps }⟩ } } := by
  have hquiet := (hr.inv.rx.idle hidle pad.serial).quiet
  refine .move (m := .beginSnapshot pos) hr trivial (.beginSnapshot pos pad _ hfree hcold ?_)
  unfold beginRead
  rw [hquiet]
  rfl

/-- A stable read is accepted. -/
theorem Reaches.accept {allowed : Service → Move → Prop} (hr : Reaches allowed s)
    (ha : allowed s .endSnapshot) {n : Snapshot} (hn : s.dash.snapshot = some n)
    (hstable : n.reading.stable (s.rx.pads n.pad.serial).mem = true) :
    ∃ s', Reaches allowed s' ∧
      s'.dash.views = ⟨n.reading.got, (s.rx.pads n.pad.serial).mem⟩ :: s.dash.views ∧
      s'.dash.shown = n.shown ++ s.dash.shown := by
  refine ⟨_, .move hr ha (.endSnapshot n hn), ?_, ?_⟩
  · simp only [hstable, if_true]
  · simp only [hstable, if_true]

theorem shown_motion {n : Snapshot} {flags : RxFlags} {first second : Datum}
    (hgen : n.reading.got .gen = some n.pad.gen) (hflags : n.reading.got .flags = some flags)
    (hknown : flags.known .motion = true) (h0 : n.reading.got (.data .motion 0) = some first)
    (h1 : n.reading.got (.data .motion 1) = some second) :
    ⟨n.pad.gen, [first.source, second.source]⟩ ∈ n.shown := by
  have hshows : n.shows .motion = true := by
    simp only [Snapshot.shows, hgen, hflags, hknown, beq_self_eq_true, Bool.and_self]
  have hsources : n.sources .motion = [first.source, second.source] := by
    simp [Snapshot.sources, Report.words, h0, h1]
  refine mem_filterMap.mpr ⟨.motion, mem_cons_self, ?_⟩
  rw [if_pos hshows, hsources]

/-- The rule applies to a run that shows a motion report. -/
theorem generation_rule_shows_motion :
    ∃ s, Reaches Counted s ∧ (⟨1, [1, 1]⟩ : Use) ∈ s.dash.shown ∧ s.Rule := by
  obtain ⟨h, r, hr, hholder, hcold, _, _, hidle, hrep, hgen, hknown⟩ := reaches_reported
  have hgenLoaded := (hr.beginSnapshot hholder hcold hidle).loadSnapshot rfl .gen
  have hflagsLoaded := hgenLoaded.loadSnapshot rfl .flags
  have hfirst := hflagsLoaded.loadSnapshot rfl (.data .motion 0)
  have hboth := hfirst.loadSnapshot rfl (.data .motion 1)
  let m := (r.pads 1).mem
  let reading : Reading RxWord.Val := (((load { before := m.bumps } m .gen).load m
    .flags).load m (.data .motion 0)).load m (.data .motion 1)
  let n : Snapshot := ⟨⟨0, 0⟩, ⟨1, 1⟩, reading⟩
  have hrecent : reading.recent m = true := by
    simp only [reading, recent, load, Nat.sub_self]
    rfl
  obtain ⟨s, hs, _, hshown⟩ := hboth.accept (n := n)
    (by intro n' hn'; cases hn'; exact hrecent) rfl (beq_self_eq_true _)
  refine ⟨s, hs, ?_, generation_rule hs⟩
  have h0 : reading.got (.data .motion 0) = some ⟨0, 1⟩ := by
    rw [← hrep.words 0 (by decide)]
    rfl
  have h1 : reading.got (.data .motion 1) = some ⟨0, 1⟩ := by
    rw [← hrep.words 1 (by decide)]
    rfl
  have hgot : reading.got .gen = some 1 := by
    rw [← hgen]
    rfl
  rw [hshown]
  exact mem_append_left _ (shown_motion (n := n) hgot rfl hknown h0 h1)

/-- After `2 ^ 31` reports the counter is what it was, and a snapshot of the first report's first
word and the last report's second word is accepted. -/
theorem snapshot_mixes_writes : ∃ s, Reaches FewPlugs s ∧ ∃ v ∈ s.dash.views,
    v.got (.data .motion 0) = some ⟨0, 1⟩ ∧ v.got (.data .motion 1) = some ⟨2 ^ 31, 1⟩ ∧
      v.mem.mem (.data .motion 0) = ⟨2 ^ 31, 1⟩ ∧ ¬ v.Whole := by
  obtain ⟨h, r, hr, hholder, hcold, hin, hb, hidle, hrep, _, _⟩ := reaches_reported
  have hfirst := (hr.beginSnapshot hholder hcold hidle).loadSnapshot rfl (.data .motion 0)
  obtain ⟨r', hr', _, hrep'⟩ := hfirst.reports (2 ^ 31) hin hb hidle hrep
  have hboth := hr'.loadSnapshot rfl (.data .motion 1)
  let m := (r.pads 1).mem
  let m' := (r'.pads 1).mem
  let reading : Reading RxWord.Val :=
    (load { before := m.bumps } m (.data .motion 0)).load m' (.data .motion 1)
  let n : Snapshot := ⟨⟨0, 0⟩, ⟨1, 1⟩, reading⟩
  have hstable : reading.stable m' = true := by
    simp only [reading, stable, load, m, m', hrep.bumps, hrep'.bumps]
    decide
  obtain ⟨s, hs, hviews, _⟩ := hboth.mono.accept (n := n) trivial rfl hstable
  have h0 : reading.got (.data .motion 0) = some ⟨0, 1⟩ := by
    rw [← hrep.words 0 (by decide)]
    rfl
  have h1 : reading.got (.data .motion 1) = some ⟨2 ^ 31, 1⟩ := by
    rw [← hrep'.words 1 (by decide)]
    rfl
  have hnow : m'.mem (.data .motion 0) = ⟨2 ^ 31, 1⟩ := hrep'.words 0 (by decide)
  refine ⟨s, hs, ⟨reading.got, m'⟩, ?_, h0, h1, hnow, ?_⟩
  · rw [hviews]
    exact mem_cons_self
  · rintro ⟨_, hwords⟩
    have hsame : (⟨0, 1⟩ : Datum) = m'.mem (.data .motion 0) := hwords (.data .motion 0) _ h0
    rw [hnow, Datum.mk.injEq] at hsame
    omega

end Service

end Satellite.Generation
