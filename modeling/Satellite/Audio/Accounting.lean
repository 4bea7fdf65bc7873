import Satellite.Audio.Mic

/-!
# Frames between publications

The stores of a topology operation come in the order of the code, and operations follow one
another under `topoMtx_`. Between two of them a session is live exactly if its token is found and
its slot can be read under it. So a frame is counted if it is of a live session and no operation
on that session is under way between its arrival and the end of its read.
-/

namespace Satellite.Audio

open Function List MicSystem

/-! ## Operations -/

/-- What is published: a new session, a new token and key of a session, its pads, and its end.
Closing several sessions is closing one after the other. -/
inductive TopologyOp
  | openSession (slot token : Nat) (pads : Nat → HotPad)
  | rekey (slot old token : Nat) (pads : Nat → HotPad)
  | publishControllers (slot token : Nat) (pads : Nat → HotPad)
  | close (slot token : Nat)

/-- The stores of a `ConnectionWrite`. -/
def MicSystem.connectionWrite (s : MicSystem) (slot token newKeys : Nat) (pads : Nat → HotPad) :
    List Move :=
  [.beginWrite slot, .store slot token ((s.slots slot).keyEpoch + newKeys) pads, .endWrite slot]

namespace TopologyOp

/-- The stores in their order: `connections_` is changed before a session is published and after
it is retired. -/
def stores (s : MicSystem) : TopologyOp → List Move
  | openSession slot token pads =>
    .setLive token true :: (s.connectionWrite slot token 1 pads ++ [.setIndex token (some slot)])
  | rekey slot old token pads =>
    .setLive old false :: .setLive token true :: (s.connectionWrite slot token 1 pads ++
      [.setIndex old none, .setIndex token (some slot)])
  | publishControllers slot token pads => s.connectionWrite slot token 0 pads
  | close slot token =>
    .setIndex token none :: (s.connectionWrite slot 0 0 (fun _ => {}) ++ [.setLive token false])

/-- The tokens of the session an operation is on. -/
def tokens : TopologyOp → List Nat
  | openSession _ token _ | publishControllers _ token _ | close _ token => [token]
  | rekey _ old token _ => [old, token]

def slot : TopologyOp → Nat
  | openSession slot _ _ | rekey slot _ _ _ | publishControllers slot _ _ | close slot _ => slot

/-- `findFree` gives a new session its slot and `generateUniqueToken` a token no session has; an
operation on a session knows its slot. -/
def Valid (s : MicSystem) : TopologyOp → Prop
  | openSession slot token _ =>
    (∀ t, s.index t ≠ some slot) ∧ (s.slots slot).writing = false ∧ s.live token = false
  | rekey slot old token _ => s.index old = some slot ∧ s.live token = false
  | publishControllers slot token _ | close slot token => s.index token = some slot

end TopologyOp

/-- The mic system with the operation under way: its session and the stores still to come. -/
structure MicRun where
  sys : MicSystem := {}
  tokens : List Nat := []
  slot : Nat := 0
  todo : List Move := []

/-- The moves of topology operations. -/
def Move.isStore : Move → Bool
  | .setLive .. | .setIndex .. | .beginWrite _ | .store .. | .endWrite _ => true
  | _ => false

namespace MicRun

inductive Act
  | begin (op : TopologyOp)
  | store
  /-- A move of the receive thread or of the worker. -/
  | move (m : Move)

def Step (r : MicRun) : Act → MicRun → Prop
  | .begin op, r' => r.todo = [] ∧ op.Valid r.sys ∧
    r' = { r with tokens := op.tokens, slot := op.slot, todo := op.stores r.sys }
  | .store, r' => ∃ m s, r.todo = m :: r'.todo ∧ r.sys.step m = some s ∧
    r' = { r with sys := s, todo := r'.todo }
  | .move m, r' => m.isStore = false ∧ ∃ s, r.sys.step m = some s ∧ r' = { r with sys := s }

/-- The runs whose acts each meet a condition where they are taken. -/
inductive Reaches (allowed : MicRun → Act → Prop) : MicRun → Prop
  | start : Reaches allowed {}
  | act {r r' : MicRun} {a : Act} (h : Reaches allowed r) (ha : allowed r a) (hs : r.Step a r') :
      Reaches allowed r'

/-- No operation on this session is under way. -/
def Clear (r : MicRun) (token : Nat) : Prop := r.todo = [] ∨ token ∉ r.tokens

/-- Between the arrival of a frame and the end of its read no operation on its session is under
way. -/
def Apart (r : MicRun) : Act → Prop
  | .begin op => ∀ f, r.sys.receiving.reading = some f → f.token ∉ op.tokens
  | .move m => ∀ token, m.arrival = some token → r.Clear token
  | .store => True

end MicRun

/-! ## One operation -/

variable {s s' : MicSystem} {t slot : Nat} {pads : Nat → HotPad}

/-- Two sessions do not share a slot. -/
theorem slot_ne_of_settled {slot' t' : Nat} (h : s.Settled t) (h' : s.Settled t') (hne : t ≠ t')
    (hi : s.index t = some slot) (hi' : s.index t' = some slot') : slot ≠ slot' := by
  rintro rfl
  exact hne ((h.of_index hi).2.2.symm.trans (h'.of_index hi').2.2)

/-- The tables say the same of a token. -/
structure SameAt (s s' : MicSystem) (t : Nat) : Prop where
  index : s'.index t = s.index t
  live : s'.live t = s.live t
  hot : ∀ slot, s.index t = some slot → s'.slots slot = s.slots slot

theorem MicSystem.Settled.of_sameAt (h : s.Settled t) (hsame : SameAt s s' t) : s'.Settled t := by
  rcases h with ⟨hnone, hdead⟩ | ⟨slot, hslot, hlive, hrest⟩
  · exact .inl ⟨hsame.index.trans hnone, hsame.live.trans hdead⟩
  · refine .inr ⟨slot, hsame.index.trans hslot, hsame.live.trans hlive, ?_⟩
    rw [hsame.hot slot hslot]
    exact hrest

/-- The stores go through, and leave every token settled. -/
def Finishes : List Move → MicSystem → Prop
  | [], s => ∀ t, s.Settled t
  | m :: ms, s => ∃ s', s.step m = some s' ∧ Finishes ms s'

/-- A write leaves the slot with what was stored. -/
theorem finishes_write {token keyEpoch : Nat} {ms : List Move} (hw : (s.slots slot).writing = false)
    (h : ∀ hot : HotSlot, hot.writing = false → hot.token = token →
      Finishes ms (s.setSlot slot hot)) :
    Finishes ([.beginWrite slot, .store slot token keyEpoch pads, .endWrite slot] ++ ms) s := by
  have hodd : ((s.slots slot).gen + 1) % 2 = 1 := by
    simp only [HotSlot.writing, beq_eq_false_iff_ne] at hw
    omega
  refine ⟨_, if_neg (by simp [hw]), _, if_pos ?_, _, if_pos ?_, ?_⟩
  · simp [setSlot, HotSlot.writing, hodd]
  · simp [setSlot, HotSlot.writing, hodd]
  · have hdone := h ⟨(s.slots slot).gen + 1 + 1, token, keyEpoch, pads⟩
      (by simp only [HotSlot.writing, beq_eq_false_iff_ne]; omega) rfl
    simpa [setSlot] using hdone

/-- An operation that starts with every token settled ends so. -/
theorem finishes_stores (hall : ∀ t, s.Settled t) {op : TopologyOp} (hv : op.Valid s) :
    Finishes (op.stores s) s := by
  cases op with
  | openSession slot token pads =>
    obtain ⟨hfree, hwrite, -⟩ := hv
    refine ⟨_, rfl, finishes_write hwrite fun hot hw ht => ⟨_, rfl, fun t => ?_⟩⟩
    by_cases heq : t = token
    · subst heq
      exact .inr ⟨slot, update_self .., update_self .., by simp [setSlot, hw],
        by simp [setSlot, ht]⟩
    · refine (hall t).of_sameAt ⟨update_of_ne heq .., update_of_ne heq .., fun slot' hi => ?_⟩
      have hslot : slot' ≠ slot := by
        rintro rfl
        exact hfree t hi
      exact update_of_ne hslot ..
  | rekey slot old token pads =>
    obtain ⟨hold, -⟩ := hv
    obtain ⟨-, hwrite, -⟩ := (hall old).of_index hold
    refine ⟨_, rfl, _, rfl, finishes_write hwrite fun hot hw ht => ⟨_, rfl, _, rfl, fun t => ?_⟩⟩
    by_cases heq : t = token
    · subst heq
      exact .inr ⟨slot, update_self .., update_self .., by simp [setSlot, hw],
        by simp [setSlot, ht]⟩
    · by_cases hold' : t = old
      · subst hold'
        exact .inl ⟨by simp [heq], by simp [setSlot, heq]⟩
      · refine (hall t).of_sameAt ⟨by simp [setSlot, heq, hold'], by simp [setSlot, heq, hold'], ?_⟩
        intro slot' hi
        exact update_of_ne (slot_ne_of_settled (hall t) (hall old) hold' hi hold) ..
  | publishControllers slot token pads =>
    obtain ⟨hlive, hwrite, -⟩ := (hall token).of_index hv
    refine finishes_write hwrite fun hot hw ht t => ?_
    by_cases heq : t = token
    · subst heq
      exact .inr ⟨slot, hv, hlive, by simp [setSlot, hw], by simp [setSlot, ht]⟩
    · refine (hall t).of_sameAt ⟨rfl, rfl, fun slot' hi => ?_⟩
      exact update_of_ne (slot_ne_of_settled (hall t) (hall token) heq hi hv) ..
  | close slot token =>
    obtain ⟨-, hwrite, -⟩ := (hall token).of_index hv
    refine ⟨_, rfl, finishes_write hwrite fun hot hw ht => ⟨_, rfl, fun t => ?_⟩⟩
    by_cases heq : t = token
    · subst heq
      exact .inl ⟨update_self .., update_self ..⟩
    · refine (hall t).of_sameAt ⟨update_of_ne heq .., update_of_ne heq .., fun slot' hi => ?_⟩
      exact update_of_ne (slot_ne_of_settled (hall t) (hall token) heq hi hv) ..

/-- A store that touches only these tokens and this slot. -/
def Move.Within (tokens : List Nat) (slot : Nat) : Move → Prop
  | .setLive token _ | .setIndex token _ => token ∈ tokens
  | .beginWrite slot' | .store slot' _ _ _ | .endWrite slot' => slot' = slot
  | _ => False

theorem within_stores (op : TopologyOp) : ∀ m ∈ op.stores s, m.Within op.tokens op.slot := by
  cases op <;>
    simp [TopologyOp.stores, connectionWrite, Move.Within, TopologyOp.tokens, TopologyOp.slot]

/-- The slot of an operation is not that of another session. -/
theorem slot_ne_of_valid (hall : ∀ t, s.Settled t) {op : TopologyOp} (hv : op.Valid s)
    (ht : t ∉ op.tokens) : s.index t ≠ some op.slot := by
  intro hi
  have hother : ∀ {t'}, t' ∈ op.tokens → s.index t' ≠ some op.slot := by
    intro t' ht' hi'
    refine slot_ne_of_settled (hall t) (hall t') ?_ hi hi' rfl
    rintro rfl
    exact ht ht'
  cases op with
  | openSession => exact hv.1 t hi
  | rekey => exact hother mem_cons_self hv.1
  | publishControllers | close => exact hother mem_cons_self hv

variable {m : Move} {tokens : List Nat}

/-- A store changes nothing for other sessions. -/
theorem sameAt_of_store (hm : m.Within tokens slot) (hs : s.step m = some s') (ht : t ∉ tokens)
    (hi : s.index t ≠ some slot) : SameAt s s' t := by
  cases m with
  | setLive token | setIndex token =>
    have hne : t ≠ token := by
      rintro rfl
      exact ht hm
    cases hs
    exact ⟨by simp [hne], by simp [hne], fun _ _ => rfl⟩
  | beginWrite slot' | store slot' | endWrite slot' =>
    obtain rfl : slot' = slot := hm
    simp only [step] at hs
    split at hs <;> cases hs
    refine ⟨rfl, rfl, fun slot hslot => update_of_ne ?_ ..⟩
    rintro rfl
    exact hi hslot
  | _ => exact hm.elim

/-- The tables alone. -/
def MicSystem.tables (s : MicSystem) : MicSystem :=
  { live := s.live, index := s.index, slots := s.slots }

/-- A store works on the tables. -/
theorem step_tables (hm : m.Within tokens slot) (hs : s.step m = some s') :
    s.tables.step m = some s'.tables ∧ s'.receiving = s.receiving := by
  cases m with
  | setLive | setIndex =>
    cases hs
    exact ⟨rfl, rfl⟩
  | beginWrite slot | store slot | endWrite slot =>
    simp only [step] at hs ⊢
    split at hs <;> cases hs
    next hw =>
      simp only [tables, hw]
      exact ⟨rfl, rfl⟩
  | _ => exact hm.elim

/-- The receive thread and the worker leave them alone. -/
theorem tables_of_move (hm : m.isStore = false) (hs : s.step m = some s') :
    s'.tables = s.tables := by
  cases m with
  | setLive | setIndex | beginWrite | store | endWrite => cases hm
  | sweep serial =>
    obtain ⟨pads, hsweep⟩ := sweep_eq s serial
    simp only [step, hsweep] at hs
    split at hs <;> cases hs
    rfl
  | count =>
    simp only [step] at hs
    split at hs <;> cases hs
    · rfl
    · unfold handOverMicFrame
      split
      · rfl
      · split <;> rfl
  | endRead now =>
    simp only [step] at hs
    split at hs
    next f gen token pad _ =>
      obtain ⟨cause, rxPads, hgate⟩ := gate_eq s f pad now
      rw [hgate] at hs
      split at hs <;> cases hs <;> rfl
    · cases hs
  | arrive | find | beginRead =>
    simp only [step] at hs
    split at hs
    · split at hs <;> cases hs <;> rfl
    · cases hs
  | load | release =>
    simp only [step] at hs
    split at hs <;> cases hs
    rfl
  | process =>
    simp only [step] at hs
    split at hs
    · cases hs
    · split at hs <;> cases hs
      rfl

/-! ## Every run -/

namespace MicRun

variable {r : MicRun}

/-- Sessions without an operation under way are settled, in slots of their own; the stores to come
settle the others; and no operation is on the session of the frame in hand. -/
structure Inv (r : MicRun) : Prop where
  settled : ∀ t, r.Clear t → r.sys.Settled t
  slot_ne : ∀ t ∉ r.tokens, r.todo ≠ [] → r.sys.index t ≠ some r.slot
  within : ∀ m ∈ r.todo, m.Within r.tokens r.slot
  finishes : Finishes r.todo r.sys.tables
  reading : ∀ f, r.sys.receiving.reading = some f → r.Clear f.token
  holds : r.sys.Holds r.sys.receiving
  account : r.sys.Inv

theorem Inv.undisturbed (h : r.Inv) : r.sys.Undisturbed :=
  ⟨h.holds, fun f hf => h.settled _ (h.reading f hf)⟩

theorem holds_of_sameAt {rc : Receiving} (h : s.Holds rc)
    (hsame : ∀ f, rc.reading = some f → SameAt s s' f.token) : s'.Holds rc := by
  cases rc with
  | idle | gated => trivial
  | arrived f => exact h.trans (hsame f rfl).live.symm
  | found f slot => exact ⟨h.1, (hsame f rfl).index.trans h.2⟩
  | began f slot gen =>
    exact ⟨h.1, (hsame f rfl).index.trans h.2.1, (hsame f rfl).hot _ h.2.1 ▸ h.2.2⟩
  | loaded f gen token pad =>
    exact ⟨h.1, (hsame f rfl).index.trans h.2.1, (hsame f rfl).hot _ h.2.1 ▸ h.2.2.1, h.2.2.2⟩

theorem Inv.begin (h : r.Inv) {op : TopologyOp} (hidle : r.todo = []) (hv : op.Valid r.sys)
    (ha : r.Apart (.begin op)) :
    Inv { r with tokens := op.tokens, slot := op.slot, todo := op.stores r.sys } := by
  have hall : ∀ t, r.sys.tables.Settled t := fun t => h.settled t (.inl hidle)
  exact ⟨fun t _ => hall t, fun t ht _ => slot_ne_of_valid hall hv ht, within_stores op,
    finishes_stores hall hv, fun f hf => .inr (ha f hf), h.holds, h.account⟩

theorem Inv.store (h : r.Inv) {rest : List Move} (htodo : r.todo = m :: rest)
    (hs : r.sys.step m = some s) : Inv { r with sys := s, todo := rest } := by
  have hne : r.todo ≠ [] := by simp [htodo]
  have hwithin := h.within
  rw [htodo, forall_mem_cons] at hwithin
  obtain ⟨htables, hreceiving⟩ := step_tables hwithin.1 hs
  have hfinish : Finishes rest s.tables := by
    have hall := h.finishes
    rw [htodo] at hall
    obtain ⟨s', hs', hrest⟩ := hall
    rw [htables, Option.some.injEq] at hs'
    rwa [hs']
  have hsame {t : Nat} (ht : t ∉ r.tokens) : SameAt r.sys s t :=
    sameAt_of_store hwithin.1 hs ht (h.slot_ne t ht hne)
  have hclear : ∀ f, s.receiving.reading = some f → f.token ∉ r.tokens := by
    intro f hf
    rw [hreceiving] at hf
    exact (h.reading f hf).resolve_left hne
  refine ⟨fun t ht => ?_, fun t ht _ => ?_, hwithin.2, hfinish, fun f hf => .inr (hclear f hf), ?_,
    h.account.step h.undisturbed hs⟩
  · rcases ht with rfl | ht
    · exact hfinish t
    · exact (h.settled t (.inr ht)).of_sameAt (hsame ht)
  · rw [(hsame ht).index]
    exact h.slot_ne t ht hne
  · refine holds_of_sameAt ?_ fun f hf => hsame (hclear f hf)
    rw [hreceiving]
    exact h.holds

theorem Inv.move (h : r.Inv) (hm : m.isStore = false) (ha : r.Apart (.move m))
    (hs : r.sys.step m = some s) : Inv { r with sys := s } := by
  have htables := tables_of_move hm hs
  have hsame (t : Nat) : SameAt r.sys s t :=
    ⟨congrFun (congrArg MicSystem.index htables) t, congrFun (congrArg MicSystem.live htables) t,
      fun slot _ => congrFun (congrArg MicSystem.slots htables) slot⟩
  have hhand : (∀ f, s.receiving.reading = some f → r.Clear f.token) ∧
      r.sys.Holds s.receiving := by
    cases effect_of_step hs with
    | aside _ _ _ hr _ =>
      rw [hr]
      exact ⟨h.reading, h.holds⟩
    | arrives f _ _ _ hlive harrival =>
      refine ⟨fun g hg => ?_, hlive⟩
      cases hg
      exact ha f.token harrival
    | reads f rc hf hr hholds =>
      refine ⟨fun g hg => h.reading g ?_, hholds h.undisturbed⟩
      rw [hf, ← hr]
      exact hg
    | fails | gates | counts | hands => exact ⟨fun f hf => (by cases hf), trivial⟩
    | processes => exact ⟨h.reading, h.holds⟩
    | sweeps serial =>
      obtain ⟨pads, hsweep⟩ := sweep_eq r.sys serial
      rw [hsweep]
      exact ⟨h.reading, h.holds⟩
  refine ⟨fun t ht => (h.settled t ht).of_sameAt (hsame t), fun t ht hne => ?_, h.within, ?_,
    hhand.1, holds_of_sameAt hhand.2 fun f _ => hsame _, h.account.step h.undisturbed hs⟩
  · rw [(hsame t).index]
    exact h.slot_ne t ht hne
  · rw [htables]
    exact h.finishes

theorem reaches_inv (h : Reaches Apart r) : r.Inv := by
  induction h with
  | start =>
    exact ⟨fun t _ => .inl ⟨rfl, rfl⟩, fun t _ hne => absurd rfl hne,
      fun m hm => absurd hm not_mem_nil, fun t => .inl ⟨rfl, rfl⟩, fun f hf => (by cases hf),
      trivial, inv_start⟩
  | @act r r' a _ ha hs ih =>
    cases a with
    | begin op =>
      obtain ⟨hidle, hv, rfl⟩ := hs
      exact ih.begin hidle hv ha
    | store =>
      obtain ⟨m, s, htodo, hs, hr⟩ := hs
      rw [hr]
      exact ih.store htodo hs
    | move m =>
      obtain ⟨hm, s, hs, rfl⟩ := hs
      exact ih.move hm ha hs

/-- While no operation on a frame's session is under way between the frame's arrival and the end of
its read: with no frame on its way, the three counters add up to the frames let in, each of which
was counted once, and no other frame was. -/
theorem mic_frames_counted_once (h : Reaches Apart r) (hidle : r.sys.receiving = .idle)
    (hdrained : r.sys.ring = []) :
    let b := r.sys.books
    b.micAccepted + b.micLate + b.micDropped = b.delivered.length ∧
      (∀ id ∈ b.delivered, (b.counted.map Prod.fst).count id = 1) ∧
      (∀ id ∉ b.delivered, (b.counted.map Prod.fst).count id = 0) ∧
      ∀ c, b.counter c = (b.counted.map Prod.snd).count c :=
  (reaches_inv h).account.counted_once hidle hdrained

/-! ## A frame alone, and one during a publication -/

variable {allowed : MicRun → Act → Prop}

theorem Reaches.stores (h : Reaches allowed r) (ms rest : List Move) (ha : ∀ r, allowed r .store)
    (htodo : r.todo = ms ++ rest) (hp : r.sys.perform anyMove ms = some s) :
    Reaches allowed { r with sys := s, todo := rest } := by
  induction ms generalizing r with
  | nil =>
    cases hp
    rw [nil_append] at htodo
    rwa [← htodo]
  | cons m ms ih =>
    obtain ⟨s', hs, hp⟩ := Option.bind_eq_some_iff.1 hp
    have hnext : Reaches allowed { r with sys := s', todo := ms ++ rest } :=
      h.act (ha r) ⟨m, s', htodo, hs, rfl⟩
    have hlast := ih hnext rfl hp
    exact hlast

theorem Reaches.moves {ms : List Move} (h : Reaches allowed r)
    (ha : ∀ s m, allowed { r with sys := s } (.move m)) (hms : ∀ m ∈ ms, m.isStore = false)
    (hp : r.sys.perform anyMove ms = some s) :
    Reaches allowed { r with sys := s } := by
  induction ms generalizing r with
  | nil =>
    cases hp
    exact h
  | cons m ms ih =>
    rw [forall_mem_cons] at hms
    obtain ⟨s', hs, hp⟩ := Option.bind_eq_some_iff.1 hp
    have hnext : Reaches allowed { r with sys := s' } := h.act (ha r.sys m) ⟨hms.1, s', hs, rfl⟩
    have hlast := ih hnext ha hms.2 hp
    exact hlast

theorem published_performs : (perform anyMove {} (publishSession 7 1)).isSome = true := by
  decide +kernel

/-- The session of token 7 is open. -/
def published : MicRun where
  sys := (perform anyMove {} (publishSession 7 1)).get published_performs
  tokens := [7]

theorem reaches_published (hbegin : ∀ op, allowed {} (.begin op)) (hstore : ∀ r, allowed r .store) :
    Reaches allowed published := by
  have hopen := (Reaches.start : Reaches allowed {}).act
    (hbegin (.openSession 0 7 fun _ => { active := true, serial := 1, caps := capMic, gen := 1 }))
    ⟨rfl, ⟨fun t hi => (by cases hi), rfl, rfl⟩, rfl⟩
  exact hopen.stores (publishSession 7 1) [] hstore rfl
    (Option.some_get published_performs).symm

theorem one_frame_performs :
    (published.sys.perform anyMove (receiveFrame 7 100 ++ workOff)).isSome = true := by
  decide +kernel

/-- One frame has gone through the ring and the window. -/
def frameAccepted : MicRun := { published with sys := Option.get _ one_frame_performs }

theorem mic_frames_counted_once_accepted : Reaches Apart frameAccepted ∧
    frameAccepted.sys.books.delivered = [0] ∧ frameAccepted.sys.books.micAccepted +
      frameAccepted.sys.books.micLate + frameAccepted.sys.books.micDropped = 1 := by
  have hreach : Reaches Apart frameAccepted :=
    (reaches_published (fun op f hf => (by cases hf)) fun _ => trivial).moves
      (fun s m token _ => .inl rfl) (by decide) (Option.some_get one_frame_performs).symm
  have hdelivered : frameAccepted.sys.books.delivered = [0] := by decide +kernel
  refine ⟨hreach, hdelivered, ?_⟩
  rw [(mic_frames_counted_once hreach rfl (by decide +kernel)).1, hdelivered]
  rfl

/-- A controller PUT leaves the session with its first pad only. -/
def onePad : TopologyOp := .publishControllers 0 7 fun i =>
  if i = 0 then { active := true, serial := 1, caps := capMic, gen := 1 } else {}

theorem write_begins : (published.sys.perform anyMove [.beginWrite 0]).isSome = true := by
  decide +kernel

theorem frame_comes : ((Option.get _ write_begins).perform anyMove
    [.arrive 7 0 100 [1] true, .find, .beginRead]).isSome = true := by
  decide +kernel

theorem write_ends : ((Option.get _ frame_comes).perform anyMove
    ((onePad.stores published.sys).drop 1)).isSome = true := by
  decide +kernel

/-- The frame of a live session is let in while its pads are being published, and counted
nowhere. -/
theorem mic_frame_uncounted : ∃ r, Reaches (fun _ _ => True) r ∧ r.todo = [] ∧
    r.sys.receiving = .idle ∧ r.sys.ring = [] ∧ r.sys.books.delivered = [0] ∧ r.sys.live 7 = true ∧
      r.sys.books.micAccepted + r.sys.books.micLate + r.sys.books.micDropped = 0 := by
  have hvalid : published.sys.index 7 = some 0 := by decide +kernel
  have h : Reaches (fun _ _ => True) published :=
    reaches_published (fun _ => trivial) fun _ => trivial
  have h := h.act (a := .begin onePad) trivial ⟨rfl, hvalid, rfl⟩
  have h := h.stores [.beginWrite 0] _ (fun _ => trivial) rfl
    (Option.some_get write_begins).symm
  have h := h.moves (fun _ _ => trivial) (by decide) (Option.some_get frame_comes).symm
  have h := h.stores _ [] (fun _ => trivial) rfl (Option.some_get write_ends).symm
  refine ⟨_, h, rfl, rfl, ?_, ?_, ?_, ?_⟩
  all_goals decide +kernel

end MicRun

end Satellite.Audio
