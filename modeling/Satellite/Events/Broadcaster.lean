import Mathlib.Data.List.Basic
import Mathlib.Logic.Function.Basic

/-!
# Event streams

`EventBroadcaster` of `core/event_broadcaster.cpp`: `tick` builds a frame without the lock
between two critical sections, streams subscribe and wait for a newer generation, and the
timed loop ticks while a stream is attached. Every critical section is a step, and so is the
beginning of a build; a clock of steps says what came first.
-/

namespace Satellite.Events

open Function List

/-- A built frame, with the time its build began. -/
structure Frame where
  text : String
  begun : Nat

structure Shared where
  latest : Option Frame := none
  generation : UInt64 := 0
  subscribers : Nat := 0
  freshWanted : Bool := false
  closed : Bool := false

/-- What a `next` returned, and how often `close` had been called by then. A `next` returns
where its critical section ends. -/
structure Return where
  frame : Option Frame
  generation : UInt64
  closes : Nat

structure Subscription where
  seen : UInt64 := 0
  /-- When it was made, and whether no other stream was attached then. -/
  since : Nat := 0
  alone : Bool := false
  returns : List Return := []

/-- Where a thread is in `tick`. -/
inductive Tick
  | idle
  /-- Between the first critical section and the build. -/
  | checked
  | building (begun : Nat)

/-- Where the timed loop is. -/
inductive Worker
  | absent
  | waiting
  | ticking
  | pausing
  | gone
  deriving DecidableEq

structure State where
  shared : Shared := {}
  subs : Nat → Subscription := fun _ => {}
  /-- The streams that have not been destroyed. -/
  attached : List Nat := []
  /-- How many subscriptions were made. -/
  made : Nat := 0
  /-- The calls of `tick` by thread; thread 0 is the timed loop. -/
  ticks : Nat → Tick := fun _ => .idle
  worker : Worker := .absent
  closes : Nat := 0
  clock : Nat := 0

structure Options where
  maxSubscribers : Nat := 8
  timed : Bool := true

/-- Time passes; thread `t` goes to `p` in `tick`. -/
def State.tickTo (s : State) (t : Nat) (p : Tick) : State :=
  { s with ticks := update s.ticks t p, clock := s.clock + 1 }

/-- `tick` returns, to the timed loop in its own thread. -/
def State.tickDone (s : State) (t : Nat) : State :=
  { s.tickTo t .idle with worker := if t = 0 then .pausing else s.worker }

/-- `subscribe` once it has room. -/
def State.subscribe (s : State) (timed : Bool) : State :=
  let sh := if s.shared.subscribers = 0
    then { s.shared with latest := none, freshWanted := true } else s.shared
  { s with
    shared := { sh with subscribers := sh.subscribers + 1 }
    subs := update s.subs s.made
      { since := s.clock, alone := s.shared.subscribers == 0 }
    attached := s.made :: s.attached
    made := s.made + 1
    worker := if timed ∧ s.worker = .absent then .waiting else s.worker
    clock := s.clock + 1 }

/-- `next` once its wait is over. -/
def State.next (s : State) (i : Nat) : State :=
  let sub := s.subs i
  let sub := if s.shared.closed
    then { sub with returns := sub.returns ++ [⟨none, s.shared.generation, s.closes⟩] }
    else { sub with
      seen := s.shared.generation
      returns := sub.returns ++ [⟨s.shared.latest, s.shared.generation, s.closes⟩] }
  { s with subs := update s.subs i sub, clock := s.clock + 1 }

/-- One critical section, or the beginning of a build. A subscription is only made in states
that satisfy `guard`. -/
inductive Step (o : Options) (guard : State → Prop) (s : State) : State → Prop
  | subscribe : s.shared.closed = false → s.shared.subscribers < o.maxSubscribers → guard s →
      Step o guard s (s.subscribe o.timed)
  | unsubscribe (i : Nat) : i ∈ s.attached →
      Step o guard s { s with
        shared := { s.shared with subscribers := s.shared.subscribers - 1 }
        attached := s.attached.erase i, clock := s.clock + 1 }
  | check (t : Nat) : s.ticks t = .idle → (t = 0 → s.worker = .ticking) →
      Step o guard s
        (if s.shared.closed = true ∨ s.shared.subscribers = 0 then s.tickDone t
         else s.tickTo t .checked)
  | build (t : Nat) : s.ticks t = .checked → Step o guard s (s.tickTo t (.building s.clock))
  | publish (t begun : Nat) (text : String) : s.ticks t = .building begun →
      Step o guard s
        (if s.shared.closed then s.tickDone t
         else { s.tickDone t with shared := { s.shared with
           latest := some ⟨text, begun⟩, generation := s.shared.generation + 1 } })
  | close : Step o guard s
      { s with shared := { s.shared with closed := true }, closes := s.closes + 1
               clock := s.clock + 1 }
  | next (i : Nat) : i ∈ s.attached →
      s.shared.closed = true ∨
        s.shared.latest.isSome = true ∧ (s.subs i).seen < s.shared.generation →
      Step o guard s (s.next i)
  /-- The loop's first wait is over. -/
  | wake : s.worker = .waiting → s.shared.closed = true ∨ 0 < s.shared.subscribers →
      Step o guard s
        (if s.shared.closed then { s with worker := .gone, clock := s.clock + 1 }
         else { s with shared := { s.shared with freshWanted := false }, worker := .ticking
                       clock := s.clock + 1 })
  /-- Its second wait is over, at the latest when the period is. -/
  | resume : s.worker = .pausing →
      Step o guard s { s with worker := if s.shared.closed then .gone else .waiting
                              clock := s.clock + 1 }

inductive Run (o : Options) (guard : State → Prop) : State → Prop
  | start : Run o guard {}
  | step {s s' : State} : Run o guard s → Step o guard s s' → Run o guard s'

/-- No build is in progress, if no stream is attached. -/
def Settled (s : State) : Prop :=
  s.shared.subscribers = 0 → ∀ t begun, s.ticks t ≠ .building begun

variable {o : Options} {guard : State → Prop} {s s' : State}

/-! ## Fresh frames -/

/-- Nothing that is built or published began before this stream was made. -/
structure Fresh (s : State) (since : Nat) : Prop where
  latest : ∀ f, s.shared.latest = some f → since ≤ f.begun
  building : ∀ t begun, s.ticks t = .building begun → since ≤ begun

structure Inv (s : State) : Prop where
  count : s.shared.subscribers = s.attached.length
  ids : ∀ i ∈ s.attached, i < s.made ∧ (s.subs i).since ≤ s.clock
  fresh : ∀ i ∈ s.attached, (s.subs i).alone = true → Fresh s (s.subs i).since
  got : ∀ i, (s.subs i).alone = true → ∀ r ∈ (s.subs i).returns, ∀ f, r.frame = some f →
    (s.subs i).since ≤ f.begun

/-- A step that neither changes the streams nor shows them an older frame. -/
theorem Inv.move (h : Inv s) (hcount : s'.shared.subscribers = s.shared.subscribers)
    (hattached : s'.attached = s.attached) (hsubs : s'.subs = s.subs) (hmade : s'.made = s.made)
    (hclock : s.clock ≤ s'.clock)
    (hfresh : ∀ since, since ≤ s.clock → Fresh s since → Fresh s' since) : Inv s' where
  count := by rw [hcount, hattached, h.count]
  ids i hi := by
    rw [hattached] at hi
    rw [hsubs, hmade]
    exact ⟨(h.ids i hi).1, Nat.le_trans (h.ids i hi).2 hclock⟩
  fresh i hi halone := by
    rw [hattached] at hi
    rw [hsubs] at halone ⊢
    exact hfresh _ (h.ids i hi).2 (h.fresh i hi halone)
  got := by
    rw [hsubs]
    exact h.got

/-- A thread moves in `tick`; if it starts a build, it does so now. -/
theorem Fresh.tickTo {since t : Nat} {p : Tick} (h : Fresh s since) (hsince : since ≤ s.clock)
    (hp : ∀ begun, p = .building begun → begun = s.clock) : Fresh (s.tickTo t p) since where
  latest := h.latest
  building := (forall_update_iff s.ticks fun _ p => ∀ begun, p = .building begun → since ≤ begun).2
    ⟨fun begun hu => hp begun hu ▸ hsince, fun u _ => h.building u⟩

theorem Inv.tickDone (h : Inv s) (t : Nat) : Inv (s.tickDone t) :=
  h.move rfl rfl rfl rfl (Nat.le_succ _) fun _ hsince hf =>
    have hmoved := hf.tickTo hsince (t := t) (p := .idle) nofun
    ⟨hmoved.latest, hmoved.building⟩

theorem Inv.subscribe (h : Inv s) (hsettled : Settled s) (timed : Bool) :
    Inv (s.subscribe timed) := by
  have hold : ∀ i ∈ s.attached, (s.subscribe timed).subs i = s.subs i := fun i hi =>
    update_of_ne (Nat.ne_of_lt (h.ids i hi).1) ..
  have hnew : (s.subscribe timed).subs s.made =
      { since := s.clock, alone := s.shared.subscribers == 0 } := update_self ..
  constructor
  case count =>
    simp only [State.subscribe, length_cons, ← h.count]
    split <;> rfl
  case ids =>
    intro i hi
    rcases mem_cons.1 hi with rfl | hi
    · exact ⟨Nat.lt_succ_self _, by rw [hnew]; exact Nat.le_succ _⟩
    · rw [hold i hi]
      exact ⟨Nat.lt_succ_of_lt (h.ids i hi).1, Nat.le_succ_of_le (h.ids i hi).2⟩
  case fresh =>
    intro i hi halone
    by_cases hzero : s.shared.subscribers = 0
    · -- the frame is dropped, and no build is under way
      refine ⟨fun f hf => ?_, fun t begun ht => absurd ht (hsettled hzero t begun)⟩
      simp only [State.subscribe, if_pos hzero] at hf
      cases hf
    · rcases mem_cons.1 hi with rfl | hi
      · rw [hnew] at halone
        exact absurd (beq_iff_eq.1 halone) hzero
      · rw [hold i hi] at halone ⊢
        obtain ⟨hlatest, hbuilding⟩ := h.fresh i hi halone
        refine ⟨fun f hf => hlatest f ?_, hbuilding⟩
        simpa only [State.subscribe, if_neg hzero] using hf
  case got =>
    intro i
    by_cases hi : i = s.made
    · rw [hi, hnew]
      exact fun _ r hr => absurd hr not_mem_nil
    · rw [show (s.subscribe timed).subs i = s.subs i from update_of_ne hi ..]
      exact h.got i

theorem Inv.next (h : Inv s) {i : Nat} (hi : i ∈ s.attached) : Inv (s.next i) := by
  -- a stream keeps what it was made with, and gets the latest frame or nothing
  have hkeep : ∀ j, ((s.next i).subs j).since = (s.subs j).since ∧
      ((s.next i).subs j).alone = (s.subs j).alone ∧
      ∀ r ∈ ((s.next i).subs j).returns, r ∈ (s.subs j).returns ∨
        j = i ∧ ∀ f, r.frame = some f → s.shared.latest = some f := by
    intro j
    by_cases hj : j = i
    · simp only [State.next, hj, update_self]
      split
      all_goals
        refine ⟨rfl, rfl, fun r hr => ?_⟩
        rcases mem_append.1 hr with hr | hr
        · exact .inl hr
        · rw [mem_singleton.1 hr]
          exact .inr ⟨trivial, by simp⟩
    · simp only [State.next, update_of_ne hj]
      exact ⟨trivial, trivial, fun r hr => .inl hr⟩
  constructor
  case count => exact h.count
  case ids =>
    intro j hj
    rw [(hkeep j).1]
    exact ⟨(h.ids j hj).1, Nat.le_succ_of_le (h.ids j hj).2⟩
  case fresh =>
    intro j hj halone
    rw [(hkeep j).2.1] at halone
    rw [(hkeep j).1]
    exact ⟨(h.fresh j hj halone).latest, (h.fresh j hj halone).building⟩
  case got =>
    intro j halone r hr f hf
    rw [(hkeep j).2.1] at halone
    rw [(hkeep j).1]
    rcases (hkeep j).2.2 r hr with hold | ⟨rfl, hlatest⟩
    · exact h.got j halone r hold f hf
    · exact (h.fresh j hi halone).latest f (hlatest f hf)

theorem Inv.step (h : Inv s) (hs : Step o Settled s s') : Inv s' := by
  cases hs with
  | subscribe _ _ hsettled => exact h.subscribe hsettled o.timed
  | unsubscribe i hi =>
    refine ⟨?_, fun j hj => ?_, fun j hj halone => ?_, h.got⟩
    · rw [h.count, length_erase_of_mem hi]
    · obtain ⟨hlt, hle⟩ := h.ids j (mem_of_mem_erase hj)
      exact ⟨hlt, Nat.le_succ_of_le hle⟩
    · obtain ⟨hlatest, hbuilding⟩ := h.fresh j (mem_of_mem_erase hj) halone
      exact ⟨hlatest, hbuilding⟩
  | check t =>
    split
    · exact h.tickDone t
    · exact h.move rfl rfl rfl rfl (Nat.le_succ _) fun _ hsince hf => hf.tickTo hsince nofun
  | build t =>
    refine h.move rfl rfl rfl rfl (Nat.le_succ _) fun _ hsince hf => hf.tickTo hsince ?_
    rintro begun ⟨⟩
    rfl
  | publish t begun text ht =>
    split
    · exact h.tickDone t
    · refine h.move rfl rfl rfl rfl (Nat.le_succ _) fun since hsince hf => ⟨?_, ?_⟩
      · rintro f ⟨⟩
        exact hf.building t begun ht
      · exact (hf.tickTo hsince (t := t) (p := .idle) nofun).building
  | close | resume =>
    exact h.move rfl rfl rfl rfl (Nat.le_succ _) fun _ _ hf => ⟨hf.latest, hf.building⟩
  | next i hi => exact h.next hi
  | wake =>
    split
    all_goals
      exact h.move rfl rfl rfl rfl (Nat.le_succ _) fun _ _ hf => ⟨hf.latest, hf.building⟩

theorem Run.inv (h : Run o Settled s) : Inv s := by
  induction h with
  | start => exact ⟨rfl, nofun, nofun, nofun⟩
  | step _ hs ih => exact ih.step hs

/-! ## Order and closing -/

/-- The generations of the frames a stream received, in order. -/
def Subscription.generations (sub : Subscription) : List UInt64 :=
  sub.returns.filterMap fun r => r.frame.map fun _ => r.generation

/-- What a stream received is in order and not newer than what it has seen; after `close` it
received nothing. -/
structure Subscription.Ordered (sub : Subscription) : Prop where
  increasing : sub.generations.Pairwise (· < ·)
  seen : ∀ g ∈ sub.generations, g ≤ sub.seen
  closed : ∀ r ∈ sub.returns, 0 < r.closes → r.frame = none

structure Orderly (s : State) : Prop where
  closed : 0 < s.closes → s.shared.closed = true
  subs : ∀ i, (s.subs i).Ordered

/-- Only `subscribe`, `next` and `close` touch what the order of the streams rests on. -/
theorem Step.cases_streams (h : Step o guard s s') :
    s' = s.subscribe o.timed ∨
    (∃ i, (s.shared.closed = true ∨ (s.subs i).seen < s.shared.generation) ∧ s' = s.next i) ∨
    s'.subs = s.subs ∧ (s'.shared.closed = true ∨
      s'.closes = s.closes ∧ s'.shared.closed = s.shared.closed) := by
  cases h with
  | subscribe => exact .inl rfl
  | next i _ hwait => exact .inr (.inl ⟨i, hwait.imp_right And.right, rfl⟩)
  | unsubscribe | build | resume => exact .inr (.inr ⟨rfl, .inr ⟨rfl, rfl⟩⟩)
  | close => exact .inr (.inr ⟨rfl, .inl rfl⟩)
  | check | publish | wake =>
    split
    all_goals exact .inr (.inr ⟨rfl, .inr ⟨rfl, rfl⟩⟩)

theorem Orderly.next (h : Orderly s) {i : Nat}
    (hwait : s.shared.closed = true ∨ (s.subs i).seen < s.shared.generation) :
    ((s.next i).subs i).Ordered := by
  obtain ⟨hincreasing, hseen, hclosed⟩ := h.subs i
  simp only [State.next, update_self]
  split
  case isTrue =>
    have hsame : ∀ r : Return, r.frame = none →
        Subscription.generations { s.subs i with returns := (s.subs i).returns ++ [r] } =
          (s.subs i).generations := by
      intro r hr
      simp [Subscription.generations, hr]
    refine ⟨by rwa [hsame _ rfl], by rwa [hsame _ rfl], fun r hr hpos => ?_⟩
    rcases mem_append.1 hr with hr | hr
    · exact hclosed r hr hpos
    · rw [mem_singleton.1 hr]
  case isFalse hopen =>
    have hnewer := hwait.resolve_left hopen
    have hadded : ∀ g ∈ (Option.map (fun _ => s.shared.generation) s.shared.latest).toList,
        g = s.shared.generation := by
      intro g hg
      obtain ⟨_, _, rfl⟩ := Option.map_eq_some_iff.1 (Option.mem_toList.1 hg)
      rfl
    have hgens : Subscription.generations { s.subs i with
        seen := s.shared.generation
        returns := (s.subs i).returns ++ [⟨s.shared.latest, s.shared.generation, s.closes⟩] } =
          (s.subs i).generations ++
            (Option.map (fun _ => s.shared.generation) s.shared.latest).toList := by
      cases hl : s.shared.latest <;> simp [Subscription.generations]
    have hlt : ∀ g ∈ (s.subs i).generations, g < s.shared.generation := fun g hg =>
      UInt64.lt_of_le_of_lt (hseen g hg) hnewer
    refine ⟨?_, fun g hg => ?_, fun r hr hpos => ?_⟩
    · rw [hgens, pairwise_append]
      refine ⟨hincreasing, ?_, fun a ha b hb => ?_⟩
      · cases s.shared.latest <;> simp
      · rw [hadded b hb]
        exact hlt a ha
    · rw [hgens] at hg
      rcases mem_append.1 hg with hg | hg
      · exact UInt64.le_of_lt (hlt g hg)
      · exact hadded g hg ▸ UInt64.le_refl _
    · rcases mem_append.1 hr with hr | hr
      · exact hclosed r hr hpos
      · rw [mem_singleton.1 hr] at hpos
        exact absurd (h.closed hpos) hopen

theorem Orderly.step (h : Orderly s) (hs : Step o guard s s') : Orderly s' := by
  rcases hs.cases_streams with rfl | ⟨i, hwait, rfl⟩ | ⟨hsubs, hclosed⟩
  · constructor
    · intro hpos
      have hwas := h.closed hpos
      simp only [State.subscribe]
      split <;> exact hwas
    · intro j
      by_cases hj : j = s.made
      · rw [hj, show (s.subscribe o.timed).subs s.made = _ from update_self ..]
        exact ⟨.nil, nofun, nofun⟩
      · rw [show (s.subscribe o.timed).subs j = s.subs j from update_of_ne hj ..]
        exact h.subs j
  · refine ⟨h.closed, fun j => ?_⟩
    by_cases hj : j = i
    · rw [hj]
      exact h.next hwait
    · rw [show (s.next i).subs j = s.subs j from update_of_ne hj ..]
      exact h.subs j
  · refine ⟨fun hpos => hclosed.elim id fun hsame => ?_, hsubs ▸ h.subs⟩
    rw [hsame.2]
    exact h.closed (hsame.1 ▸ hpos)

theorem Run.orderly (h : Run o guard s) : Orderly s := by
  induction h with
  | start => exact ⟨nofun, fun _ => ⟨.nil, nofun, nofun⟩⟩
  | step _ hs ih => exact ih.step hs

/-- If no build is in progress whenever a stream subscribes alone, such a stream receives no
frame whose build began before. In every run the frames of a stream have increasing
generations, and a `next` that returns after `close` returns null. -/
theorem stream_frames (o : Options) :
    (∀ s, Run o Settled s → ∀ i, (s.subs i).alone = true → ∀ r ∈ (s.subs i).returns, ∀ f,
      r.frame = some f → (s.subs i).since ≤ f.begun) ∧
    ∀ guard s, Run o guard s → ∀ i, (s.subs i).generations.Pairwise (· < ·) ∧
      ∀ r ∈ (s.subs i).returns, 0 < r.closes → r.frame = none :=
  ⟨fun _ h => h.inv.got, fun _ _ h i =>
    ⟨(h.orderly.subs i).increasing, (h.orderly.subs i).closed⟩⟩

/-- The timed loop serves a first stream, whose frame was begun after it subscribed. -/
theorem stream_frames_first : ∃ s, Run {} Settled s ∧ ∃ f,
    (s.subs 0).alone = true ∧ (s.subs 0).returns = [⟨some f, 1, 0⟩] ∧
      (s.subs 0).since ≤ f.begun ∧ (s.subs 0).generations.Pairwise (· < ·) := by
  have made : Run {} Settled _ := .step .start (.subscribe rfl (by decide) fun _ _ _ => nofun)
  have woken := made.step (.wake rfl (.inr (by decide)))
  have checked := woken.step (.check 0 rfl fun _ => rfl)
  have begun := checked.step (.build 0 rfl)
  have built := begun.step (.publish 0 3 "" rfl)
  have served := built.step (.next 0 (by decide) (.inr (by decide)))
  exact ⟨_, served, ⟨"", 3⟩, rfl, rfl,
    (stream_frames {}).1 _ served 0 rfl _ (mem_singleton.2 rfl) ⟨"", 3⟩ rfl,
    ((stream_frames {}).2 _ _ served 0).1⟩

/-- A build outlives its stream; the next stream to attach gets its frame. -/
theorem stale_first_frame : ∃ s, Run {} (fun _ => True) s ∧ ∃ i f,
    (s.subs i).alone = true ∧ (∃ r ∈ (s.subs i).returns, r.frame = some f) ∧
      f.begun < (s.subs i).since := by
  have made : Run {} (fun _ => True) _ := .step .start (.subscribe rfl (by decide) trivial)
  have woken := made.step (.wake rfl (.inr (by decide)))
  have checked := woken.step (.check 0 rfl fun _ => rfl)
  have begun := checked.step (.build 0 rfl)
  have left := begun.step (.unsubscribe 0 (by decide))
  have again := left.step (.subscribe rfl (by decide) trivial)
  have built := again.step (.publish 0 3 "" rfl)
  have served := built.step (.next 1 (by decide) (.inr (by decide)))
  exact ⟨_, served, 1, ⟨"", 3⟩, rfl, ⟨_, mem_singleton.2 rfl, rfl⟩, by decide⟩

end Satellite.Events
