import Satellite.Model.Cold
import Satellite.Pointer.Mpsc
import Satellite.Pointer.Worker

/-!
# Releases and frames on their way to the pointer worker

Frames reach the worker through a ring the receive thread fills; Releases and Retries
through `MpscQueue` of `core/mpsc_queue.h`, where a producer claims a position and
publishes its item in two steps. Releases are posted under the topology mutex, before
the stamp they were posted with is published; a Retry is posted by the maintenance
thread, outside that mutex.

A frame is processed after a drain of the queue. The drain stops at the first position
that is claimed and not yet published, and everything behind that position waits.
-/

namespace Satellite.Pointer

open Function MpscQueue List

def pointerFrameCapacity : Nat := 256
def pointerCommandCapacity : Nat := 256

/-! ## The threads -/

/-- A Release being posted: drawn, then claimed at a position. -/
structure Posting where
  serial : Serial
  stamp : Nat
  pos : Option Nat := none

/-- The maintenance thread between reading `retryPending` and the end of its post. -/
inductive Maintenance
  | idle
  | wants
  | claimed (pos : Nat)
  deriving DecidableEq

/-- The worker inside `run`: before the next `frames_.pop`, in `drainCommands` with the
frame it holds if any, or about to process that frame. -/
inductive Hand
  | between
  | draining (frame : Option PointerFrame)
  | ready (frame : PointerFrame)

def Hand.frame : Hand → Option PointerFrame
  | .between => none
  | .draining frame => frame
  | .ready frame => some frame

structure PointerSystem where
  /-- The topology mutex is held. -/
  locked : Bool := false
  nextPointerStamp : Nat := 0
  /-- The number of stamps drawn. -/
  drawn : Nat := 0
  /-- The serial and pointer stamp of each plugged pad, under the mutex. -/
  pads : Nat → Option (Serial × Nat) := fun _ => none
  posting : Option Posting := none
  /-- The same as the receive thread finds it published. -/
  table : Nat → Option (Serial × Nat) := fun _ => none
  /-- The frame the receive thread has read a pad for and not pushed yet. -/
  rx : Option PointerFrame := none
  frames : List PointerFrame := []
  commands : MpscQueue PointerCommand := {}
  maintenance : Maintenance := .idle
  hand : Hand := .between
  worker : Worker := {}
  /-- The frames processed so far. -/
  processed : List PointerFrame := []

inductive Move
  | lock
  | unlock
  /-- A pad is plugged, or plugged again, with a serial: `resetControllerStreamState`. -/
  | plug (pad : Nat) (serial : Serial)
  /-- `releasePointerLocked` up to its post. -/
  | release (pad : Nat)
  | claimRelease
  | publishRelease
  /-- The pad is gone from the records. -/
  | vacate (pad : Nat)
  /-- The pad's words are published as the records have them. -/
  | expose (pad : Nat)
  | readPad (pad slot row : Nat) (report : TouchpadReport)
  | pushFrame
  | seeRetryPending
  | claimRetry
  | publishRetry
  | popFrame
  | drainOne (a : Answer)
  | drainEnd
  | process (a : Answer)

def Move.endsDrain : Move → Bool
  | .drainEnd => true
  | _ => false

namespace PointerSystem

/-- `takePointerStampLocked`. -/
def takeStamp (s : PointerSystem) : PointerSystem :=
  { s with nextPointerStamp := Cold.nextStamp s.nextPointerStamp, drawn := s.drawn + 1 }

/-- The mutex is held and no post is under way, so its holder may go on. -/
def Holds (s : PointerSystem) : Prop := s.locked = true ∧ s.posting.isNone = true

instance (s : PointerSystem) : Decidable s.Holds := inferInstanceAs (Decidable (_ ∧ _))

def step (s : PointerSystem) : Move → Option PointerSystem
  | .lock => if s.locked then none else some { s with locked := true }
  | .unlock => if s.Holds then some { s with locked := false } else none
  | .plug pad serial =>
    if s.Holds then
      let s := s.takeStamp
      some { s with pads := update s.pads pad (some (serial, s.nextPointerStamp)) }
    else none
  | .release pad =>
    match s.pads pad with
    | some (serial, _) =>
      -- the cell of serial 0 belongs to no pad
      if s.Holds ∧ serial ≠ 0 then
        let s := s.takeStamp
        some { s with
          pads := update s.pads pad (some (serial, s.nextPointerStamp))
          posting := some ⟨serial, s.nextPointerStamp, none⟩ }
      else none
    | none => none
  | .claimRelease =>
    match s.posting, s.commands.claim pointerCommandCapacity with
    | some ⟨serial, stamp, none⟩, some (pos, q) =>
      some { s with posting := some ⟨serial, stamp, some pos⟩, commands := q }
    | _, _ => none
  | .publishRelease =>
    match s.posting with
    | some ⟨serial, stamp, some pos⟩ =>
      some { s with posting := none, commands := s.commands.publish pos (.release serial stamp) }
    | _ => none
  | .vacate pad =>
    if s.Holds then some { s with pads := update s.pads pad none } else none
  | .expose pad =>
    if s.Holds then some { s with table := update s.table pad (s.pads pad) } else none
  | .readPad pad slot row report =>
    match s.rx, s.table pad with
    | none, some (serial, stamp) => some { s with rx := some ⟨serial, stamp, slot, row, report⟩ }
    | _, _ => none
  | .pushFrame =>
    match s.rx with
    | some f =>
      -- a full ring drops the frame
      some { s with
        rx := none
        frames := if s.frames.length < pointerFrameCapacity then s.frames ++ [f] else s.frames }
    | none => none
  | .seeRetryPending =>
    if s.maintenance = .idle ∧ s.worker.retryPending = true then
      some { s with maintenance := .wants }
    else none
  | .claimRetry =>
    match s.maintenance, s.commands.claim pointerCommandCapacity with
    | .wants, some (pos, q) => some { s with maintenance := .claimed pos, commands := q }
    | _, _ => none
  | .publishRetry =>
    match s.maintenance with
    | .claimed pos => some { s with maintenance := .idle, commands := s.commands.publish pos .retry }
    | _ => none
  | .popFrame =>
    match s.hand with
    | .between => some { s with hand := .draining s.frames.head?, frames := s.frames.tail }
    | _ => none
  | .drainOne a =>
    match s.hand, s.commands.pop with
    | .draining _, some (c, q) => some { s with worker := s.worker.apply c a, commands := q }
    | _, _ => none
  | .drainEnd =>
    match s.hand, s.commands.pop with
    | .draining none, none => some { s with hand := .between }
    | .draining (some f), none => some { s with hand := .ready f }
    | _, _ => none
  | .process a =>
    match s.hand with
    | .ready f =>
      some { s with
        worker := s.worker.process f a, processed := s.processed ++ [f], hand := .between }
    | _ => none

/-- The states reached by moves each of which meets a condition where it is made. -/
inductive Reaches (allowed : PointerSystem → Move → Prop) : PointerSystem → Prop
  | start : Reaches allowed {}
  | move {s s' : PointerSystem} {m : Move} (h : Reaches allowed s) (hm : allowed s m)
      (hs : s.step m = some s') : Reaches allowed s'

/-- A list of moves, each made where it is allowed. -/
def perform (allowed : PointerSystem → Move → Prop) [∀ s m, Decidable (allowed s m)]
    (s : PointerSystem) : List Move → Option PointerSystem
  | [] => some s
  | m :: moves =>
    if allowed s m then
      match s.step m with
      | some s' => perform allowed s' moves
      | none => none
    else none

theorem Reaches.perform {allowed : PointerSystem → Move → Prop} [∀ s m, Decidable (allowed s m)]
    {s s' : PointerSystem} {moves : List Move} (h : Reaches allowed s)
    (hp : s.perform allowed moves = some s') : Reaches allowed s' := by
  induction moves generalizing s with
  | nil =>
    cases hp
    exact h
  | cons m moves ih =>
    rw [PointerSystem.perform] at hp
    split at hp
    next hm =>
      split at hp
      next t hs => exact ih (h.move hm hs) hp
      · cases hp
    · cases hp

/-! ## What the threads keep -/

/-- A frame somewhere between the read of its pad and the end of its processing. -/
def Carried (s : PointerSystem) (f : PointerFrame) : Prop :=
  s.rx = some f ∨ f ∈ s.frames ∨ s.hand.frame = some f ∨ f ∈ s.processed

/-- A stamp outside the mutex: published, or carried by a frame. -/
def Seen (s : PointerSystem) (stamp : Nat) : Prop :=
  (∃ pad serial, s.table pad = some (serial, stamp)) ∨ ∃ f, s.Carried f ∧ f.stamp = stamp

/-- A frame the worker will not drain for any more. -/
def Past (s : PointerSystem) (f : PointerFrame) : Prop := s.hand = .ready f ∨ f ∈ s.processed

structure Inv (s : PointerSystem) : Prop where
  counter : s.nextPointerStamp = s.drawn
  pads : ∀ pad serial stamp, s.pads pad = some (serial, stamp) → stamp ≤ s.nextPointerStamp
  seen : ∀ stamp, s.Seen stamp → stamp ≤ s.nextPointerStamp
  /-- While a Release is posted its stamp is the newest and nobody has seen it. -/
  posting : ∀ p, s.posting = some p →
    p.stamp = s.nextPointerStamp ∧ 0 < p.stamp ∧ ∀ stamp, s.Seen stamp → stamp < p.stamp
  /-- A position claimed and not published belongs to one of the two producers. -/
  holes : ∀ pos, s.commands.Hole pos →
    (∃ p, s.posting = some p ∧ p.pos = some pos) ∨ s.maintenance = .claimed pos
  /-- No Release waits behind the one that is being posted. -/
  last : ∀ p pos, s.posting = some p → p.pos = some pos →
    ∀ later serial stamp, s.commands.Waits later (.release serial stamp) → later < pos
  positive : ∀ pos serial stamp, s.commands.Waits pos (.release serial stamp) → 0 < stamp
  /-- A Release that still waits is newer than every frame of its serial that is past. -/
  past : ∀ f, s.Past f → ∀ pos stamp, s.commands.Waits pos (.release f.serial stamp) →
    f.stamp < stamp
  worn : ∀ serial, (s.worker.pads serial).stamp = 0 ∨
    ∃ f ∈ s.processed, f.serial = serial ∧ f.stamp = (s.worker.pads serial).stamp

variable {s s' : PointerSystem}

section
variable {f : PointerFrame}

theorem seen_rx (h : s.rx = some f) : s.Seen f.stamp := .inr ⟨f, .inl h, rfl⟩

theorem seen_frames (h : f ∈ s.frames) : s.Seen f.stamp := .inr ⟨f, .inr (.inl h), rfl⟩

theorem seen_hand (h : s.hand.frame = some f) : s.Seen f.stamp :=
  .inr ⟨f, .inr (.inr (.inl h)), rfl⟩

theorem Past.seen (h : s.Past f) : s.Seen f.stamp := by
  rcases h with h | h
  · exact seen_hand (by rw [h]; rfl)
  · exact .inr ⟨f, .inr (.inr (.inr h)), rfl⟩

end

theorem Holds.posting (h : s.Holds) : s.posting = none := Option.isNone_iff_eq_none.1 h.2

theorem nextStamp_eq {n : Nat} (h : n + 1 < 2 ^ 32) : Cold.nextStamp n = n + 1 := by
  rw [Cold.nextStamp, Nat.mod_eq_of_lt h, if_neg (Nat.succ_ne_zero n)]

/-- Frames move on towards the worker: nothing new is seen, and a frame that becomes ready
has no Release waiting. -/
theorem Inv.moved (h : s.Inv) {rx : Option PointerFrame} {frames : List PointerFrame} {hand : Hand}
    (hrx : ∀ f, rx = some f → s.Seen f.stamp) (hframes : ∀ f ∈ frames, s.Seen f.stamp)
    (hhand : ∀ f, hand.frame = some f → s.Seen f.stamp)
    (hready : ∀ f, hand = .ready f → ∀ pos stamp,
      s.commands.Waits pos (.release f.serial stamp) → f.stamp < stamp) :
    Inv { s with rx := rx, frames := frames, hand := hand } := by
  have hseen : ∀ stamp, Seen { s with rx := rx, frames := frames, hand := hand } stamp →
      s.Seen stamp := by
    rintro stamp (ht | ⟨f, hf | hf | hf | hf, rfl⟩)
    · exact .inl ht
    · exact hrx f hf
    · exact hframes f hf
    · exact hhand f hf
    · exact Past.seen (.inr hf)
  exact { h with
    seen stamp hs := h.seen stamp (hseen stamp hs)
    posting p hp := by
      obtain ⟨heq, hpos, hlt⟩ := h.posting p hp
      exact ⟨heq, hpos, fun stamp hs => hlt stamp (hseen stamp hs)⟩
    past f hf := by
      rcases hf with hf | hf
      · exact hready f hf
      · exact h.past f (.inr hf) }

/-- A stamp is drawn for a pad; a Release may be about to be posted with it. -/
theorem Inv.stamped (h : s.Inv) (hholds : s.Holds) (hdrawn : s.drawn + 1 < 2 ^ 32)
    {pad : Nat} {serial : Serial} {posting : Option Posting}
    (hposting : ∀ p, posting = some p → p.stamp = s.takeStamp.nextPointerStamp ∧ p.pos = none) :
    Inv { s.takeStamp with
      pads := update s.pads pad (some (serial, s.takeStamp.nextPointerStamp))
      posting := posting } := by
  have hnext : s.takeStamp.nextPointerStamp = s.nextPointerStamp + 1 := by
    show Cold.nextStamp s.nextPointerStamp = _
    rw [h.counter]
    exact nextStamp_eq hdrawn
  exact { h with
    counter := by
      show s.takeStamp.nextPointerStamp = s.drawn + 1
      rw [hnext, h.counter]
    pads := by
      intro other serial' stamp hp
      show stamp ≤ s.takeStamp.nextPointerStamp
      change update s.pads pad _ other = _ at hp
      by_cases ho : other = pad
      · subst ho
        rw [update_self] at hp
        cases hp
        exact le_rfl
      · rw [update_of_ne ho] at hp
        have := h.pads other serial' stamp hp
        omega
    seen := fun stamp hs => by
      have := h.seen stamp hs
      show stamp ≤ s.takeStamp.nextPointerStamp
      omega
    posting := fun p hp => by
      obtain ⟨heq, -⟩ := hposting p hp
      refine ⟨heq, by omega, fun stamp hs => ?_⟩
      have := h.seen stamp hs
      omega
    holes := fun pos hh => by
      rcases h.holes pos hh with ⟨p, hp, -⟩ | hm
      · rw [hholds.posting] at hp
        cases hp
      · exact .inr hm
    last := fun p pos hp hpos => by
      rw [(hposting p hp).2] at hpos
      cases hpos }

/-- The queue moves on: no item appears, and a new hole has its producer. -/
theorem Inv.queued (h : s.Inv) {q : MpscQueue PointerCommand} {posting : Option Posting}
    {maintenance : Maintenance}
    (hwaits : ∀ pos serial stamp, q.Waits pos (.release serial stamp) →
      s.commands.Waits pos (.release serial stamp))
    (hposting : ∀ p, posting = some p → ∃ p', s.posting = some p' ∧ p'.stamp = p.stamp)
    (hholes : ∀ pos, q.Hole pos →
      (∃ p, posting = some p ∧ p.pos = some pos) ∨ maintenance = .claimed pos)
    (hlast : ∀ p pos, posting = some p → p.pos = some pos →
      ∀ later serial stamp, s.commands.Waits later (.release serial stamp) → later < pos) :
    Inv { s with commands := q, posting := posting, maintenance := maintenance } :=
  { h with
    posting p hp := by
      obtain ⟨p', hp', hstamp⟩ := hposting p hp
      rw [← hstamp]
      exact h.posting p' hp'
    holes := hholes
    last p pos hp hpos later serial stamp hw := hlast p pos hp hpos later serial stamp (hwaits _ _ _ hw)
    positive pos serial stamp hw := h.positive pos serial stamp (hwaits _ _ _ hw)
    past f hf pos stamp hw := h.past f hf pos stamp (hwaits _ _ _ hw) }

theorem Inv.claimRelease (h : s.Inv) (hs : s.step .claimRelease = some s') : s'.Inv := by
  simp only [step] at hs
  split at hs
  next serial stamp pos q hp hc =>
    cases hs
    obtain ⟨rfl, rfl⟩ := claim_eq hc
    apply h.queued
    · intro pos serial' stamp' hw
      exact waits_of_claim hw
    · rintro p ⟨⟩
      exact ⟨_, hp, rfl⟩
    · intro pos hh
      rcases hole_of_claim hh with hh | rfl
      · -- the hole was there before, when this producer had none
        rcases h.holes pos hh with ⟨p, hp', hpos⟩ | hm
        · rw [hp] at hp'
          cases hp'
          cases hpos
        · exact .inr hm
      · exact .inl ⟨_, rfl, rfl⟩
    · rintro p pos ⟨⟩ ⟨⟩ later serial' stamp' hw
      exact (List.getElem?_eq_some_iff.1 hw.2).1
  · cases hs

theorem Inv.publishRelease (h : s.Inv) (hs : s.step .publishRelease = some s') : s'.Inv := by
  simp only [step] at hs
  split at hs
  next serial stamp pos hp =>
    cases hs
    obtain ⟨heq, hpos, hlt⟩ := h.posting _ hp
    exact { h with
      posting := nofun
      holes := fun p hh => by
        obtain ⟨hh, hne⟩ := hole_of_publish hh
        rcases h.holes p hh with ⟨p', hp', hpos'⟩ | hm
        · rw [hp] at hp'
          cases hp'
          exact absurd (Option.some.inj hpos').symm hne
        · exact .inr hm
      last := nofun
      positive := fun p serial' stamp' hw => by
        rcases waits_of_publish hw with hw | ⟨-, heq⟩
        · exact h.positive p serial' stamp' hw
        · cases heq
          exact hpos
      past := fun f hf p stamp' hw => by
        rcases waits_of_publish hw with hw | ⟨-, heq⟩
        · exact h.past f hf p stamp' hw
        · cases heq
          exact hlt f.stamp (Past.seen hf) }
  · cases hs

theorem Inv.expose (h : s.Inv) {pad : Nat} (hs : s.step (.expose pad) = some s') : s'.Inv := by
  simp only [step] at hs
  split at hs
  next hholds =>
    cases hs
    have hseen : ∀ stamp, Seen { s with table := update s.table pad (s.pads pad) } stamp →
        stamp ≤ s.nextPointerStamp := by
      rintro stamp (⟨other, serial, ht⟩ | hf)
      · change update s.table pad (s.pads pad) other = _ at ht
        by_cases ho : other = pad
        · subst ho
          rw [update_self] at ht
          exact h.pads other serial stamp ht
        · rw [update_of_ne ho] at ht
          exact h.seen stamp (.inl ⟨other, serial, ht⟩)
      · exact h.seen stamp (.inr hf)
    exact { h with
      seen := hseen
      posting := fun p hp => by
        rw [hholds.posting] at hp
        cases hp }
  · cases hs

theorem Inv.claimRetry (h : s.Inv) (hs : s.step .claimRetry = some s') : s'.Inv := by
  simp only [step] at hs
  split at hs
  next pos q hm hc =>
    cases hs
    obtain ⟨rfl, rfl⟩ := claim_eq hc
    apply h.queued
    · intro pos serial stamp hw
      exact waits_of_claim hw
    · intro p hp
      exact ⟨p, hp, rfl⟩
    · intro pos hh
      rcases hole_of_claim hh with hh | rfl
      · rcases h.holes pos hh with hp | hm'
        · exact .inl hp
        · rw [hm] at hm'
          cases hm'
      · exact .inr rfl
    · exact h.last
  · cases hs

theorem Inv.publishRetry (h : s.Inv) (hs : s.step .publishRetry = some s') : s'.Inv := by
  simp only [step] at hs
  split at hs
  next pos hm =>
    cases hs
    apply h.queued
    · intro p serial stamp hw
      rcases waits_of_publish hw with hw | ⟨-, heq⟩
      · exact hw
      · cases heq
    · intro p hp
      exact ⟨p, hp, rfl⟩
    · intro p hh
      obtain ⟨hh, hne⟩ := hole_of_publish hh
      rcases h.holes p hh with hp | hm'
      · exact .inl hp
      · rw [hm] at hm'
        cases hm'
        exact absurd rfl hne
    · exact h.last
  · cases hs

theorem Inv.drainOne (h : s.Inv) {a : Answer} (hs : s.step (.drainOne a) = some s') : s'.Inv := by
  simp only [step] at hs
  split at hs
  next f c q hhand hpop =>
    cases hs
    obtain ⟨-, rfl⟩ := pop_eq hpop
    have hq : Inv { s with commands := { s.commands with dequeuePos := s.commands.dequeuePos + 1 } } :=
      h.queued (fun _ _ _ hw => waits_of_pop hw) (fun p hp => ⟨p, hp, rfl⟩)
        (fun pos hh => h.holes pos (hole_of_pop hh)) h.last
    exact { hq with
      worn := fun serial => by
        rw [Worker.apply_stamp]
        exact h.worn serial }
  · cases hs

/-- The drain before a frame is not stopped by a Retry that is claimed and not published. -/
def Unblocked (s : PointerSystem) (m : Move) : Prop :=
  m.endsDrain = true → s.hand.frame.isSome = true → s.maintenance ≠ .claimed s.commands.dequeuePos

instance (s : PointerSystem) (m : Move) : Decidable (s.Unblocked m) :=
  inferInstanceAs (Decidable (_ → _ → _))

/-- A drain that ends, unless a Retry stopped it, has left no Release behind: the only other
hole is the Release being posted, and no Release waits behind that one. -/
theorem Inv.drained (h : s.Inv) (hpop : s.commands.pop = none)
    (hm : s.maintenance ≠ .claimed s.commands.dequeuePos) (pos : Nat) (serial : Serial)
    (stamp : Nat) : ¬ s.commands.Waits pos (.release serial stamp) := by
  intro hw
  rcases pop_none hpop with hlen | hhole
  · have := (List.getElem?_eq_some_iff.1 hw.2).1
    have := hw.1
    omega
  · rcases h.holes _ hhole with ⟨p, hp, hpos⟩ | hm'
    · have := h.last p _ hp hpos pos serial stamp hw
      have := hw.1
      omega
    · exact hm hm'

theorem Inv.drainEnd (h : s.Inv) (hu : s.Unblocked .drainEnd) (hs : s.step .drainEnd = some s') :
    s'.Inv := by
  simp only [step] at hs
  split at hs
  next hhand hpop =>
    cases hs
    exact h.moved (fun _ => seen_rx) (fun _ => seen_frames) nofun nofun
  next f hhand hpop =>
    cases hs
    have hheld : s.hand.frame = some f := by
      rw [hhand]
      rfl
    have hm := hu rfl (by rw [hheld]; rfl)
    refine h.moved (fun _ => seen_rx) (fun _ => seen_frames)
      (fun g hg => seen_hand (hheld.trans hg)) fun g _ pos stamp hw => ?_
    exact absurd hw (h.drained hpop hm pos g.serial stamp)
  · cases hs

theorem Inv.readPad (h : s.Inv) {pad slot row : Nat} {report : TouchpadReport}
    (hs : s.step (.readPad pad slot row report) = some s') : s'.Inv := by
  simp only [step] at hs
  split at hs
  next serial stamp hrx ht =>
    cases hs
    refine h.moved ?_ (fun _ => seen_frames) (fun _ => seen_hand) fun f hf => h.past f (.inl hf)
    rintro f ⟨⟩
    exact .inl ⟨pad, serial, ht⟩
  · cases hs

theorem Inv.pushFrame (h : s.Inv) (hs : s.step .pushFrame = some s') : s'.Inv := by
  simp only [step] at hs
  split at hs
  next f hrx =>
    cases hs
    refine h.moved nofun (fun g hg => ?_) (fun _ => seen_hand) fun f hf => h.past f (.inl hf)
    split at hg
    · rcases mem_append.1 hg with hg | hg
      · exact seen_frames hg
      · rw [mem_singleton.1 hg]
        exact seen_rx hrx
    · exact seen_frames hg
  · cases hs

theorem Inv.popFrame (h : s.Inv) (hs : s.step .popFrame = some s') : s'.Inv := by
  simp only [step] at hs
  split at hs
  next hhand =>
    cases hs
    exact h.moved (fun _ => seen_rx) (fun _ hg => seen_frames (mem_of_mem_tail hg))
      (fun _ hg => seen_frames (mem_of_mem_head? hg)) nofun
  · cases hs

theorem Inv.process (h : s.Inv) {a : Answer} (hs : s.step (.process a) = some s') : s'.Inv := by
  simp only [step] at hs
  split at hs
  next f hhand =>
    cases hs
    have hpast : ∀ g, g ∈ s.processed ++ [f] → s.Past g := by
      intro g hg
      rcases mem_append.1 hg with hg | hg
      · exact .inr hg
      · rw [mem_singleton.1 hg]
        exact .inl hhand
    have hseen : ∀ stamp, Seen { s with
        worker := s.worker.process f a, processed := s.processed ++ [f], hand := .between } stamp →
        s.Seen stamp := by
      rintro stamp (ht | ⟨g, hg | hg | hg | hg, rfl⟩)
      · exact .inl ht
      · exact seen_rx hg
      · exact seen_frames hg
      · cases hg
      · exact (hpast g hg).seen
    exact { h with
      seen := fun stamp hs => h.seen stamp (hseen stamp hs)
      posting := fun p hp =>
        ⟨(h.posting p hp).1, (h.posting p hp).2.1,
          fun stamp hs => (h.posting p hp).2.2 stamp (hseen stamp hs)⟩
      past := fun g hg => by
        rcases hg with hg | hg
        · cases hg
        · exact h.past g (hpast g hg)
      worn := fun serial => by
        rcases s.worker.process_stamp f a serial with heq | ⟨hserial, heq⟩
        · rcases h.worn serial with hz | ⟨g, hg, hs⟩
          · exact .inl (heq.trans hz)
          · exact .inr ⟨g, mem_append_left _ hg, hs.1, hs.2.trans heq.symm⟩
        · exact .inr ⟨f, mem_append_right _ (mem_singleton.2 rfl), hserial, heq.symm⟩ }
  · cases hs

theorem step_inv (h : s.Inv) {m : Move} (hu : s.Unblocked m) (hs : s.step m = some s')
    (hdrawn : s'.drawn < 2 ^ 32) : s'.Inv := by
  cases m with
  | lock | unlock =>
    simp only [step] at hs
    split at hs <;> cases hs
    exact { h with }
  | plug pad serial =>
    simp only [step] at hs
    split at hs
    next hholds =>
      cases hs
      exact h.stamped hholds hdrawn fun p hp => nomatch hholds.posting.symm.trans hp
    · cases hs
  | release pad =>
    simp only [step] at hs
    split at hs
    · split at hs
      next hholds =>
        cases hs
        exact h.stamped hholds.1 hdrawn fun p hp => by cases hp; exact ⟨rfl, rfl⟩
      · cases hs
    · cases hs
  | claimRelease => exact h.claimRelease hs
  | publishRelease => exact h.publishRelease hs
  | vacate pad =>
    simp only [step] at hs
    split at hs <;> cases hs
    exact { h with
      pads := (forall_update_iff s.pads fun _ p => ∀ serial stamp, p = some (serial, stamp) →
        stamp ≤ s.nextPointerStamp).2 ⟨nofun, fun other _ => h.pads other⟩ }
  | expose pad => exact h.expose hs
  | readPad pad slot row report => exact h.readPad hs
  | pushFrame => exact h.pushFrame hs
  | seeRetryPending =>
    simp only [step] at hs
    split at hs
    next hidle =>
      cases hs
      exact { h with
        holes := fun pos hh => by
          rcases h.holes pos hh with hp | hm
          · exact .inl hp
          · rw [hidle.1] at hm
            cases hm }
    · cases hs
  | claimRetry => exact h.claimRetry hs
  | publishRetry => exact h.publishRetry hs
  | popFrame => exact h.popFrame hs
  | drainOne a => exact h.drainOne hs
  | drainEnd => exact h.drainEnd hu hs
  | process a => exact h.process hs

/-- No move forgets a stamp that was drawn. -/
theorem drawn_le {m : Move} (hs : s.step m = some s') : s.drawn ≤ s'.drawn := by
  cases m <;> simp only [step] at hs <;> repeat' split at hs
  all_goals first
    | cases hs <;> first | exact le_rfl | exact Nat.le_succ _

theorem inv_start : Inv {} where
  counter := rfl
  pads := nofun
  seen := by
    rintro stamp (⟨pad, serial, h⟩ | ⟨f, h | h | h | h, -⟩) <;> cases h
  posting := nofun
  holes pos h := by simp [Hole] at h
  last := nofun
  positive pos serial stamp h := by simp [Waits] at h
  past f h pos stamp hw := by simp [Waits] at hw
  worn serial := .inl rfl

theorem reaches_inv (h : Reaches Unblocked s) (hdrawn : s.drawn < 2 ^ 32) : s.Inv := by
  induction h with
  | start => exact inv_start
  | move _ hm hs ih => exact step_inv (ih ((drawn_le hs).trans_lt hdrawn)) hm hs hdrawn

end PointerSystem

open PointerSystem

/-- While no drain before a frame is stopped by a half-posted Retry, the Release the worker
takes next is newer than every frame of its serial processed so far, and so than the frame
whose buttons it clears. -/
theorem release_before_frames {s : PointerSystem} (h : Reaches Unblocked s)
    (hdrawn : s.drawn < 2 ^ 32) {serial : Serial} {stamp : Nat} {q : MpscQueue PointerCommand}
    (hpop : s.commands.pop = some (.release serial stamp, q)) :
    (∀ f ∈ s.processed, f.serial = serial → f.stamp < stamp) ∧
      (s.worker.pads serial).stamp < stamp := by
  have hinv := reaches_inv h hdrawn
  obtain ⟨hw, -⟩ := pop_eq hpop
  have hprocessed : ∀ f ∈ s.processed, f.serial = serial → f.stamp < stamp := by
    rintro f hf rfl
    exact hinv.past f (.inr hf) _ stamp hw
  refine ⟨hprocessed, ?_⟩
  rcases hinv.worn serial with hzero | ⟨f, hf, hserial, hstamp⟩
  · rw [hzero]
    exact hinv.positive _ serial stamp hw
  · rw [← hstamp]
    exact hprocessed f hf hserial

/-- A report with the left button pressed. -/
def pressed : TouchpadReport := { buttonPressed := true }

/-- A pad is plugged and its first frame is processed; the host's answer is given. -/
def firstFrame (submitted : Bool) : List Move :=
  [.lock, .plug 0 1, .expose 0, .unlock, .readPad 0 0 1 pressed, .pushFrame, .popFrame, .drainEnd,
    .process { submitted := submitted }]

theorem release_before_frames_applies :
    ∃ (s : PointerSystem) (q : MpscQueue PointerCommand),
      s.commands.pop = some (.release 1 2, q) ∧ s.processed.length = 1 ∧
      (∀ f ∈ s.processed, f.serial = 1 → f.stamp < 2) ∧ (s.worker.pads 1).stamp < 2 := by
  let moves := firstFrame true ++ [.lock, .release 0, .claimRelease, .publishRelease]
  have hsome : (perform Unblocked {} moves).isSome = true := by decide +kernel
  let s := (perform Unblocked {} moves).get hsome
  have hs : Reaches Unblocked s := Reaches.start.perform (Option.some_get hsome).symm
  have hpop : s.commands.pop = some (.release 1 2, ⟨[some (.release 1 2)], 1⟩) := by rfl
  have hdrawn : s.drawn = 2 := by rfl
  exact ⟨s, _, hpop, by rfl, release_before_frames hs (by rw [hdrawn]; decide) hpop⟩

/-- The maintenance thread stops between its claim and its publish, and the Release of a
re-PUT lands behind its position: the frame read under the new stamp is processed first,
and the Release then lifts the button that frame has pressed. -/
theorem release_lifts_newer_button :
    let moves := firstFrame false ++
      [.popFrame, .seeRetryPending, .claimRetry,
        .drainEnd, .lock, .release 0, .claimRelease, .publishRelease, .expose 0, .unlock,
        .readPad 0 0 1 pressed, .pushFrame, .popFrame, .drainEnd, .process { submitted := true },
        .publishRetry, .popFrame, .drainOne { submitted := true }]
    ∃ s, Reaches (fun _ _ => True) s ∧ perform (fun _ _ => True) {} moves = some s ∧
      s.drawn = 2 ∧ s.commands.pop.map Prod.fst = some (.release 1 2) ∧
      (s.processed.any fun f => f.serial == 1 && f.stamp == 2) = true ∧
      (s.worker.pads 1).stamp = 2 ∧ s.worker.host.levels.left = true ∧
      (s.step (.drainOne { submitted := true })).map (fun s' => s'.worker.host.levels.left) =
        some false := by
  intro moves
  have hsome : (perform (fun _ _ => True) {} moves).isSome = true := by decide +kernel
  refine ⟨(perform (fun _ _ => True) {} moves).get hsome,
    Reaches.start.perform (Option.some_get hsome).symm, (Option.some_get hsome).symm, ?_⟩
  decide +kernel +revert

end Satellite.Pointer
