import Satellite.Audio.Mic
import Satellite.Lib.Streams

/-!
# The mic rate limit

`handleMicAudio` counts the frames of a pad in windows of a second that the frames themselves
open, and `rxPadFor` forgets the count when the pad is plugged anew. A run of the mic system is
read through its rulings on one serial: the frames that came to the limit, each with the time
it was ruled on, the window it was counted in, and whether it went on to `handOverMicFrame`.
-/

namespace Satellite.Audio

open FixedWindow List

namespace RxPad

def window (rx : RxPad) : Window :=
  { start := rx.micWindowStart, taken := rx.micPacketsInWindow }

/-- The words of a serial under a generation, as a window of a second. -/
def holding (gen : Nat) (w : Window) : RxPad :=
  { ownGen := gen, micWindowStart := w.start, micPacketsInWindow := w.taken }

theorem takePacket_eq (rx : RxPad) (now : Nat) :
    rx.takePacket now = (!(rx.window.take second micAudioMaxPacketsPerSec now).1.admitted,
      holding rx.ownGen (rx.window.take second micAudioMaxPacketsPerSec now).2) := by
  by_cases hopen : rx.micPacketsInWindow = 0 ∨ second ≤ now - rx.micWindowStart
  · have hreopen : rx.window.reopen second now = { start := now, taken := 0 } := if_pos hopen
    simp only [takePacket, if_pos hopen, Window.take, hreopen]
    split <;> rfl
  · have hreopen : rx.window.reopen second now = rx.window := if_neg hopen
    have htaken : rx.window.taken = rx.micPacketsInWindow := rfl
    simp only [takePacket, if_neg hopen, Window.take, hreopen, htaken]
    split <;> rfl

theorem forGen_ownGen (rx : RxPad) (gen : Nat) : (rx.forGen gen).ownGen = gen := by
  rw [forGen]
  split
  · assumption
  · rfl

theorem forGen_holding (gen : Nat) (w : Window) : (holding gen w).forGen gen = holding gen w :=
  if_pos rfl

end RxPad

namespace MicSystem

/-- Whether a frame that came to the limit passed it. -/
def verdict : Option DropCause → Option Bool
  | none => some true
  | some .rateLimit => some false
  | some _ => none

/-- The limit's ruling on a frame for this serial, with the frame's generation. -/
def ruling (serial : Nat) (m : Move) (after : MicSystem) : Option (Nat × Decision) :=
  match m, after.receiving with
  | .endRead now, .gated _ pad cause =>
    if pad.serial = serial then
      (verdict cause).map fun admitted => (pad.gen,
        { now := now, start := (after.rxPads serial).micWindowStart, admitted := admitted })
    else none
  | _, _ => none

/-- The rulings of a run, in its order. -/
def rulings (serial : Nat) (s : MicSystem) : List Move → Option (List (Nat × Decision))
  | [] => some []
  | m :: ms => (s.step m).bind fun s' =>
    (rulings serial s' ms).map fun log => (ruling serial m s').toList ++ log

variable {s s' : MicSystem} {serial gen : Nat}

/-! ## One step -/

/-- What a step does to the words of a serial: nothing, or one packet of a frame's plug. -/
inductive Rules (serial : Nat) (s s' : MicSystem) : Option (Nat × Decision) → Prop
  | aside (same : s'.rxPads serial = s.rxPads serial) : Rules serial s s' none
  | rules (gen now : Nat) {w : Window} (window : ((s.rxPads serial).forGen gen).window = w)
      (taken : s'.rxPads serial =
        RxPad.holding gen (w.take second micAudioMaxPacketsPerSec now).2) :
      Rules serial s s' (some (gen, (w.take second micAudioMaxPacketsPerSec now).1))

theorem ruling_gated {f : MicFrame} {pad : PadRead} {cause : Option DropCause} {now : Nat}
    (h : s.receiving = .gated f pad cause) : ruling serial (.endRead now) s =
      if pad.serial = serial then (verdict cause).map fun admitted => (pad.gen,
        { now := now, start := (s.rxPads serial).micWindowStart, admitted := admitted })
      else none := by
  simp only [ruling, h]

theorem verdict_limit (full : Bool) :
    verdict (if full then some .rateLimit else none) = some !full := by
  cases full <;> rfl

/-- A frame that an earlier gate drops does not come to the limit. -/
theorem rules_dropped (f : MicFrame) (pad : PadRead) {cause : Option DropCause} (now : Nat)
    (h : verdict cause = none) : Rules serial s { s with receiving := .gated f pad cause }
      (ruling serial (.endRead now) { s with receiving := .gated f pad cause }) := by
  rw [ruling_gated rfl, h, Option.map_none, ite_self]
  exact .aside rfl

theorem rules_gate (f : MicFrame) (pad : PadRead) (now : Nat) :
    Rules serial s (s.gate f pad now) (ruling serial (.endRead now) (s.gate f pad now)) := by
  unfold gate
  split
  · exact rules_dropped f pad now rfl
  split
  · exact rules_dropped f pad now rfl
  split
  · exact rules_dropped f pad now rfl
  rw [ruling_gated rfl, RxPad.takePacket_eq, RxPad.forGen_ownGen]
  simp only [verdict_limit, Option.map_some, Bool.not_not]
  by_cases hserial : pad.serial = serial
  · subst hserial
    simp only [if_true, Function.update_self]
    have hfst := @Window.take_fst second micAudioMaxPacketsPerSec
      ((s.rxPads pad.serial).forGen pad.gen).window now
    simp only [RxPad.holding] at hfst ⊢
    rw [← hfst]
    exact .rules pad.gen now rfl (Function.update_self ..)
  · rw [if_neg hserial]
    exact .aside (Function.update_of_ne (Ne.symm hserial) ..)

theorem sweep_rxPads (s : MicSystem) (serial : Nat) : (s.sweep serial).rxPads = s.rxPads := by
  unfold sweep
  dsimp only
  split
  · rfl
  · exact (apply_ite MicSystem.rxPads ..).trans (ite_self _)

theorem handOver_rxPads (s : MicSystem) (f : MicFrame) (pad : PadRead) :
    (s.handOverMicFrame f pad).rxPads = s.rxPads := by
  unfold handOverMicFrame
  split
  · rfl
  · split <;> rfl

/-- Only the end of a read writes the words of a serial. -/
theorem step_rxPads {m : Move} (hm : ∀ now, m ≠ .endRead now) (hs : s.step m = some s') :
    s'.rxPads = s.rxPads := by
  cases m with
  | endRead now => exact absurd rfl (hm now)
  | setLive token live | setIndex token slot =>
    cases hs
    rfl
  | beginWrite slot | store slot token keyEpoch pads | endWrite slot | release | sweep serial =>
    simp only [step] at hs
    split at hs <;> cases hs
    first | rfl | exact sweep_rxPads s serial
  | arrive token ctrlIdx seq bytes hostWantsMic | find | beginRead =>
    simp only [step] at hs
    split at hs
    · split at hs <;> cases hs <;> rfl
    · cases hs
  | load =>
    simp only [step] at hs
    split at hs <;> cases hs
    rfl
  | count =>
    simp only [step] at hs
    split at hs <;> cases hs
    · rfl
    · exact handOver_rxPads s _ _
  | process =>
    simp only [step] at hs
    split at hs
    · cases hs
    · split at hs <;> cases hs
      rfl

theorem step_rules {m : Move} (hs : s.step m = some s') :
    Rules serial s s' (ruling serial m s') := by
  by_cases hm : ∀ now, m ≠ .endRead now
  · have hnone : ruling serial m s' = none := by
      unfold ruling
      split
      · exact absurd rfl (hm _)
      · rfl
    rw [hnone]
    exact .aside (congrFun (step_rxPads hm hs) serial)
  · obtain ⟨now, hnow⟩ := Classical.not_forall.mp hm
    obtain rfl := Classical.not_not.mp hnow
    simp only [step] at hs
    split at hs
    · split at hs <;> cases hs
      · exact rules_gate _ _ now
      · exact .aside rfl
    · cases hs

/-! ## Runs -/

/-- The words of the serial are those the rulings so far leave to the next frame. -/
def Tracks (gen : Nat) (rx : RxPad) (log : List Decision) : Prop :=
  ∃ w, rx.forGen gen = RxPad.holding gen w ∧ Sound second micAudioMaxPacketsPerSec w log

/-- A run extends the log of a generation soundly. -/
theorem rulings_sound {moves : List Move} : ∀ {s : MicSystem} {seen : List Decision}
    {log : List (Nat × Decision)}, Tracks gen (s.rxPads serial) seen →
    s.rulings serial moves = some log → (∀ e ∈ log, e.1 = gen) →
    (seen ++ log.map Prod.snd).Pairwise (fun d e => d.now ≤ e.now) →
    ∃ w, Sound second micAudioMaxPacketsPerSec w (seen ++ log.map Prod.snd) := by
  induction moves with
  | nil =>
    rintro s seen log ⟨w, -, hsound⟩ hlog - -
    cases hlog
    rw [map_nil, append_nil]
    exact ⟨w, hsound⟩
  | cons m moves ih =>
    intro s seen log htracks hlog hgen htimes
    obtain ⟨s', hs, hmap⟩ := Option.bind_eq_some_iff.mp hlog
    obtain ⟨rest, hrest, rfl⟩ := Option.map_eq_some_iff.mp hmap
    have hrules := @step_rules s s' serial m hs
    generalize ruling serial m s' = r at hrules hgen htimes ⊢
    cases hrules with
    | aside same =>
      rw [← same] at htracks
      exact ih htracks hrest hgen htimes
    | @rules g now w window taken =>
      obtain rfl : g = gen := hgen _ mem_cons_self
      obtain ⟨v, hv, hsound⟩ := htracks
      obtain rfl : v = w := by
        rw [← window, hv]
        rfl
      have happend : seen ++ List.map Prod.snd (Option.toList (some (g,
          (v.take second micAudioMaxPacketsPerSec now).1)) ++ rest) =
          (seen ++ [(v.take second micAudioMaxPacketsPerSec now).1]) ++ rest.map Prod.snd := by
        simp only [Option.toList_some, cons_append, nil_append, map_cons,
          append_assoc]
      rw [happend] at htimes ⊢
      have hnow : ∀ d ∈ seen, d.now ≤ now := by
        intro d hd
        have hle := (pairwise_append.mp (pairwise_append.mp htimes).1).2.2 d hd _
          mem_cons_self
        rwa [Window.take_fst] at hle
      refine ih ⟨_, ?_, hsound.take (by decide) (by decide) hnow⟩ hrest
        (fun e he => hgen e (mem_append_right _ he)) htimes
      rw [taken, RxPad.forGen_holding]

/-- From the plug on, with the frames of its generation ruled on at non-decreasing times: no
second hands over more than two windows' worth, no window more than its own, and frames that
keep to 75 in every second are all handed over. -/
theorem mic_rate_limit {moves : List Move} {log : List (Nat × Decision)}
    (hplug : (s.rxPads serial).forGen gen = { ownGen := gen })
    (hlog : s.rulings serial moves = some log) (hgen : ∀ e ∈ log, e.1 = gen)
    (htimes : (log.map Prod.snd).Pairwise fun d e => d.now ≤ e.now) :
    (∀ a b, b ≤ a + second → (log.map Prod.snd).countP
        (fun d => d.admitted && (decide (a ≤ d.now) && decide (d.now < b))) ≤ 150) ∧
      (∀ start, admissions (log.map Prod.snd) start ≤ micAudioMaxPacketsPerSec) ∧
      ((∀ a, (log.map Prod.snd).countP
          (fun d => decide (a ≤ d.now) && decide (d.now < a + second)) ≤ 75) →
        ∀ d ∈ log.map Prod.snd, d.admitted = true) := by
  have hstart : Tracks gen (s.rxPads serial) [] := ⟨{}, hplug, .fresh 0⟩
  obtain ⟨w, hsound⟩ := rulings_sound hstart hlog hgen htimes
  exact ⟨fun a b hab => hsound.interval_le hab, hsound.bounded, hsound.admitted_of_sparse⟩

/-- Two frames of a plug half a second apart. -/
theorem mic_rate_limit_two : ∃ log, rulings 1 {} (publishSession 7 1 ++ receiveFrame 7 100 ++
      [.arrive 7 0 101 [1] true, .find, .beginRead, .load, .endRead 500000000, .count]) = some log ∧
    log.length = 2 ∧ ∀ start, admissions (log.map Prod.snd) start ≤ micAudioMaxPacketsPerSec := by
  have hlog : rulings 1 {} (publishSession 7 1 ++ receiveFrame 7 100 ++
      [.arrive 7 0 101 [1] true, .find, .beginRead, .load, .endRead 500000000, .count]) =
      some [(1, ⟨0, 0, true⟩), (1, ⟨500000000, 0, true⟩)] := by decide +kernel
  exact ⟨_, hlog, rfl, (@mic_rate_limit {} 1 1 _ _ rfl hlog (by decide) (by decide)).2.1⟩

end MicSystem

end Satellite.Audio
