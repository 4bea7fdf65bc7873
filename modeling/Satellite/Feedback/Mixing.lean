import Mathlib.Data.List.Chain
import Satellite.Feedback.Rumble

/-!
# Mixed rumble

What is sent for one pad over a run. The game's reports and the haptic windows are the two
sources; each RUMBLE is kept with what the sources last said when it was sent, apart from the
fields of the controller that `forwardRumbleLocked` mixes it from.
-/

namespace Satellite.Feedback

open Option PadRumble

/-- A RUMBLE with the game's last report and the level and end of the last haptic window. -/
structure Command where
  level : Motors
  durationMs : Nat
  sentAt : Nat
  forced : Bool
  hid : Motors
  haptic : Option (Motors × Nat)
  deriving DecidableEq

/-- A call of `forwardRumbleLocked`. -/
structure Call where
  pad : PadRumble
  now : Nat
  durationMs : Nat
  force : Bool

def Call.forwarded (k : Call) : Bool × PadRumble :=
  k.pad.forwardRumble k.now k.durationMs k.force

namespace PadRumble

variable (c : PadRumble)

def handle : RumbleEvent → PadRumble
  | .report now level => c.handleRumbleFromBackend now level rumbleWireDurationMs
  | .window now sendNow level => c.reduceHapticWindow now sendNow level
  | .tick now sendNow => c.refreshRumble now sendNow

/-- The call an event comes to, if any. -/
def call : RumbleEvent → Option Call
  | .report now level => some ⟨{ c with hidRumble := level }, now, rumbleWireDurationMs, false⟩
  | .window now sendNow level =>
    let d := c.withHaptic now level
    let refreshDue := decide (ms hapticRumbleRefreshMs ≤ now - d.hapticRumbleSentAt)
    some ⟨d, sendNow, d.windowDurationMs, level != .off && refreshDue⟩
  | .tick now sendNow =>
    if c.hidHeld then
      if ms rumbleRefreshMs ≤ now - c.lastRumbleSentAt then
        some ⟨c, sendNow, rumbleWireDurationMs, true⟩
      else none
    else if decide (c.hapticRumbleExpiresAt ≤ now) &&
        (c.lastRumbleValid && c.lastRumble != .off) then
      some ⟨{ c with hapticRumble := {} }, sendNow, hapticRumbleWireDurationMs, false⟩
    else none

/-- The calls there are: a report, a window, the refresh of a held level and the stop of a haptic
level whose stream ended. -/
inductive Calls : RumbleEvent → Call → Prop
  | report (now : Nat) (level : Motors) :
      Calls (.report now level) ⟨{ c with hidRumble := level }, now, rumbleWireDurationMs, false⟩
  | window (now sendNow : Nat) (level : Motors) (force : Bool) :
      Calls (.window now sendNow level)
        ⟨c.withHaptic now level, sendNow, (c.withHaptic now level).windowDurationMs, force⟩
  | refresh (now sendNow : Nat) (held : c.hidRumble ≠ .off) :
      Calls (.tick now sendNow) ⟨c, sendNow, rumbleWireDurationMs, true⟩
  | stop (now sendNow : Nat) (free : c.hidRumble = .off) (stale : c.hapticRumbleExpiresAt ≤ now) :
      Calls (.tick now sendNow)
        ⟨{ c with hapticRumble := {} }, sendNow, hapticRumbleWireDurationMs, false⟩

theorem hidHeld_iff : c.hidHeld = true ↔ c.hidRumble ≠ .off := bne_iff_ne

theorem hidHeld_eq_false_iff : ¬c.hidHeld = true ↔ c.hidRumble = .off := by
  rw [hidHeld_iff, not_not]

variable {c}

variable {e : RumbleEvent}

theorem calls_of_call {k : Call} (h : c.call e = some k) : c.Calls e k := by
  cases e with
  | report now level =>
    cases h
    exact .report now level
  | window now sendNow level =>
    cases h
    exact .window now sendNow level _
  | tick now sendNow =>
    simp only [call] at h
    split at h
    · next hheld =>
      split at h <;> cases h
      exact .refresh now sendNow (c.hidHeld_iff.mp hheld)
    · next hheld =>
      split at h <;> cases h
      next hstale =>
        rw [Bool.and_eq_true, decide_eq_true_eq] at hstale
        exact .stop now sendNow (c.hidHeld_eq_false_iff.mp hheld) hstale.1

/-- An event does what its call does; a window then notes when it was last sent. -/
theorem handle_of_call {k : Call} (h : c.call e = some k) :
    ∃ sentAt, c.handle e = { k.forwarded.2 with hapticRumbleSentAt := sentAt } := by
  cases e with
  | report now level =>
    cases h
    exact ⟨_, rfl⟩
  | window now sendNow level =>
    cases h
    simp only [handle, reduceHapticWindow]
    split
    · exact ⟨now, rfl⟩
    · exact ⟨_, rfl⟩
  | tick now sendNow =>
    simp only [call] at h
    simp only [handle, refreshRumble]
    split at h
    · next hheld =>
      split at h <;> cases h
      next hdue =>
        rw [if_pos hheld, if_pos hdue]
        exact ⟨_, rfl⟩
    · next hheld =>
      split at h <;> cases h
      next hstale =>
        rw [if_neg hheld, if_pos hstale]
        exact ⟨_, rfl⟩

/-- Only a tick may come to no call, and it then changes nothing. -/
theorem handle_of_no_call (h : c.call e = none) :
    (∃ now sendNow, e = .tick now sendNow) ∧ c.handle e = c := by
  cases e with
  | report now level => cases h
  | window now sendNow level => cases h
  | tick now sendNow =>
    refine ⟨⟨now, sendNow, rfl⟩, ?_⟩
    simp only [call] at h
    simp only [handle, refreshRumble]
    split at h
    · next hheld =>
      split at h
      · cases h
      · next hdue => rw [if_pos hheld, if_neg hdue]
    · next hheld =>
      split at h
      · cases h
      · next hstale => rw [if_neg hheld, if_neg hstale]

end PadRumble

/-! ## Histories -/

structure History where
  pad : PadRumble
  clock : Nat
  hid : Motors
  haptic : Option (Motors × Nat) := none
  sent : List Command := []
  deriving DecidableEq

/-- The level of the last haptic window, while it is not past its end. -/
def liveHaptic (haptic : Option (Motors × Nat)) (now : Nat) : Motors :=
  match haptic with
  | none => {}
  | some (level, ends) => if now < ends then level else {}

namespace History

/-- A plugged pad, with the RUMBLE of the level it was seeded with. -/
def plug (now : Nat) (seed : Motors) : History where
  pad := .plugged now seed
  clock := now
  hid := seed
  sent := if seed = .off then []
    else [⟨seed, rumbleWireDurationMs, now, false, seed, none⟩]

/-- What the sources last said, an event included. -/
def heard (h : History) : RumbleEvent → Motors × Option (Motors × Nat)
  | .report _ level => (level, h.haptic)
  | .window now _ level => (h.hid, some (level, now + ms hapticRumbleWireDurationMs))
  | .tick _ _ => (h.hid, h.haptic)

def command (h : History) (e : RumbleEvent) : Option Command :=
  (h.pad.call e).bind fun k =>
    if k.forwarded.1 then
      some ⟨k.pad.mixed k.now, k.durationMs, k.now, k.force, (h.heard e).1, (h.heard e).2⟩
    else none

def step (h : History) (e : RumbleEvent) : History where
  pad := h.pad.handle e
  clock := match e with
    | .report now _ => now
    | .window _ sendNow _ => sendNow
    | .tick _ sendNow => sendNow
  hid := (h.heard e).1
  haptic := (h.heard e).2
  sent := h.sent ++ (h.command e).toList

def run (h : History) (events : List RumbleEvent) : History := events.foldl step h

/-- The clock does not run back. -/
def InOrder (h : History) : RumbleEvent → Prop
  | .report now _ => h.clock ≤ now
  | .window now sendNow _ => h.clock ≤ now ∧ now ≤ sendNow
  | .tick now sendNow => h.clock ≤ now ∧ now ≤ sendNow

inductive Reached : History → Prop
  | plug (now : Nat) (seed : Motors) : Reached (.plug now seed)
  | event {h : History} {e : RumbleEvent} (hr : Reached h) (ht : h.InOrder e) : Reached (h.step e)

end History

/-! ## Short commands -/

/-- A RUMBLE that only a haptic window asks for runs for the window's duration. -/
def Command.Short (m : Command) : Prop :=
  m.hid = .off → m.level ≠ .off → m.durationMs = hapticRumbleWireDurationMs

namespace History

variable {h : History}

/-- A report of zero finds no haptic level that still runs, or one that the client runs already. -/
def Fair (h : History) : RumbleEvent → Prop
  | .report now level => level = .off →
    { h.pad with hidRumble := .off }.coalesces now = true ∨
      { h.pad with hidRumble := .off }.mixed now = .off
  | _ => True

def FairRun : History → List RumbleEvent → Prop
  | _, [] => True
  | h, e :: es => h.Fair e ∧ FairRun (h.step e) es

theorem forwarded_hidRumble (k : Call) : k.forwarded.2.hidRumble = k.pad.hidRumble :=
  (forwardRumble_forwards _ _ _ _).hidRumble

theorem forwarded_fst (k : Call) :
    k.forwarded.1 = !(!k.force && k.pad.coalesces k.now) := by
  rw [Call.forwarded, forwardRumble]
  split
  · next h => rw [h, Bool.not_true]
  · next h => rw [Bool.eq_false_iff.mpr h, Bool.not_false]

variable {e : RumbleEvent}

theorem command_of_call {k : Call} (hk : h.pad.call e = some k) :
    h.command e = if k.forwarded.1 then
      some ⟨k.pad.mixed k.now, k.durationMs, k.now, k.force, (h.heard e).1, (h.heard e).2⟩
    else none := by
  rw [command, hk, bind_some]

theorem command_of_no_call (hk : h.pad.call e = none) : h.command e = none := by
  rw [command, hk, bind_none]

/-- The controller's HID level is the game's last report. -/
theorem step_hid (hhid : h.pad.hidRumble = h.hid) (e : RumbleEvent) :
    (h.step e).pad.hidRumble = (h.step e).hid := by
  show (h.pad.handle e).hidRumble = (h.heard e).1
  cases hk : h.pad.call e with
  | none =>
    obtain ⟨⟨now, sendNow, rfl⟩, hsame⟩ := handle_of_no_call hk
    rw [hsame]
    exact hhid
  | some k =>
    obtain ⟨sentAt, hhandle⟩ := handle_of_call hk
    rw [hhandle]
    refine (forwarded_hidRumble k).trans ?_
    cases calls_of_call hk with
    | report now level => rfl
    | window now sendNow level force | refresh now sendNow held | stop now sendNow free stale =>
      exact hhid

/-- What one event sends is short exactly if the event is fair. -/
theorem command_short_iff (hhid : h.pad.hidRumble = h.hid) (e : RumbleEvent) :
    (∀ m ∈ h.command e, m.Short) ↔ h.Fair e := by
  cases hk : h.pad.call e with
  | none =>
    obtain ⟨⟨now, sendNow, rfl⟩, -⟩ := handle_of_no_call hk
    rw [command_of_no_call hk]
    exact ⟨fun _ => trivial, fun _ => nofun⟩
  | some k =>
    rw [command_of_call hk]
    cases calls_of_call hk with
    | report now level =>
      rw [forwarded_fst]
      constructor
      · rintro hshort rfl
        by_cases hco : { h.pad with hidRumble := Motors.off }.coalesces now = true
        · exact .inl hco
        · refine .inr (Classical.byContradiction fun hloud => ?_)
          have hlong := hshort _ (if_pos (by simp [hco])) rfl hloud
          cases hlong
      · intro hfair m hm
        rw [mem_def, ite_none_right_eq_some] at hm
        obtain ⟨hsent, hm⟩ := hm
        cases hm
        intro hoff hloud
        obtain rfl : level = .off := hoff
        rcases hfair rfl with hco | hquiet
        · simp [hco] at hsent
        · exact absurd hquiet hloud
    | window now sendNow level force =>
      refine ⟨fun _ => trivial, fun _ m hm => ?_⟩
      rw [mem_def, ite_none_right_eq_some] at hm
      obtain rfl := Option.some.inj hm.2
      intro hoff _
      have hfree : ¬(h.pad.withHaptic now level).hidHeld = true :=
        (hidHeld_eq_false_iff _).mpr (hhid.trans hoff)
      exact if_neg hfree
    | refresh now sendNow held =>
      refine ⟨fun _ => trivial, fun _ m hm => ?_⟩
      rw [mem_def, ite_none_right_eq_some] at hm
      obtain rfl := Option.some.inj hm.2
      exact fun hoff => absurd (hhid.trans hoff) held
    | stop now sendNow free stale =>
      refine ⟨fun _ => trivial, fun _ m hm => ?_⟩
      rw [mem_def, ite_none_right_eq_some] at hm
      obtain rfl := Option.some.inj hm.2
      exact fun _ _ => rfl

theorem run_short_iff (events : List RumbleEvent) : ∀ {h : History}, h.pad.hidRumble = h.hid →
    ((∀ m ∈ (h.run events).sent, m.Short) ↔ (∀ m ∈ h.sent, m.Short) ∧ h.FairRun events) := by
  induction events with
  | nil => exact fun _ => ⟨fun hs => ⟨hs, trivial⟩, fun hs => hs.1⟩
  | cons e events ih =>
    intro h hhid
    have hsent : (∀ m ∈ (h.step e).sent, m.Short) ↔
        (∀ m ∈ h.sent, m.Short) ∧ ∀ m ∈ h.command e, m.Short := by
      show (∀ m ∈ h.sent ++ (h.command e).toList, m.Short) ↔ _
      simp only [List.forall_mem_append, mem_toList, mem_def]
    have hrun : h.run (e :: events) = (h.step e).run events := rfl
    rw [hrun, ih (step_hid hhid e), hsent, command_short_iff hhid, FairRun, and_assoc]

theorem plug_hid (now : Nat) (seed : Motors) : (plug now seed).pad.hidRumble = seed := by
  simp only [plug, plugged]
  split
  · exact (forwardRumble_forwards _ _ _ _).hidRumble
  · rfl

/-- Every RUMBLE that only a haptic window asks for runs for 100 ms exactly if no report of zero
finds a haptic level that still runs and is not the one the client runs. -/
theorem haptic_only_short_iff (now : Nat) (seed : Motors) (events : List RumbleEvent) :
    (∀ m ∈ ((plug now seed).run events).sent, m.Short) ↔ (plug now seed).FairRun events := by
  rw [run_short_iff events (plug_hid now seed)]
  refine ⟨fun h => h.2, fun h => ⟨fun m hm hoff => ?_, h⟩⟩
  -- the seeded level is the game's own
  simp only [plug] at hm
  split at hm
  · cases hm
  · next hseed =>
    obtain rfl := List.mem_singleton.mp hm
    exact absurd hoff hseed

/-- The game drops its own level while a haptic window still runs: the window's level goes out
for 500 ms. -/
theorem haptic_only_long : ∃ events : List RumbleEvent, (∀ e ∈ events, e.Possible) ∧
    ∃ m ∈ ((plug 0 {}).run events).sent,
      m.hid = .off ∧ m.level = ⟨2828, 2828⟩ ∧ m.durationMs = 500 := by
  refine ⟨[.report (ms 1) ⟨9000, 0⟩, .window (ms 10) (ms 10) ⟨2828, 2828⟩, .report (ms 20) .off],
    ?_, by decide⟩
  simp only [List.forall_mem_cons, RumbleEvent.Possible]
  exact ⟨by decide, ⟨2828, 2828, rfl⟩, by decide, nofun⟩

/-! ## The level of a command -/

/-- The controller's fields say what the sources last said, from `clock` on. -/
structure Agrees (c : PadRumble) (hid : Motors) (haptic : Option (Motors × Nat)) (clock : Nat) :
    Prop where
  hid_eq : c.hidRumble = hid
  ends : c.hapticRumbleExpiresAt = (haptic.map Prod.snd).getD 0
  live : ∀ now, clock ≤ now →
    (if now < c.hapticRumbleExpiresAt then c.hapticRumble else {}) = liveHaptic haptic now

variable {haptic : Option (Motors × Nat)}

theorem Agrees.mixed {c : PadRumble} {hid : Motors}
    {clock now : Nat} (ha : Agrees c hid haptic clock) (hnow : clock ≤ now) :
    c.mixed now = hid.mix (liveHaptic haptic now) := by
  rw [PadRumble.mixed, ha.hid_eq, ha.live now hnow]

theorem Agrees.mono {c : PadRumble} {hid : Motors}
    {clock later : Nat} (ha : Agrees c hid haptic clock) (hle : clock ≤ later) :
    Agrees c hid haptic later :=
  ⟨ha.hid_eq, ha.ends, fun now hnow => ha.live now (Nat.le_trans hle hnow)⟩

/-- The coalesce cache holds the last RUMBLE sent. -/
def Caches (c : PadRumble) : Option Command → Prop
  | none => c.lastRumbleValid = false
  | some m => c.lastRumbleValid = true ∧ c.lastRumble = m.level ∧
    c.lastRumbleExpiresAt = some (m.sentAt + ms m.durationMs)

/-- Of two RUMBLEs in a row with one level, the second comes after the first has run out or is a
forced refresh. -/
def Coalesced (m m' : Command) : Prop :=
  m.level = m'.level → m'.sentAt < m.sentAt + ms m.durationMs → m'.forced = true

structure Inv (h : History) : Prop where
  agrees : Agrees h.pad h.hid h.haptic h.clock
  caches : Caches h.pad h.sent.getLast?
  levels : ∀ m ∈ h.sent, m.level = m.hid.mix (liveHaptic m.haptic m.sentAt)
  coalesced : h.sent.IsChain Coalesced

/-- A level that is not coalesced differs from the cached one, or that one has run out. -/
theorem Caches.coalesced {c : PadRumble} {last : Option Command} {m m' : Command}
    (hc : Caches c last) (hm : m ∈ last) (hlevel : m'.level = c.mixed m'.sentAt)
    (hsent : m'.forced = true ∨ c.coalesces m'.sentAt = false) : Coalesced m m' := by
  intro hsame hearly
  obtain rfl := mem_def.mp hm
  obtain ⟨hvalid, hlast, hends⟩ := hc
  -- the end of the first is only compared with; kept whole, nothing unfolds its arithmetic
  generalize m.sentAt + ms m.durationMs = ends at hends hearly
  rcases hsent with hforced | hno
  · exact hforced
  · have hrunning : c.lastExpired m'.sentAt = false := by
      rw [lastExpired, hvalid, hends, Bool.true_and, any_some]
      exact decide_eq_false (Nat.not_le_of_lt hearly)
    have hco : c.coalesces m'.sentAt = true := by
      simp only [coalesces, hvalid, hrunning, hlast, hsame, hlevel, Bool.not_false,
        Bool.and_self, beq_self_eq_true]
    rw [hco] at hno
    cases hno

theorem rumble_ne_zero : rumbleWireDurationMs ≠ 0 := by decide

theorem haptic_ne_zero : hapticRumbleWireDurationMs ≠ 0 := by decide

/-- The facts about the call of an event that its command and its pad are derived from. -/
theorem call_agrees (hinv : h.Inv) {k : Call} (ht : h.InOrder e)
    (hk : h.pad.call e = some k) :
    Agrees k.pad (h.heard e).1 (h.heard e).2 k.now ∧ Caches k.pad h.sent.getLast? ∧
      k.durationMs ≠ 0 ∧ (h.step e).clock = k.now := by
  have ha := hinv.agrees
  cases calls_of_call hk with
  | report now level =>
    have hlater := ha.mono ht
    exact ⟨⟨rfl, hlater.ends, hlater.live⟩, hinv.caches, rumble_ne_zero, rfl⟩
  | window now sendNow level force =>
    refine ⟨⟨ha.hid_eq, rfl, fun _ _ => rfl⟩, hinv.caches, ?_, rfl⟩
    rcases windowDurationMs_cases (h.pad.withHaptic now level) with hd | ⟨hd, -⟩
    · rw [hd]
      exact rumble_ne_zero
    · rw [hd]
      exact haptic_ne_zero
  | refresh now sendNow held =>
    exact ⟨ha.mono (Nat.le_trans ht.1 ht.2), hinv.caches, rumble_ne_zero, rfl⟩
  | stop now sendNow free stale =>
    have hlater := ha.mono (Nat.le_trans ht.1 ht.2)
    refine ⟨⟨ha.hid_eq, ha.ends, fun t hle => ?_⟩, hinv.caches, haptic_ne_zero, rfl⟩
    -- past its end the level counts for nothing, cleared or not
    have hlt : ¬t < h.pad.hapticRumbleExpiresAt := by
      have : sendNow ≤ t := hle
      have := ht.2
      omega
    have hlive := hlater.live t hle
    rw [if_neg hlt] at hlive
    exact (if_neg hlt).trans hlive

theorem step_inv (hinv : h.Inv) (ht : h.InOrder e) : (h.step e).Inv := by
  cases hk : h.pad.call e with
  | none =>
    obtain ⟨⟨now, sendNow, rfl⟩, hsame⟩ := handle_of_no_call hk
    have hsent : (h.step (.tick now sendNow)).sent = h.sent := by
      show h.sent ++ _ = h.sent
      rw [command_of_no_call hk, toList_none, List.append_nil]
    have hpad : (h.step (.tick now sendNow)).pad = h.pad := hsame
    refine ⟨?_, ?_, ?_, ?_⟩
    · rw [hpad]
      exact hinv.agrees.mono (Nat.le_trans ht.1 ht.2)
    · rw [hpad, hsent]
      exact hinv.caches
    · rw [hsent]
      exact hinv.levels
    · rw [hsent]
      exact hinv.coalesced
  | some k =>
    obtain ⟨hagrees, hcaches, hduration, hclock⟩ := call_agrees hinv ht hk
    obtain ⟨sentAt, hhandle⟩ := handle_of_call hk
    have hpad : (h.step e).pad = _ := hhandle
    have hsent : (h.step e).sent = h.sent ++ (h.command e).toList := rfl
    rw [command_of_call hk, forwarded_fst] at hsent
    by_cases hco : (!k.force && k.pad.coalesces k.now) = true
    · have hsame : k.forwarded.2 = k.pad := by
        rw [Call.forwarded, forwardRumble, if_pos hco]
      rw [hco, Bool.not_true, if_neg Bool.false_ne_true, toList_none,
        List.append_nil] at hsent
      rw [hsame] at hpad
      refine ⟨?_, ?_, ?_, ?_⟩
      · rw [hpad, hclock]
        exact ⟨hagrees.hid_eq, hagrees.ends, hagrees.live⟩
      · rw [hpad, hsent]
        exact hcaches
      · rw [hsent]
        exact hinv.levels
      · rw [hsent]
        exact hinv.coalesced
    · have hnew : k.forwarded.2 = { k.pad with
          lastRumble := k.pad.mixed k.now
          lastDurationMs := k.durationMs
          lastRumbleValid := true
          lastRumbleSentAt := k.now
          lastRumbleExpiresAt := some (k.now + ms k.durationMs) } := by
        rw [Call.forwarded, forwardRumble, if_neg hco, if_neg hduration]
      rw [Bool.eq_false_iff.mpr hco, Bool.not_false, if_pos rfl, toList_some] at hsent
      rw [hnew] at hpad
      refine ⟨?_, ?_, ?_, ?_⟩
      · rw [hpad, hclock]
        exact ⟨hagrees.hid_eq, hagrees.ends, hagrees.live⟩
      · rw [hpad, hsent, List.getLast?_concat]
        exact ⟨rfl, rfl, rfl⟩
      · rw [hsent, List.forall_mem_append]
        refine ⟨hinv.levels, List.forall_mem_singleton.mpr ?_⟩
        exact hagrees.mixed (Nat.le_refl _)
      · rw [hsent]
        refine hinv.coalesced.append (List.isChain_singleton _) fun m hm m' hm' => ?_
        cases hm'
        refine hcaches.coalesced hm rfl ?_
        rw [Bool.not_eq_true, Bool.and_eq_false_iff, Bool.not_eq_false'] at hco
        exact hco

theorem mix_off (level : Motors) : level.mix {} = level := by
  rw [Motors.mix, Nat.max_zero, Nat.max_zero]

theorem plug_inv (now : Nat) (seed : Motors) : (plug now seed).Inv := by
  have hagrees : ∀ c : PadRumble, c.hidRumble = seed → c.hapticRumbleExpiresAt = 0 →
      Agrees c seed none now := fun c hhid hends =>
    ⟨hhid, hends, fun t _ => by rw [hends, if_neg (Nat.not_lt_zero t)]; rfl⟩
  by_cases hseed : seed = .off
  · have hpad : (plug now seed).pad = { hidRumble := seed } := by
      simp only [plug, plugged, hidHeld, hseed, bne_self_eq_false,
        Bool.false_and, Bool.false_eq_true, if_false]
    have hsent : (plug now seed).sent = [] := if_pos hseed
    refine ⟨?_, ?_, ?_, ?_⟩
    · rw [hpad]
      exact hagrees _ rfl rfl
    · rw [hpad, hsent]
      rfl
    · rw [hsent]
      simp
    · rw [hsent]
      exact List.isChain_nil
  · have hheld : hidHeld { hidRumble := seed } = true := bne_iff_ne.mpr hseed
    have hpad : (plug now seed).pad =
        (forwardRumble { hidRumble := seed } now rumbleWireDurationMs false).2 := by
      simp only [plug, plugged, hheld, Bool.not_false, Bool.and_self, if_true]
    have hsent : (plug now seed).sent =
        [⟨seed, rumbleWireDurationMs, now, false, seed, none⟩] := if_neg hseed
    have hnew : (forwardRumble { hidRumble := seed } now rumbleWireDurationMs false).2 =
        { ({ hidRumble := seed } : PadRumble) with
          lastRumble := seed
          lastDurationMs := rumbleWireDurationMs
          lastRumbleValid := true
          lastRumbleSentAt := now
          lastRumbleExpiresAt := some (now + ms rumbleWireDurationMs) } := by
      simp only [forwardRumble, coalesces, Bool.false_and, Bool.and_false,
        Bool.false_eq_true, if_false, PadRumble.mixed, Nat.not_lt_zero, mix_off,
        if_neg rumble_ne_zero]
    rw [hnew] at hpad
    refine ⟨?_, ?_, ?_, ?_⟩
    · rw [hpad]
      exact hagrees _ rfl rfl
    · rw [hpad, hsent]
      exact ⟨rfl, rfl, rfl⟩
    · rw [hsent]
      exact List.forall_mem_singleton.mpr (mix_off seed).symm
    · rw [hsent]
      exact List.isChain_singleton _

theorem reached_inv (hr : Reached h) : h.Inv := by
  induction hr with
  | plug now seed => exact plug_inv now seed
  | event _ ht ih => exact step_inv ih ht

/-! ## The stop -/

/-- Sent or coalesced, the cache holds the mixed level afterwards. -/
theorem forwarded_lastRumble (k : Call) : k.forwarded.2.lastRumble = k.pad.mixed k.now := by
  rw [Call.forwarded, forwardRumble]
  split
  · next hco =>
    simp only [Bool.and_eq_true, coalesces, beq_iff_eq] at hco
    exact hco.2.2
  · rfl

/-- A tick that finds neither source asking leaves a zero as the last RUMBLE. -/
theorem tick_stops (hinv : h.Inv) {now sendNow : Nat} (ht : h.InOrder (.tick now sendNow))
    (hhid : h.hid = .off) (hends : ∀ w ∈ h.haptic, w.2 ≤ now) :
    ∀ m ∈ (h.step (.tick now sendNow)).sent.getLast?, m.level = .off := by
  intro m hm
  have hlast := (step_inv hinv ht).caches
  rw [mem_def.mp hm] at hlast
  rw [← hlast.2.1]
  have hstale : h.pad.hapticRumbleExpiresAt ≤ now := by
    rw [hinv.agrees.ends]
    cases hw : h.haptic with
    | none => exact Nat.zero_le _
    | some w => exact hends w hw
  have hfree : ¬h.pad.hidHeld = true :=
    (hidHeld_eq_false_iff _).mpr (hinv.agrees.hid_eq.trans hhid)
  show (h.pad.handle (.tick now sendNow)).lastRumble = .off
  cases hk : h.pad.call (.tick now sendNow) with
  | none =>
    obtain ⟨-, hsame⟩ := handle_of_no_call hk
    have hvalid : h.pad.lastRumbleValid = true := by
      have := hlast.1
      rwa [show (h.step (.tick now sendNow)).pad = h.pad from hsame] at this
    rw [hsame]
    simpa [call, hfree, hstale, hvalid] using hk
  | some k =>
    obtain ⟨sentAt, hhandle⟩ := handle_of_call hk
    obtain ⟨hagrees, -, -, -⟩ := call_agrees hinv ht hk
    rw [hhandle]
    refine (forwarded_lastRumble k).trans ?_
    rw [hagrees.mixed (Nat.le_refl _)]
    have hquiet : liveHaptic h.haptic k.now = {} := by
      have hnow : now ≤ k.now := by
        cases calls_of_call hk with
        | refresh => exact ht.2
        | stop => exact ht.2
      cases hw : h.haptic with
      | none => rfl
      | some w =>
        have := hends w hw
        exact if_neg (by omega)
    show Motors.mix h.hid (liveHaptic h.haptic k.now) = .off
    rw [hquiet, mix_off, hhid]

/-- Every RUMBLE carries what its sources ask for; of two in a row with one level the second is a
refresh unless the first has run out; and a tick that finds neither source asking leaves the pad
stopped. -/
theorem rumble_mixed (hr : Reached h) :
    (∀ m ∈ h.sent, m.level = m.hid.mix (liveHaptic m.haptic m.sentAt)) ∧
      h.sent.IsChain Coalesced ∧
      ∀ now sendNow, h.InOrder (.tick now sendNow) → h.hid = .off →
        (∀ w ∈ h.haptic, w.2 ≤ now) →
        ∀ m ∈ (h.step (.tick now sendNow)).sent.getLast?, m.level = .off := by
  have hinv := reached_inv hr
  exact ⟨hinv.levels, hinv.coalesced, fun _ _ ht hhid hends => tick_stops hinv ht hhid hends⟩

/-- A haptic window that nothing follows, and the tick after its end. -/
theorem rumble_mixed_stopped : Reached ((plug 0 {}).run [.window 0 0 ⟨2828, 2828⟩]) ∧
    ∀ m ∈ (((plug 0 {}).run [.window 0 0 ⟨2828, 2828⟩]).step
      (.tick (ms 100) (ms 100))).sent.getLast?, m.level = .off := by
  have hreach : Reached ((plug 0 {}).run [.window 0 0 ⟨2828, 2828⟩]) :=
    .event (.plug 0 {}) ⟨Nat.le_refl _, Nat.le_refl _⟩
  exact ⟨hreach, (rumble_mixed hreach).2.2 _ _ ⟨by decide, Nat.le_refl _⟩ rfl (by decide)⟩

/-- The game turns to another level and back within the duration of the first. -/
theorem same_level_sent_twice : ∃ (h : History) (m other m' : Command), Reached h ∧
    h.sent = [m, other, m'] ∧ m.level = m'.level ∧ m'.sentAt < m.sentAt + ms m.durationMs ∧
      m'.forced = false := by
  refine ⟨(plug 0 {}).run [.report (ms 1) ⟨9, 9⟩, .report (ms 2) ⟨5, 5⟩, .report (ms 3) ⟨9, 9⟩],
    ⟨⟨9, 9⟩, 500, ms 1, false, ⟨9, 9⟩, none⟩, ⟨⟨5, 5⟩, 500, ms 2, false, ⟨5, 5⟩, none⟩,
    ⟨⟨9, 9⟩, 500, ms 3, false, ⟨9, 9⟩, none⟩, ?_, by decide, rfl, by decide, rfl⟩
  exact .event (.event (.event (.plug 0 {}) (by decide : (0 : Nat) ≤ ms 1))
    (by decide : ms 1 ≤ ms 2)) (by decide : ms 2 ≤ ms 3)

end History

end Satellite.Feedback
