import Mathlib.Order.Lattice

/-!
# Held rumble

The rumble of one pad in `core/session_service.cpp`: the level the game writes through
HID, the level a haptic stream is reduced to, and the last RUMBLE command sent for both.
A command runs for its duration, so a held level has to be sent again in time. The HID
level is refreshed by the maintenance tick; a haptic level, sent with a shorter
duration, by its own stream.

Times are readings of the steady clock in nanoseconds. `reduceHapticWindow` and
`refreshRumble` read the clock themselves before `forwardRumbleLocked` reads it again.
-/

namespace Satellite.Feedback

/-- A number of milliseconds in ticks of the clock. -/
def ms (n : Nat) : Nat := n * 1000000

def rumbleWireDurationMs : Nat := 500
def rumbleRefreshMs : Nat := 200
def hapticRumbleWireDurationMs : Nat := 100
def hapticRumbleRefreshMs : Nat := 50

/-- The levels of the two motors. -/
structure Motors where
  strong : Nat := 0
  weak : Nat := 0
  deriving DecidableEq

def Motors.off : Motors := {}

def Motors.mix (a b : Motors) : Motors := ⟨max a.strong b.strong, max a.weak b.weak⟩

/-- At least the level `b` on both motors. -/
def Motors.Covers (a b : Motors) : Prop := b.strong ≤ a.strong ∧ b.weak ≤ a.weak

instance (a b : Motors) : Decidable (a.Covers b) := inferInstanceAs (Decidable (_ ∧ _))

theorem Motors.mix_covers (a b : Motors) : (a.mix b).Covers a :=
  ⟨le_max_left _ _, le_max_left _ _⟩

def hapticRumbleFloor : Nat := 655

/-- A lane of a window: its level, or silence under the floor. The root mean square of the samples,
scaled and rounded to 16 bits, is computed in floating point and left open. -/
def hapticLaneMagnitude (scaled : UInt16) : Nat :=
  if scaled.toNat < hapticRumbleFloor then 0 else scaled.toNat

/-- The left lane drives the strong motor and the right one the weak. -/
def hapticWindowToRumble (left right : UInt16) : Motors :=
  ⟨hapticLaneMagnitude left, hapticLaneMagnitude right⟩

/-- The rumble fields of a controller. -/
structure PadRumble where
  hidRumble : Motors := {}
  hapticRumble : Motors := {}
  hapticRumbleSentAt : Nat := 0
  hapticRumbleExpiresAt : Nat := 0
  lastRumble : Motors := {}
  lastDurationMs : Nat := 0
  lastRumbleValid : Bool := false
  lastRumbleSentAt : Nat := 0
  /-- Nothing for a command that runs until the next one. -/
  lastRumbleExpiresAt : Option Nat := some 0
  deriving DecidableEq

namespace PadRumble

def lastExpired (c : PadRumble) (now : Nat) : Bool :=
  c.lastRumbleValid && c.lastRumbleExpiresAt.any fun t => t ≤ now

/-- The level both sources ask for; a haptic level past its window is none. -/
def mixed (c : PadRumble) (now : Nat) : Motors :=
  c.hidRumble.mix (if now < c.hapticRumbleExpiresAt then c.hapticRumble else {})

/-- The client still runs this very level. -/
def coalesces (c : PadRumble) (now : Nat) : Bool :=
  c.lastRumbleValid && !c.lastExpired now && c.lastRumble == c.mixed now

/-- `forwardRumbleLocked`: whether a command was sent. -/
def forwardRumble (c : PadRumble) (now wireDurationMs : Nat) (force : Bool) : Bool × PadRumble :=
  if !force && c.coalesces now then (false, c)
  else
    (true,
      { c with
        lastRumble := c.mixed now
        lastDurationMs := wireDurationMs
        lastRumbleValid := true
        lastRumbleSentAt := now
        lastRumbleExpiresAt :=
          if wireDurationMs = 0 then none else some (now + ms wireDurationMs) })

def hidHeld (c : PadRumble) : Bool := c.hidRumble != .off

/-- A plugged pad as it is published: `seedRumbleLocked` takes over the level the game already
holds on the device, and `sendSeededRumbleLocked` sends it. -/
def plugged (now : Nat) (seed : Motors) : PadRumble :=
  let c : PadRumble := { hidRumble := seed }
  if c.hidHeld && !c.lastRumbleValid then (c.forwardRumble now rumbleWireDurationMs false).2 else c

def handleRumbleFromBackend (c : PadRumble) (now : Nat) (report : Motors) (wireDurationMs : Nat) :
    PadRumble :=
  ({ c with hidRumble := report }.forwardRumble now wireDurationMs false).2

def withHaptic (c : PadRumble) (now : Nat) (level : Motors) : PadRumble :=
  { c with hapticRumble := level, hapticRumbleExpiresAt := now + ms hapticRumbleWireDurationMs }

/-- Under a held HID level the command of a haptic window carries the long duration. -/
def windowDurationMs (c : PadRumble) : Nat :=
  if c.hidHeld then rumbleWireDurationMs else hapticRumbleWireDurationMs

def reduceHapticWindow (c : PadRumble) (now sendNow : Nat) (level : Motors) : PadRumble :=
  let d := c.withHaptic now level
  let refreshDue := decide (ms hapticRumbleRefreshMs ≤ now - d.hapticRumbleSentAt)
  let r := d.forwardRumble sendNow d.windowDurationMs (level != .off && refreshDue)
  if r.1 then { r.2 with hapticRumbleSentAt := now } else r.2

/-- What `refreshRumble` does for an active pad. -/
def refreshRumble (c : PadRumble) (now sendNow : Nat) : PadRumble :=
  if c.hidHeld then
    if ms rumbleRefreshMs ≤ now - c.lastRumbleSentAt then
      (c.forwardRumble sendNow rumbleWireDurationMs true).2
    else c
  else
    let hapticStale := c.hapticRumbleExpiresAt ≤ now
    let cacheNonZero := c.lastRumbleValid && c.lastRumble != .off
    if hapticStale && cacheNonZero then
      ({ c with hapticRumble := {} }.forwardRumble sendNow hapticRumbleWireDurationMs false).2
    else c

end PadRumble

/-! ## Runs -/

inductive RumbleEvent
  /-- A report of the backend, with the duration its callback passes. -/
  | report (now : Nat) (level : Motors)
  | window (now sendNow : Nat) (level : Motors)
  | tick (now sendNow : Nat)

/-- What the service can meet: a report holds two 16-bit levels, a window what it is reduced to. -/
def RumbleEvent.Possible : RumbleEvent → Prop
  | .report _ level => level.strong < 0x10000 ∧ level.weak < 0x10000
  | .window _ _ level => ∃ left right, level = hapticWindowToRumble left right
  | .tick _ _ => True

/-- A pad with the latest clock reading, the time of the last tick, and whether the HID level
has been non-zero since a tick that found it non-zero. -/
structure RumbleRun where
  pad : PadRumble := {}
  clock : Nat := 0
  lastTick : Option Nat := none
  heldForATick : Bool := false
  deriving DecidableEq

namespace RumbleRun

def step (r : RumbleRun) : RumbleEvent → RumbleRun
  | .report now level =>
    { r with
      pad := r.pad.handleRumbleFromBackend now level rumbleWireDurationMs
      clock := now
      heldForATick := r.heldForATick && level != .off }
  | .window now sendNow level =>
    { r with pad := r.pad.reduceHapticWindow now sendNow level, clock := sendNow }
  | .tick now sendNow =>
    { pad := r.pad.refreshRumble now sendNow
      clock := sendNow
      lastTick := some now
      heldForATick := r.pad.hidHeld }

/-- Before the tick after the last one is due, with ticks at most 100 ms apart. -/
def BeforeTick (r : RumbleRun) (moment : Nat) : Prop := ∀ t ∈ r.lastTick, moment ≤ t + ms 100

instance (r : RumbleRun) (moment : Nat) : Decidable (r.BeforeTick moment) :=
  inferInstanceAs (Decidable (∀ t ∈ r.lastTick, moment ≤ t + ms 100))

/-- The clock does not run back, and ticks are at most 100 ms apart. -/
def InTime (r : RumbleRun) : RumbleEvent → Prop
  | .report now _ => r.clock ≤ now
  | .window now sendNow _ => r.clock ≤ now ∧ now ≤ sendNow
  | .tick now sendNow => r.clock ≤ now ∧ now ≤ sendNow ∧ r.BeforeTick now

/-- A held HID level is not taken for the one a haptic command still runs. -/
def NotCoalesced (r : RumbleRun) : RumbleEvent → Prop
  | .report now level => level ≠ .off →
    { r.pad with hidRumble := level }.coalesces now = true →
      r.pad.lastDurationMs ≠ hapticRumbleWireDurationMs
  | _ => True

/-- The runs of events in time that each meet a condition where they happen. -/
inductive Reaches (allowed : RumbleRun → RumbleEvent → Prop) : RumbleRun → Prop
  | plug (now : Nat) (seed : Motors) : Reaches allowed { pad := .plugged now seed, clock := now }
  | event {r : RumbleRun} {e : RumbleEvent} (h : Reaches allowed r) (ht : r.InTime e)
      (ha : allowed r e) : Reaches allowed (r.step e)

/-- The last command sent still runs and carries the level the game holds. -/
def Covered (r : RumbleRun) (moment : Nat) : Prop :=
  r.pad.lastRumbleValid = true ∧
    (r.pad.lastDurationMs = 0 ∨ moment < r.pad.lastRumbleSentAt + ms r.pad.lastDurationMs) ∧
    r.pad.lastRumble.Covers r.pad.hidRumble

instance (r : RumbleRun) (moment : Nat) : Decidable (r.Covered moment) :=
  inferInstanceAs (Decidable (_ ∧ _ ∧ _))

end RumbleRun

/-! ## The last command -/

namespace PadRumble

variable {c : PadRumble}

/-- The last command was sent by now, with one of the two durations. -/
structure Timed (c : PadRumble) (clock : Nat) : Prop where
  sent : c.lastRumbleSentAt ≤ clock
  duration : c.lastRumbleValid = true → c.lastDurationMs = rumbleWireDurationMs ∨
    c.lastDurationMs = hapticRumbleWireDurationMs

variable {clock : Nat}

theorem Timed.mono {later : Nat} (h : c.Timed clock) (hle : clock ≤ later) : c.Timed later :=
  ⟨h.sent.trans hle, h.duration⟩

/-- A held HID level runs under a command of the long duration that covers it. -/
def Carried (c : PadRumble) : Prop := c.hidRumble ≠ .off →
  c.lastRumbleValid = true ∧ c.lastDurationMs = rumbleWireDurationMs ∧
    c.lastRumble.Covers c.hidRumble

/-- What forwarding does: nothing where the client runs the level, or a new command. -/
inductive Forwards (c : PadRumble) (now wireDurationMs : Nat) : Bool × PadRumble → Prop
  | coalesced : c.coalesces now = true → Forwards c now wireDurationMs (false, c)
  | sent (d : PadRumble) : d.hidRumble = c.hidRumble → d.lastRumble = c.mixed now →
      d.lastDurationMs = wireDurationMs → d.lastRumbleValid = true → d.lastRumbleSentAt = now →
      Forwards c now wireDurationMs (true, d)

theorem forwardRumble_forwards (c : PadRumble) (now wireDurationMs : Nat) (force : Bool) :
    Forwards c now wireDurationMs (c.forwardRumble now wireDurationMs force) := by
  unfold forwardRumble
  split
  next h =>
    rw [Bool.and_eq_true] at h
    exact .coalesced h.2
  · exact .sent _ rfl rfl rfl rfl rfl

variable {now : Nat}

theorem covers_of_coalesces (h : c.coalesces now = true) :
    c.lastRumbleValid = true ∧ c.lastRumble.Covers c.hidRumble := by
  simp only [coalesces, Bool.and_eq_true, beq_iff_eq] at h
  refine ⟨h.1.1, ?_⟩
  rw [h.2]
  exact Motors.mix_covers _ _

variable {wireDurationMs : Nat} {r : Bool × PadRumble}

theorem Forwards.timed
    (hf : Forwards c now wireDurationMs r)
    (hd : wireDurationMs = rumbleWireDurationMs ∨ wireDurationMs = hapticRumbleWireDurationMs)
    (hclock : clock ≤ now) (h : c.Timed clock) : r.2.Timed now := by
  cases hf with
  | coalesced _ => exact h.mono hclock
  | sent d _ _ hdur _ hat => exact ⟨hat.le, fun _ => hdur ▸ hd⟩

theorem Forwards.sentAt
    (hf : Forwards c now wireDurationMs r) (hclock : clock ≤ now) (h : c.Timed clock) :
    c.lastRumbleSentAt ≤ r.2.lastRumbleSentAt := by
  cases hf with
  | coalesced _ => exact le_rfl
  | sent d _ _ _ _ hat =>
    rw [hat]
    exact h.sent.trans hclock

theorem Forwards.hidRumble
    (hf : Forwards c now wireDurationMs r) : r.2.hidRumble = c.hidRumble := by
  cases hf with
  | coalesced _ => rfl
  | sent d hhid _ _ _ _ => exact hhid

/-- Forwarding with the long duration carries the HID level, unless it is taken for the level of
a shorter command. -/
theorem Forwards.carried
    (hf : Forwards c now wireDurationMs r)
    (hd : c.hidRumble ≠ .off → wireDurationMs = rumbleWireDurationMs)
    (hlast : c.hidRumble ≠ .off → c.coalesces now = true →
      c.lastDurationMs = rumbleWireDurationMs) : r.2.Carried := by
  cases hf with
  | coalesced h =>
    intro hne
    obtain ⟨hvalid, hcovers⟩ := covers_of_coalesces h
    exact ⟨hvalid, hlast hne h, hcovers⟩
  | sent d hhid hlevel hdur hvalid _ =>
    intro hne
    rw [hhid] at hne
    refine ⟨hvalid, hdur.trans (hd hne), ?_⟩
    rw [hlevel, hhid]
    exact Motors.mix_covers _ _

/-- What one event keeps of a pad: the last command only gets newer, and a held level stays
carried. -/
structure Keeps (c d : PadRumble) (now : Nat) : Prop where
  timed : d.Timed now
  newer : c.lastRumbleSentAt ≤ d.lastRumbleSentAt
  carried : d.Carried

/-- Forwarding for a pad whose sources, but not its last command, have just changed. -/
theorem Forwards.keeps {d : PadRumble}
    (hf : Forwards d now wireDurationMs r) (hclock : clock ≤ now) (h : d.Timed clock)
    (hat : d.lastRumbleSentAt = c.lastRumbleSentAt)
    (hd : wireDurationMs = rumbleWireDurationMs ∨
      wireDurationMs = hapticRumbleWireDurationMs ∧ d.hidRumble = .off)
    (hlast : d.hidRumble ≠ .off → d.coalesces now = true →
      d.lastDurationMs = rumbleWireDurationMs) : Keeps c r.2 now where
  timed := hf.timed (hd.imp_right And.left) hclock h
  newer := hat ▸ hf.sentAt hclock h
  carried := hf.carried (fun hne => hd.resolve_right fun hoff => hne hoff.2) hlast

theorem plugged_keeps (now : Nat) (seed : Motors) : Keeps {} (plugged now seed) now := by
  have htimed : PadRumble.Timed { hidRumble := seed } now := ⟨Nat.zero_le _, nofun⟩
  unfold plugged
  dsimp only
  split
  · -- a fresh pad has no last command to coalesce with
    apply (forwardRumble_forwards _ _ _ _).keeps (c := {}) le_rfl htimed rfl (.inl rfl)
    intro _ h
    cases (covers_of_coalesces h).1
  next h =>
    refine ⟨htimed, le_rfl, fun hne => ?_⟩
    simp [hidHeld] at h
    exact absurd h hne

theorem handleRumbleFromBackend_keeps {level : Motors} (hclock : clock ≤ now)
    (h : c.Timed clock) (ha : level ≠ .off →
      { c with hidRumble := level }.coalesces now = true →
        c.lastDurationMs ≠ hapticRumbleWireDurationMs) :
    Keeps c (c.handleRumbleFromBackend now level rumbleWireDurationMs) now := by
  have htimed : { c with hidRumble := level }.Timed clock := ⟨h.sent, h.duration⟩
  apply (forwardRumble_forwards _ _ _ _).keeps (c := c) hclock htimed rfl (.inl rfl)
  intro hne hco
  exact (h.duration (covers_of_coalesces hco).1).resolve_right (ha hne hco)

theorem windowDurationMs_cases (c : PadRumble) : c.windowDurationMs = rumbleWireDurationMs ∨
    c.windowDurationMs = hapticRumbleWireDurationMs ∧ c.hidRumble = .off := by
  by_cases hheld : c.hidHeld = true
  · exact .inl (if_pos hheld)
  · refine .inr ⟨if_neg hheld, ?_⟩
    simpa [hidHeld] using hheld

theorem reduceHapticWindow_keeps {sendNow : Nat} {level : Motors} (hclock : clock ≤ now)
    (hsend : now ≤ sendNow) (h : c.Timed clock) (hc : c.Carried) :
    Keeps c (c.reduceHapticWindow now sendNow level) sendNow := by
  have htimed : (c.withHaptic now level).Timed clock := ⟨h.sent, h.duration⟩
  have hkeeps (force : Bool) := (forwardRumble_forwards (c.withHaptic now level) sendNow
    (c.withHaptic now level).windowDurationMs force).keeps (c := c) (hclock.trans hsend) htimed rfl
      (windowDurationMs_cases _) fun hne _ => (hc hne).2.1
  unfold reduceHapticWindow
  dsimp only
  split
  · have hk := hkeeps (level != .off && decide (ms hapticRumbleRefreshMs ≤
      now - (c.withHaptic now level).hapticRumbleSentAt))
    exact ⟨⟨hk.timed.sent, hk.timed.duration⟩, hk.newer, hk.carried⟩
  · exact hkeeps _

theorem refreshRumble_keeps {sendNow : Nat} (hclock : clock ≤ now)
    (hsend : now ≤ sendNow) (h : c.Timed clock) (hc : c.Carried) :
    Keeps c (c.refreshRumble now sendNow) sendNow := by
  have hle : clock ≤ sendNow := hclock.trans hsend
  have hsame : Keeps c c sendNow := ⟨h.mono hle, le_rfl, hc⟩
  unfold refreshRumble
  split
  · split
    · apply (forwardRumble_forwards _ _ _ _).keeps hle h rfl (.inl rfl)
      exact fun hne _ => (hc hne).2.1
    · exact hsame
  next hheld =>
    have hoff : c.hidRumble = .off := by simpa [hidHeld] using hheld
    dsimp only
    split
    · have htimed : { c with hapticRumble := {} }.Timed clock := ⟨h.sent, h.duration⟩
      apply (forwardRumble_forwards _ _ _ _).keeps (c := c) hle htimed rfl (.inr ⟨rfl, hoff⟩)
      exact fun hne _ => absurd hoff hne
    · exact hsame

/-- The tick leaves a held level with a command younger than the refresh interval. -/
theorem refreshRumble_recent {sendNow : Nat} (hsend : now ≤ sendNow) (hheld : c.hidHeld = true) :
    now < (c.refreshRumble now sendNow).lastRumbleSentAt + ms rumbleRefreshMs := by
  have hpos : 0 < ms rumbleRefreshMs := by decide
  unfold refreshRumble
  rw [if_pos hheld]
  split
  · show now < sendNow + ms rumbleRefreshMs
    omega
  · omega

theorem hidRumble_refreshRumble (c : PadRumble) (now sendNow : Nat) :
    (c.refreshRumble now sendNow).hidRumble = c.hidRumble := by
  unfold refreshRumble
  split
  · split
    · exact (forwardRumble_forwards _ _ _ _).hidRumble
    · rfl
  · dsimp only
    split
    · exact (forwardRumble_forwards _ _ _ _).hidRumble
    · rfl

theorem hidRumble_reduceHapticWindow (c : PadRumble) (now sendNow : Nat) (level : Motors) :
    (c.reduceHapticWindow now sendNow level).hidRumble = c.hidRumble := by
  unfold reduceHapticWindow
  dsimp only
  split <;> exact (forwardRumble_forwards _ _ _ _).hidRumble

end PadRumble

/-! ## No gap -/

namespace RumbleRun

variable {r : RumbleRun}

/-- A level held over a tick is held now, under a command that was recent at that tick. -/
structure Inv (r : RumbleRun) : Prop where
  timed : r.pad.Timed r.clock
  carried : r.pad.Carried
  held : r.heldForATick = true → r.pad.hidRumble ≠ .off
  recent : r.heldForATick = true →
    ∃ t, r.lastTick = some t ∧ t < r.pad.lastRumbleSentAt + ms rumbleRefreshMs

theorem Inv.recent_of_newer (h : r.Inv) {d : PadRumble} {now : Nat}
    (hk : PadRumble.Keeps r.pad d now) (hheld : r.heldForATick = true) :
    ∃ t, r.lastTick = some t ∧ t < d.lastRumbleSentAt + ms rumbleRefreshMs := by
  obtain ⟨t, ht, hlt⟩ := h.recent hheld
  have hnewer := hk.newer
  exact ⟨t, ht, by omega⟩

theorem step_inv {e : RumbleEvent} (h : r.Inv) (ht : r.InTime e) (ha : r.NotCoalesced e) :
    (r.step e).Inv := by
  cases e with
  | report now level =>
    have hk := PadRumble.handleRumbleFromBackend_keeps ht h.timed ha
    refine ⟨hk.timed, hk.carried, fun hheld => ?_, fun hheld => ?_⟩
    · simp only [step, Bool.and_eq_true, bne_iff_ne] at hheld
      have hhid : (r.step (.report now level)).pad.hidRumble = level :=
        (PadRumble.forwardRumble_forwards _ _ _ _).hidRumble
      rw [hhid]
      exact hheld.2
    · simp only [step, Bool.and_eq_true] at hheld
      exact h.recent_of_newer hk hheld.1
  | window now sendNow level =>
    have hk : PadRumble.Keeps r.pad (r.pad.reduceHapticWindow now sendNow level) sendNow :=
      PadRumble.reduceHapticWindow_keeps ht.1 ht.2 h.timed h.carried
    refine ⟨hk.timed, hk.carried, fun hheld => ?_, h.recent_of_newer hk⟩
    rw [step, PadRumble.hidRumble_reduceHapticWindow]
    exact h.held hheld
  | tick now sendNow =>
    have hk := PadRumble.refreshRumble_keeps ht.1 ht.2.1 h.timed h.carried
    refine ⟨hk.timed, hk.carried, fun hheld => ?_, fun hheld => ?_⟩
    · rw [step, PadRumble.hidRumble_refreshRumble]
      simpa [step, PadRumble.hidHeld] using hheld
    · exact ⟨now, rfl, PadRumble.refreshRumble_recent ht.2.1 hheld⟩

theorem reaches_inv (h : Reaches NotCoalesced r) : r.Inv := by
  induction h with
  | plug now seed =>
    have hk := PadRumble.plugged_keeps now seed
    exact ⟨hk.timed, hk.carried, nofun, nofun⟩
  | event _ ht ha ih => exact step_inv ih ht ha

/-- While no held HID level is taken for the level of a haptic command, a level that was held
over a tick runs under an unexpired command until the next tick is due. -/
theorem held_rumble_covered (h : Reaches NotCoalesced r) (hheld : r.heldForATick = true)
    {moment : Nat} (hbefore : r.BeforeTick moment) : r.Covered moment := by
  have hinv := reaches_inv h
  obtain ⟨hvalid, hdur, hcovers⟩ := hinv.carried (hinv.held hheld)
  obtain ⟨t, htick, hrecent⟩ := hinv.recent hheld
  have hmoment := hbefore t htick
  refine ⟨hvalid, .inr ?_, hcovers⟩
  -- at most 100 ms after a tick that left the command younger than 200 ms
  have hmargin : ms rumbleRefreshMs + ms 100 < ms rumbleWireDurationMs := by decide
  rw [hdur]
  omega

/-- The game holds a level over a tick while a haptic stream shakes the other motor. -/
def heldUnderHaptics : RumbleRun :=
  RumbleRun.step (.step (.step { pad := .plugged 0 {}, clock := 0 } (.report (ms 1) ⟨9000, 0⟩))
    (.tick (ms 50) (ms 50))) (.window (ms 60) (ms 60) ⟨0, 2828⟩)

theorem held_rumble_covered_under_haptics :
    Reaches NotCoalesced heldUnderHaptics ∧ heldUnderHaptics.heldForATick = true ∧
      heldUnderHaptics.BeforeTick (ms 150) ∧ heldUnderHaptics.Covered (ms 150) := by
  have hreach : Reaches NotCoalesced heldUnderHaptics := by
    refine .event (.event (.event (.plug 0 {}) ?_ ?_) ?_ trivial) ?_ trivial
    · exact Nat.zero_le _
    · intro _ hco
      exact absurd hco (by decide)
    · exact ⟨by decide, by decide, nofun⟩
    · exact ⟨by decide, by decide⟩
  exact ⟨hreach, by decide, by decide, held_rumble_covered hreach (by decide) (by decide)⟩

/-- A haptic window sends its level for 100 ms; the game then holds that very level, which is
coalesced, and the tick at 2 ms finds the command too young to refresh. -/
def heldLikeHaptics : RumbleRun :=
  RumbleRun.step (.step (.step { pad := .plugged 0 {}, clock := 0 } (.window 0 0 ⟨2828, 2828⟩))
    (.report (ms 1) ⟨2828, 2828⟩)) (.tick (ms 2) (ms 2))

/-- The held level then lies without a command from 100 ms on. -/
theorem held_rumble_gaps : ∃ r moment, Reaches (fun _ e => e.Possible) r ∧
    r.heldForATick = true ∧ r.clock ≤ moment ∧ r.BeforeTick moment ∧ ¬ r.Covered moment := by
  refine ⟨heldLikeHaptics, ms 101, ?_, by decide, by decide, by decide, by decide⟩
  refine .event (.event (.event (.plug 0 {}) ?_ ⟨2828, 2828, rfl⟩) ?_ ⟨?_, ?_⟩) ?_ trivial
  · exact ⟨le_rfl, le_rfl⟩
  · exact Nat.zero_le _
  · decide
  · decide
  · exact ⟨by decide, by decide, nofun⟩

end RumbleRun

end Satellite.Feedback
