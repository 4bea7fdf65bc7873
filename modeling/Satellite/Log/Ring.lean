import Satellite.Lib.Streams
import Mathlib.Logic.Function.Basic
import Mathlib.Data.Nat.Nth

/-!
# The log ring

`LogRing` of `core/log_ring.h`: one thread publishes records into 500 slots, any number of
threads copy them out, and every load and store of a word is a step. The version of a slot is
odd while it is written; a copy counts if the version was even and did not change, and if the
slot holds the number that was asked for.
-/

namespace Satellite.Log.Ring

open Function List

def logRingSlots : Nat := 500

def logRecordWords : Nat := 64

/-- A record as its words. -/
abbrev Words := Fin logRecordWords → UInt64

structure Slot where
  version : UInt64 := 0
  seq : UInt64 := 0
  words : Words := fun _ => 0

structure LogRingEntry where
  seq : UInt64
  words : Words

/-- Where `publish` is, by the access that comes next. -/
inductive Publisher
  | idle
  | bump (r : Words) (seq : UInt64)
  | number (r : Words) (seq : UInt64)
  /-- The first `n` words are stored; after the last one the version is bumped again. -/
  | store (r : Words) (seq : UInt64) (n : Nat)
  | post (seq : UInt64)

/-- The local variables of `copySince`. -/
structure Call where
  since : UInt64
  stop : UInt64
  seq : UInt64
  out : List LogRingEntry := []

/-- Where `copySince` is. -/
inductive Reader
  | idle
  | began (since : UInt64)
  | next (c : Call)
  | noted (c : Call) (before : UInt64)
  | copying (c : Call) (before stored : UInt64) (words : Words) (n : Nat)
  | returned (c : Call)

structure LogRing where
  slots : Nat → Slot := fun _ => {}
  published : UInt64 := 0
  publisher : Publisher := .idle
  /-- The records handed to `publish`, oldest first. -/
  records : List Words := []

structure State (τ : Type) where
  ring : LogRing := {}
  readers : τ → Reader := fun _ => .idle
  /-- No publish has overlapped the call of this reader. -/
  calm : τ → Bool := fun _ => false

def slotOf (seq : UInt64) : Nat := (seq % UInt64.ofNat logRingSlots).toNat

def LogRing.setSlot (s : LogRing) (i : Nat) (slot : Slot) : LogRing :=
  { s with slots := update s.slots i slot }

/-- The next access of a publish in progress. -/
def publisherStep (s : LogRing) : LogRing :=
  match s.publisher with
  | .idle => s
  | .bump r seq =>
    let slot := s.slots (slotOf seq)
    { s.setSlot (slotOf seq) { slot with version := slot.version + 1 } with
      publisher := .number r seq }
  | .number r seq =>
    { s.setSlot (slotOf seq) { s.slots (slotOf seq) with seq := seq } with
      publisher := .store r seq 0 }
  | .store r seq n =>
    let slot := s.slots (slotOf seq)
    if h : n < logRecordWords then
      { s.setSlot (slotOf seq)
          { slot with words := update slot.words ⟨n, h⟩ (r ⟨n, h⟩) } with
        publisher := .store r seq (n + 1) }
    else
      { s.setSlot (slotOf seq) { slot with version := slot.version + 1 } with
        publisher := .post seq }
  | .post seq => { s with published := seq + 1, publisher := .idle }

/-- The head of the loop of `copySince`. -/
def Call.loop (c : Call) : Reader := if c.seq < c.stop then .next c else .returned c

/-- What `copySince` starts with, once it has loaded `published_`. -/
def Call.start (since stop : UInt64) : Call :=
  let oldest := if stop > UInt64.ofNat logRingSlots then stop - UInt64.ofNat logRingSlots else 0
  { since, stop, seq := if since < oldest then oldest else since }

/-- The next access of `copySince`. -/
def readerStep (s : LogRing) : Reader → Reader
  | .idle => .idle
  | .began since => (Call.start since s.published).loop
  | .next c =>
    let before := (s.slots (slotOf c.seq)).version
    if before &&& 1 ≠ 0 then { c with seq := c.seq + 1 : Call }.loop else .noted c before
  | .noted c before => .copying c before (s.slots (slotOf c.seq)).seq (fun _ => 0) 0
  | .copying c before stored words n =>
    let slot := s.slots (slotOf c.seq)
    if h : n < logRecordWords then
      .copying c before stored (update words ⟨n, h⟩ (slot.words ⟨n, h⟩)) (n + 1)
    else if slot.version ≠ before ∨ stored ≠ c.seq then { c with seq := c.seq + 1 : Call }.loop
    else { c with seq := c.seq + 1, out := c.out ++ [⟨c.seq, words⟩] : Call }.loop
  | .returned _ => .idle

def Publisher.isIdle : Publisher → Bool
  | .idle => true
  | _ => false

section Steps

variable {τ : Type} [DecidableEq τ]

inductive Step (s : State τ) : State τ → Prop
  /-- `publish` is called and loads `published_`. -/
  | publish (r : Words) : s.ring.publisher = .idle →
      Step s { s with
        ring := { s.ring with publisher := .bump r s.ring.published, records := s.ring.records ++ [r] }
        calm := fun _ => false }
  | publisher : Step s { s with ring := publisherStep s.ring, calm := fun _ => false }
  | call (t : τ) (since : UInt64) : s.readers t = .idle →
      Step s { s with
        readers := update s.readers t (.began since)
        calm := update s.calm t s.ring.publisher.isIdle }
  | reader (t : τ) :
      Step s { s with readers := update s.readers t (readerStep s.ring (s.readers t)) }

inductive Run : State τ → Prop
  | start : Run {}
  | step {s s' : State τ} : Run s → Step s s' → Run s'

end Steps

/-! ## What the slots hold -/

/-- What a publish in progress has loaded and stored, after `w` bumps of versions in all. -/
def Publisher.Knows (w : Nat) (slots : Nat → Slot) (records : List Words) : Publisher → Prop
  | .idle => w = 2 * records.length
  | .bump r seq => w = 2 * seq.toNat ∧ records.length = seq.toNat + 1 ∧
      records[seq.toNat]? = some r
  | .number r seq => w = 2 * seq.toNat + 1 ∧ records.length = seq.toNat + 1 ∧
      records[seq.toNat]? = some r
  | .store r seq n => w = 2 * seq.toNat + 1 ∧ records.length = seq.toNat + 1 ∧
      records[seq.toNat]? = some r ∧ (slots (slotOf seq)).seq = seq ∧
      ∀ i, i.val < n → (slots (slotOf seq)).words i = r i
  | .post seq => w = 2 * seq.toNat + 2 ∧ records.length = seq.toNat + 1

/-- The number that `published_` has. -/
def Publisher.shown (records : List Words) : Publisher → Nat
  | .idle => records.length
  | .bump _ seq | .number _ seq | .store _ seq _ | .post seq => seq.toNat

/-- The slot of record `k` holds it. -/
def Holds (slots : Nat → Slot) (records : List Words) (k : Nat) : Prop :=
  (slots (k % logRingSlots)).seq.toNat = k ∧ records[k]? = some (slots (k % logRingSlots)).words

/-- A version after `w` bumps in all, two of them for every lap of its slot: odd for the slot that is
being written only. -/
def Counted (w i : Nat) (version : UInt64) : Prop :=
  version.toNat ≤ 2 * ((w / 2 + (logRingSlots - 1) - i) / logRingSlots) + w % 2 ∧
    (version.toNat % 2 = 1 ↔ w % 2 = 1 ∧ i = w / 2 % logRingSlots)

/-- Record `k` is in its slot from its second bump to the first one of the next lap. -/
structure Writes (w : Nat) (s : LogRing) : Prop where
  published : s.published.toNat = s.publisher.shown s.records
  publisher : s.publisher.Knows w s.slots s.records
  versions : ∀ i, Counted w i (s.slots i).version
  holds : ∀ k, 2 * k + 2 ≤ w → w ≤ 2 * (k + logRingSlots) → Holds s.slots s.records k

/-- Versions grow, and a slot whose even version stays is not written. -/
def Grows (slots slots' : Nat → Slot) : Prop :=
  ∀ i, (slots i).version.toNat ≤ (slots' i).version.toNat ∧
    ((slots i).version.toNat % 2 = 0 → (slots' i).version = (slots i).version → slots' i = slots i)

section Slots

variable {slots : Nat → Slot} {records : List Words} {slot : Slot} {i k w : Nat} {seq : UInt64}

theorem slotOf_eq (seq : UInt64) : slotOf seq = seq.toNat % logRingSlots := by
  rw [slotOf, UInt64.toNat_mod]
  rfl

theorem toNat_succ {v : UInt64} (h : v.toNat < 2 ^ 64 - 1) : (v + 1).toNat = v.toNat + 1 := by
  rw [UInt64.toNat_add]
  exact Nat.mod_eq_of_lt (by simp only [UInt64.toNat_one]; omega)

theorem Grows.refl (slots : Nat → Slot) : Grows slots slots :=
  fun _ => ⟨Nat.le_refl _, fun _ _ => rfl⟩

theorem Grows.set (hle : (slots i).version.toNat ≤ slot.version.toNat)
    (hsame : (slots i).version.toNat % 2 = 0 → slot.version ≠ (slots i).version) :
    Grows slots (update slots i slot) := by
  intro j
  by_cases hj : j = i
  · subst hj
    rw [update_self]
    exact ⟨hle, fun heven heq => absurd heq (hsame heven)⟩
  · rw [update_of_ne hj]
    exact ⟨Nat.le_refl _, fun _ _ => rfl⟩

theorem Holds.set (h : Holds slots records k)
    (hi : k % logRingSlots = i → slot.seq = (slots i).seq ∧ slot.words = (slots i).words) :
    Holds (update slots i slot) records k := by
  by_cases hk : k % logRingSlots = i
  · obtain ⟨hseq, hwords⟩ := hi hk
    rw [Holds, hk] at h
    rw [Holds, hk, update_self, hseq, hwords]
    exact h
  · rw [Holds, update_of_ne hk]
    exact h

/-- A bump of the slot whose turn it is. -/
theorem versions_bump (h : ∀ i, Counted w i (slots i).version) (hw : w / 2 < 2 ^ 64)
    (hi : i = w / 2 % logRingSlots) :
    (∀ j, Counted (w + 1) j
      (update slots i { slots i with version := (slots i).version + 1 } j).version) ∧
    Grows slots (update slots i { slots i with version := (slots i).version + 1 }) := by
  obtain ⟨hle, hodd⟩ := h i
  simp only [logRingSlots] at hi hle hodd
  have hsucc := toNat_succ (show (slots i).version.toNat < 2 ^ 64 - 1 by omega)
  refine ⟨fun j => ?_, Grows.set (by simp only; omega) fun _ heq => ?_⟩
  · by_cases hj : j = i
    · rw [hj, update_self, Counted, hsucc, logRingSlots]
      omega
    · obtain ⟨hle', hodd'⟩ := h j
      rw [update_of_ne hj, Counted]
      simp only [logRingSlots] at hle' hodd' ⊢
      omega
  · have := congrArg UInt64.toNat heq
    simp only at this
    omega

/-- A store to the slot that is being written. -/
theorem versions_store (slot : Slot) (h : ∀ i, Counted w i (slots i).version) (hw : w % 2 = 1)
    (hi : i = w / 2 % logRingSlots) (hslot : slot.version = (slots i).version) :
    (∀ j, Counted w j (update slots i slot j).version) ∧
      Grows slots (update slots i slot) := by
  have hodd := (h i).2.2 ⟨hw, hi⟩
  refine ⟨?_, Grows.set (by rw [hslot]) fun heven => by omega⟩
  exact (forall_update_iff slots fun j s => Counted w j s.version).2 ⟨hslot ▸ h i, fun j _ => h j⟩

/-- A record that is still in its slot is not in the slot that is being written. -/
theorem Holds.store (h : Holds slots records k) (hk : 2 * k + 2 ≤ w)
    (hlap : w ≤ 2 * (k + logRingSlots)) (hw : w % 2 = 1) (hi : i = w / 2 % logRingSlots) :
    Holds (update slots i slot) records k := by
  refine h.set fun hmod => ?_
  have := lap_le (by omega) (hmod.trans hi)
  omega

end Slots

section Publishing

variable {w : Nat} {s : LogRing}

/-- Every access of a publish keeps what the slots hold. -/
theorem Writes.step (h : Writes w s) (hfew : s.records.length < 2 ^ 64) :
    Grows s.slots (publisherStep s).slots ∧ ∃ w', Writes w' (publisherStep s) := by
  obtain ⟨hpub, hknows, hversions, hholds⟩ := h
  unfold publisherStep
  split
  case h_1 => exact ⟨Grows.refl _, w, hpub, hknows, hversions, hholds⟩
  case h_2 r seq hphase =>
    rw [hphase] at hknows hpub
    obtain ⟨hw, hlen, hr⟩ := hknows
    have hi : slotOf seq = w / 2 % logRingSlots := by rw [slotOf_eq]; congr 1; omega
    obtain ⟨hcount, hgrows⟩ := versions_bump hversions (by omega) hi
    refine ⟨hgrows, w + 1, hpub, ⟨by omega, hlen, hr⟩, hcount, fun k hk hlap => ?_⟩
    exact (hholds k (by omega) (by omega)).set fun _ => ⟨rfl, rfl⟩
  case h_3 r seq hphase =>
    rw [hphase] at hknows hpub
    obtain ⟨hw, hlen, hr⟩ := hknows
    have hi : slotOf seq = w / 2 % logRingSlots := by rw [slotOf_eq]; congr 1; omega
    obtain ⟨hcount, hgrows⟩ := versions_store { s.slots (slotOf seq) with seq := seq }
      hversions (by omega) hi rfl
    refine ⟨hgrows, w, hpub, ⟨hw, hlen, hr, ?_, nofun⟩, hcount, fun k hk hlap => ?_⟩
    · simp only [LogRing.setSlot, update_self]
    · exact (hholds k hk hlap).store hk hlap (by omega) hi
  case h_4 r seq n hphase =>
    rw [hphase] at hknows hpub
    obtain ⟨hw, hlen, hr, hseq, hwords⟩ := hknows
    have hi : slotOf seq = w / 2 % logRingSlots := by rw [slotOf_eq]; congr 1; omega
    split
    case isTrue hn =>
      obtain ⟨hcount, hgrows⟩ := versions_store { s.slots (slotOf seq) with
        words := update (s.slots (slotOf seq)).words ⟨n, hn⟩ (r ⟨n, hn⟩) }
        hversions (by omega) hi rfl
      refine ⟨hgrows, w, hpub, ⟨hw, hlen, hr, ?_, fun i hin => ?_⟩, hcount, fun k hk hlap => ?_⟩
      · simp only [LogRing.setSlot, update_self, hseq]
      · simp only [LogRing.setSlot, update_self]
        by_cases heq : i = ⟨n, hn⟩
        · rw [heq]
          exact update_self ..
        · have hlt : i.val ≠ n := fun hv => heq (Fin.ext hv)
          rw [update_of_ne heq]
          exact hwords i (by omega)
      · exact (hholds k hk hlap).store hk hlap (by omega) hi
    case isFalse hn =>
      obtain ⟨hcount, hgrows⟩ := versions_bump hversions (by omega) hi
      refine ⟨hgrows, w + 1, hpub, ⟨by omega, hlen⟩, hcount, fun k hk hlap => ?_⟩
      refine Holds.set (?_ : Holds s.slots s.records k) fun _ => ⟨rfl, rfl⟩
      by_cases hlast : k = seq.toNat
      · have hall : (s.slots (slotOf seq)).words = r :=
          funext fun i => hwords i (Nat.lt_of_lt_of_le i.isLt (Nat.le_of_not_lt hn))
        rw [Holds, hlast, ← slotOf_eq, hseq, hall]
        exact ⟨rfl, hr⟩
      · exact hholds k (by omega) (by omega)
  case h_5 seq hphase =>
    rw [hphase] at hknows hpub
    obtain ⟨hw, hlen⟩ := hknows
    refine ⟨Grows.refl _, w, ?_, ?_, hversions, hholds⟩
    · exact (toNat_succ (by omega)).trans hlen.symm
    · show w = 2 * s.records.length
      omega

theorem Writes.shown_le (h : Writes w s) : 2 * s.published.toNat ≤ w := by
  have hknows := h.publisher
  rw [h.published]
  cases hphase : s.publisher with
  | idle =>
    rw [hphase] at hknows
    exact Nat.le_of_eq hknows.symm
  | _ =>
    rw [hphase] at hknows
    have := hknows.1
    simp only [Publisher.shown]
    omega

/-- A closed slot that carries a published number holds its record. -/
theorem Writes.read (h : Writes w s) {seq : UInt64} (hlt : seq.toNat < s.published.toNat)
    (heven : (s.slots (slotOf seq)).version.toNat % 2 = 0)
    (hseq : (s.slots (slotOf seq)).seq = seq) :
    s.records[seq.toNat]? = some (s.slots (slotOf seq)).words := by
  have hshown := h.shown_le
  have hclosed := (h.versions (slotOf seq)).2
  rw [slotOf_eq] at hclosed hseq heven ⊢
  by_cases hlap : w ≤ 2 * (seq.toNat + logRingSlots)
  · exact (h.holds _ (by omega) hlap).2
  · -- the slot holds a later record of the same residue
    exfalso
    obtain ⟨k, hk, hk', hmod⟩ :=
      exists_lap (by decide : 0 < logRingSlots) (w / 2 - logRingSlots) seq.toNat
    have hopen : w % 2 = 1 → k ≠ w / 2 - logRingSlots := by
      intro hw heq
      have hturn : seq.toNat % logRingSlots = w / 2 % logRingSlots := by
        rw [← hmod, heq, ← Nat.add_mod_right, Nat.sub_add_cancel (by omega)]
      exact absurd (hclosed.2 ⟨hw, hturn⟩) (by omega)
    have hheld := (h.holds k (by omega) (by omega)).1
    rw [hmod, hseq] at hheld
    omega

/-- With no publish under way every record of the last lap is in its slot. -/
theorem Writes.at_rest (h : Writes w s) (hidle : s.publisher = .idle) {seq : UInt64}
    (hlt : seq.toNat < s.published.toNat) (hlap : s.published.toNat ≤ seq.toNat + logRingSlots) :
    (s.slots (slotOf seq)).seq = seq ∧ (s.slots (slotOf seq)).version.toNat % 2 = 0 := by
  have hknows := h.publisher
  have hpub := h.published
  have hclosed := (h.versions (slotOf seq)).2
  rw [hidle] at hknows hpub
  have hw : w = 2 * s.published.toNat := by rw [hpub]; exact hknows
  refine ⟨?_, by omega⟩
  rw [slotOf_eq]
  exact UInt64.toNat_inj.1 (h.holds _ (by omega) (by omega)).1

end Publishing

/-! ## What the readers have -/

/-- The first number that a call asks for. -/
def Call.first (c : Call) : Nat := max c.since.toNat (c.stop.toNat - logRingSlots)

/-- What a call has collected; `calm` says that no publish has overlapped it. -/
structure Call.Sound (s : LogRing) (calm : Bool) (c : Call) : Prop where
  stop : c.stop.toNat ≤ s.published.toNat
  first : c.first ≤ c.seq.toNat
  last : c.seq.toNat ≤ max c.first c.stop.toNat
  out : ∀ e ∈ c.out, s.records[e.seq.toNat]? = some e.words ∧ c.since ≤ e.seq ∧
    e.seq < c.seq ∧ e.seq < c.stop
  order : c.out.Pairwise fun a b => a.seq < b.seq
  calm : calm = true → c.stop = s.published ∧
    c.out.map (fun e => e.seq.toNat) = List.range' c.first (c.seq.toNat - c.first)

/-- The version that a read started from. -/
structure Noted (s : LogRing) (calm : Bool) (c : Call) (before : UInt64) : Prop where
  sound : c.Sound s calm
  lt : c.seq < c.stop
  even : before.toNat % 2 = 0
  le : before.toNat ≤ (s.slots (slotOf c.seq)).version.toNat
  calm : calm = true → before = (s.slots (slotOf c.seq)).version

def Reader.Sound (s : LogRing) (calm : Bool) : Reader → Prop
  | .idle | .began _ => True
  | .next c => c.Sound s calm ∧ c.seq < c.stop
  | .noted c before => Noted s calm c before
  | .copying c before stored words n => Noted s calm c before ∧
      -- what is loaded counts as long as the version is the one noted
      ((s.slots (slotOf c.seq)).version = before → stored = (s.slots (slotOf c.seq)).seq ∧
        ∀ i, i.val < n → words i = (s.slots (slotOf c.seq)).words i)
  | .returned c => c.Sound s calm ∧ ¬ c.seq < c.stop

section Reading

variable {w : Nat} {s s' : LogRing} {calm : Bool} {c : Call} {before : UInt64}

theorem Call.Sound.mono (h : c.Sound s calm) (hpub : s.published.toNat ≤ s'.published.toNat)
    (hrec : s.records <+: s'.records) : c.Sound s' false where
  stop := Nat.le_trans h.stop hpub
  first := h.first
  last := h.last
  out e he := by
    obtain ⟨hget, hrest⟩ := h.out e he
    obtain ⟨more, hmore⟩ := hrec
    refine ⟨?_, hrest⟩
    rw [← hmore, getElem?_append_left (List.getElem?_eq_some_iff.1 hget).1, hget]
  order := h.order
  calm := nofun

theorem Noted.mono (h : Noted s calm c before) (hgrows : Grows s.slots s'.slots)
    (hpub : s.published.toNat ≤ s'.published.toNat) (hrec : s.records <+: s'.records) :
    Noted s' false c before :=
  ⟨h.sound.mono hpub hrec, h.lt, h.even, Nat.le_trans h.le (hgrows _).1, nofun⟩

/-- A step of the publisher leaves a reader what counts. -/
theorem Reader.Sound.mono {r : Reader} (h : r.Sound s calm) (hgrows : Grows s.slots s'.slots)
    (hpub : s.published.toNat ≤ s'.published.toNat) (hrec : s.records <+: s'.records) :
    r.Sound s' false := by
  cases r with
  | idle | began => trivial
  | next c | returned c => exact ⟨h.1.mono hpub hrec, h.2⟩
  | noted c before => exact Noted.mono h hgrows hpub hrec
  | copying c before stored words n =>
    refine ⟨h.1.mono hgrows hpub hrec, fun hversion => ?_⟩
    obtain ⟨hle, hsame⟩ := hgrows (slotOf c.seq)
    have hold : (s.slots (slotOf c.seq)).version = before := by
      have hnew := congrArg UInt64.toNat hversion
      exact UInt64.toNat_inj.1 (Nat.le_antisymm (hnew ▸ hle) h.1.le)
    rw [hsame (by rw [hold]; exact h.1.even) (hversion.trans hold.symm)]
    exact h.2 hold

theorem Call.Sound.loop (h : c.Sound s calm) : c.loop.Sound s calm := by
  unfold Call.loop
  split
  · exact ⟨h, ‹_›⟩
  · exact ⟨h, ‹_›⟩

theorem toNat_oldest (stop : UInt64) :
    (if stop > UInt64.ofNat logRingSlots then stop - UInt64.ofNat logRingSlots else 0).toNat =
      stop.toNat - logRingSlots := by
  have hslots : (UInt64.ofNat logRingSlots).toNat = logRingSlots := rfl
  split
  next hlt => rw [UInt64.toNat_sub_of_le _ _ (UInt64.le_of_lt hlt), hslots]
  next hle =>
    rw [gt_iff_lt, UInt64.lt_iff_toNat_lt, hslots] at hle
    simp only [UInt64.toNat_zero]
    omega

theorem Call.start_sound (since : UInt64) : (Call.start since s.published).Sound s calm := by
  have hfirst : (Call.start since s.published).first =
      (Call.start since s.published).seq.toNat := by
    have hold := toNat_oldest s.published
    simp only [Call.first, Call.start]
    generalize (if s.published > _ then _ else (_ : UInt64)) = oldest at hold ⊢
    split
    all_goals
      rename_i hlt
      rw [UInt64.lt_iff_toNat_lt] at hlt
      omega
  refine ⟨Nat.le_refl _, Nat.le_of_eq hfirst, ?_, nofun, List.Pairwise.nil, fun _ => ⟨rfl, ?_⟩⟩
  · rw [hfirst]
    exact Nat.le_max_left ..
  · rw [hfirst, Nat.sub_self]
    rfl

theorem Call.seq_succ (hlt : c.seq < c.stop) :
    (c.seq + 1).toNat = c.seq.toNat + 1 := by
  have := c.stop.toNat_lt
  rw [UInt64.lt_iff_toNat_lt] at hlt
  exact toNat_succ (by omega)

theorem Call.seq_last (hlt : c.seq < c.stop) :
    (c.seq + 1).toNat ≤ max c.first c.stop.toNat := by
  rw [Call.seq_succ hlt]
  exact Nat.le_trans (UInt64.lt_iff_toNat_lt.1 hlt) (Nat.le_max_right ..)

/-- A number is passed over, which takes a publish that overlaps the call. -/
theorem Call.Sound.skip (h : c.Sound s calm) (hlt : c.seq < c.stop) (hcalm : calm = false) :
    Call.Sound s calm { c with seq := c.seq + 1 } where
  stop := h.stop
  first := by
    rw [Call.seq_succ hlt]
    exact Nat.le_succ_of_le h.first
  last := Call.seq_last hlt
  out e he := by
    obtain ⟨hget, hsince, hseq, hstop⟩ := h.out e he
    refine ⟨hget, hsince, ?_, hstop⟩
    rw [UInt64.lt_iff_toNat_lt] at hseq ⊢
    rw [Call.seq_succ hlt]
    omega
  order := h.order
  calm hc := absurd hc (by rw [hcalm]; decide)

theorem Call.Sound.push (h : c.Sound s calm) (hlt : c.seq < c.stop) {words : Words}
    (hget : s.records[c.seq.toNat]? = some words) :
    Call.Sound s calm { c with seq := c.seq + 1, out := c.out ++ [⟨c.seq, words⟩] } := by
  have hsucc := Call.seq_succ hlt
  have hnow : c.seq < c.seq + 1 := by
    rw [UInt64.lt_iff_toNat_lt, hsucc]
    exact Nat.lt_succ_self _
  have hfirst := h.first
  constructor
  case stop => exact h.stop
  case first => exact Nat.le_trans h.first (by rw [hsucc]; exact Nat.le_succ _)
  case last => exact Call.seq_last hlt
  case out =>
    intro e he
    rcases mem_append.1 he with hold | hnew
    · obtain ⟨hget', hsince, hseq, hstop⟩ := h.out e hold
      exact ⟨hget', hsince, UInt64.lt_trans hseq hnow, hstop⟩
    · rw [mem_singleton.1 hnew]
      have hsince : c.since.toNat ≤ c.seq.toNat := Nat.le_trans (Nat.le_max_left ..) hfirst
      exact ⟨hget, UInt64.le_iff_toNat_le.2 hsince, hnow, hlt⟩
  case order =>
    refine pairwise_append.2 ⟨h.order, pairwise_singleton .., fun a ha b hb => ?_⟩
    rw [mem_singleton.1 hb]
    exact (h.out a ha).2.2.1
  case calm =>
    intro hc
    obtain ⟨hstop, hout⟩ := h.calm hc
    refine ⟨hstop, ?_⟩
    show (c.out ++ [(⟨c.seq, words⟩ : LogRingEntry)]).map (fun e => e.seq.toNat) =
      List.range' c.first ((c.seq + 1).toNat - c.first)
    rw [map_append, hout, hsucc, Nat.sub_add_comm hfirst, range'_1_concat,
      Nat.add_sub_cancel' hfirst]
    rfl

theorem and_one_ne_zero (v : UInt64) : v &&& 1 ≠ 0 ↔ v.toNat % 2 = 1 := by
  rw [Ne, ← UInt64.toNat_inj, UInt64.toNat_and, UInt64.toNat_one, UInt64.toNat_zero,
    Nat.and_one_is_mod]
  omega

/-- With no publish overlapping, the slot of the number that a call is at holds it. -/
theorem Call.Sound.at_rest (h : c.Sound s calm) (hw : Writes w s) (hlt : c.seq < c.stop)
    (hcalm : calm = true) (hidle : s.publisher = .idle) :
    (s.slots (slotOf c.seq)).seq = c.seq ∧ (s.slots (slotOf c.seq)).version.toNat % 2 = 0 := by
  have hstop := congrArg UInt64.toNat (h.calm hcalm).1
  have hfirst := h.first
  rw [UInt64.lt_iff_toNat_lt] at hlt
  have hlap : c.stop.toNat - logRingSlots ≤ c.seq.toNat :=
    Nat.le_trans (Nat.le_max_right ..) hfirst
  exact hw.at_rest hidle (by omega) (by omega)

/-- Every access of a call keeps what it has collected. -/
theorem Reader.Sound.step {r : Reader} (h : r.Sound s calm) (hw : Writes w s)
    (hcalm : calm = true → s.publisher = .idle) : (readerStep s r).Sound s calm := by
  cases r with
  | idle | returned => trivial
  | began since => exact (Call.start_sound since).loop
  | next c =>
    obtain ⟨hsound, hlt⟩ := h
    simp only [readerStep, and_one_ne_zero]
    split_ifs with hodd
    · refine (hsound.skip hlt (Bool.eq_false_iff.2 fun hc => ?_)).loop
      have := (hsound.at_rest hw hlt hc (hcalm hc)).2
      omega
    · exact ⟨hsound, hlt, by omega, Nat.le_refl _, fun _ => rfl⟩
  | noted c before => exact ⟨h, fun _ => ⟨rfl, nofun⟩⟩
  | copying c before stored words n =>
    obtain ⟨hnoted, hloaded⟩ := h
    simp only [readerStep]
    split
    case isTrue hn =>
      refine ⟨hnoted, fun hversion => ⟨(hloaded hversion).1, fun i hi => ?_⟩⟩
      by_cases heq : i = ⟨n, hn⟩
      · rw [heq, update_self]
      · have hne : i.val ≠ n := fun hv => heq (Fin.ext hv)
        rw [update_of_ne heq]
        exact (hloaded hversion).2 i (by omega)
    case isFalse hn =>
      split
      next hbad =>
        refine (hnoted.sound.skip hnoted.lt (Bool.eq_false_iff.2 fun hc => ?_)).loop
        have hversion := (hnoted.calm hc).symm
        have hrest := (hnoted.sound.at_rest hw hnoted.lt hc (hcalm hc)).1
        exact hbad.elim (· hversion) (· ((hloaded hversion).1.trans hrest))
      next hgood =>
        rw [not_or, not_not, not_not] at hgood
        obtain ⟨hversion, hstored⟩ := hgood
        obtain ⟨hseq, hwords⟩ := hloaded hversion
        have hall : words = (s.slots (slotOf c.seq)).words :=
          funext fun i => hwords i (Nat.lt_of_lt_of_le i.isLt (Nat.le_of_not_lt hn))
        have hlt := hnoted.lt
        rw [UInt64.lt_iff_toNat_lt] at hlt
        refine (hnoted.sound.push hnoted.lt ?_).loop
        rw [hall]
        exact hw.read (Nat.lt_of_lt_of_le hlt hnoted.sound.stop)
          (by rw [hversion]; exact hnoted.even) (hseq.symm.trans hstored)

theorem publisherStep_keeps (s : LogRing) : (publisherStep s).records = s.records := by
  unfold publisherStep
  split
  case h_4 =>
    split <;> rfl
  all_goals rfl

theorem Writes.published_mono (h : Writes w s) (hfew : s.records.length < 2 ^ 64) :
    s.published.toNat ≤ (publisherStep s).published.toNat := by
  unfold publisherStep
  split
  case h_4 =>
    split <;> exact Nat.le_refl _
  case h_5 seq hphase =>
    have hpub := h.published
    have hlen := h.publisher
    rw [hphase] at hpub hlen
    have := hlen.2
    rw [hpub]
    exact Nat.le_trans (Nat.le_succ _) (Nat.le_of_eq (toNat_succ (by omega)).symm)
  all_goals exact Nat.le_refl _

end Reading

/-! ## Runs -/

section Runs

variable {τ : Type} [DecidableEq τ] {s s' : State τ}

structure Inv (s : State τ) : Prop where
  writes : ∃ w, Writes w s.ring
  readers : ∀ t, (s.readers t).Sound s.ring (s.calm t)
  calm : ∀ t, s.calm t = true → s.ring.publisher = .idle

omit [DecidableEq τ] in
theorem Inv.publish (h : Inv s) (r : Words) (hidle : s.ring.publisher = .idle) :
    Inv { s with
      ring := { s.ring with publisher := .bump r s.ring.published, records := s.ring.records ++ [r] }
      calm := fun _ => false } := by
  obtain ⟨w, hw⟩ := h.writes
  have hpub := hw.published
  have hknows := hw.publisher
  rw [hidle] at hpub hknows
  have hpub : s.ring.published.toNat = s.ring.records.length := hpub
  refine ⟨⟨w, rfl, ⟨?_, ?_, ?_⟩, hw.versions, fun k hk hlap => ?_⟩, fun t => ?_, nofun⟩
  · rw [hpub]
    exact hknows
  · rw [length_append, hpub]
    rfl
  · rw [hpub, getElem?_concat_length]
  · obtain ⟨hseq, hget⟩ := hw.holds k hk hlap
    refine ⟨hseq, ?_⟩
    rw [getElem?_append_left (List.getElem?_eq_some_iff.1 hget).1, hget]
  · exact (h.readers t).mono (Grows.refl _) (Nat.le_refl _) (prefix_append ..)

theorem Inv.step (h : Inv s) (hs : Step s s') (hfew : s'.ring.records.length < 2 ^ 64) :
    Inv s' := by
  cases hs with
  | publish r hidle => exact h.publish r hidle
  | publisher =>
    obtain ⟨w, hw⟩ := h.writes
    have hrec := publisherStep_keeps s.ring
    have hfew : s.ring.records.length < 2 ^ 64 := hrec ▸ hfew
    obtain ⟨hgrows, hw'⟩ := hw.step hfew
    refine ⟨hw', fun t => ?_, nofun⟩
    exact (h.readers t).mono hgrows (hw.published_mono hfew) (hrec ▸ prefix_rfl)
  | call t since _ =>
    refine ⟨h.writes, fun u => ?_, ?_⟩
    · by_cases hu : u = t
      · simp only [hu, update_self]
        trivial
      · simp only [update_of_ne hu]
        exact h.readers u
    · refine (forall_update_iff s.calm fun _ b => b = true → s.ring.publisher = .idle).2
        ⟨fun hu => ?_, fun u _ => h.calm u⟩
      cases hphase : s.ring.publisher with
      | idle => rfl
      | _ =>
        rw [hphase] at hu
        cases hu
  | reader t =>
    obtain ⟨w, hw⟩ := h.writes
    refine ⟨⟨w, hw⟩, ?_, h.calm⟩
    exact (forall_update_iff s.readers fun u r => r.Sound s.ring (s.calm u)).2
      ⟨(h.readers t).step hw (h.calm t), fun u _ => h.readers u⟩

theorem records_step (hs : Step s s') : s.ring.records <+: s'.ring.records := by
  cases hs with
  | publish r => exact prefix_append ..
  | publisher => exact (publisherStep_keeps s.ring) ▸ prefix_rfl
  | call | reader => exact prefix_rfl

theorem Run.inv (h : Run s) (hfew : s.ring.records.length < 2 ^ 64) : Inv s := by
  induction h with
  | start =>
    refine ⟨⟨0, rfl, rfl, fun i => ⟨Nat.zero_le _, ?_⟩, fun k hk => absurd hk (by omega)⟩,
      fun _ => trivial, nofun⟩
    exact ⟨fun hc : 0 % 2 = 1 => absurd hc (by decide), fun hc => absurd hc.1 (by decide)⟩
  | step hrun hs ih => exact (ih (Nat.lt_of_le_of_lt (records_step hs).length_le hfew)).step hs hfew

/-- With fewer than `2 ^ 64` publishes: what a call returns are records under their own numbers,
in order and in the range asked for, and all of that range if no publish overlaps the call. -/
theorem copySince_sound {t : τ} {c : Call} (h : Run s) (hfew : s.ring.records.length < 2 ^ 64)
    (ht : s.readers t = .returned c) :
    (∀ e ∈ c.out, s.ring.records[e.seq.toNat]? = some e.words ∧ c.since ≤ e.seq ∧
      e.seq < c.stop) ∧
    c.out.Pairwise (fun a b => a.seq < b.seq) ∧
    (s.calm t = true → c.out.map (fun e => e.seq.toNat) =
      List.range' c.first (c.stop.toNat - c.first)) := by
  have hsound := (h.inv hfew).readers t
  rw [ht] at hsound
  obtain ⟨hsound, hend⟩ := hsound
  refine ⟨fun e he => ?_, hsound.order, fun hcalm => ?_⟩
  · obtain ⟨hget, hsince, -, hstop⟩ := hsound.out e he
    exact ⟨hget, hsince, hstop⟩
  · have hlast := hsound.last
    rw [UInt64.lt_iff_toNat_lt] at hend
    rw [(hsound.calm hcalm).2]
    congr 1
    omega

end Runs

/-! ## Calls left alone -/

section Alone

variable {τ : Type} [DecidableEq τ] {s : State τ} {r : Words}

/-- The ring after a whole publish. -/
def LogRing.posted (ring : LogRing) (r : Words) : LogRing where
  slots := update ring.slots (slotOf ring.published)
    ⟨(ring.slots (slotOf ring.published)).version + 1 + 1, ring.published, r⟩
  published := ring.published + 1
  publisher := .idle
  records := ring.records ++ [r]

/-- The first `n` words of one record and the others of another. -/
def spliced (n : Nat) (a b : Words) : Words := fun i => if i.val < n then a i else b i

theorem spliced_succ {n : Nat} (hn : n < logRecordWords) (a b : Words) :
    update (spliced n a b) ⟨n, hn⟩ (a ⟨n, hn⟩) = spliced (n + 1) a b := by
  funext i
  by_cases hi : i = ⟨n, hn⟩
  · rw [hi, update_self]
    simp [spliced]
  · have hne : i.val ≠ n := fun hv => hi (Fin.ext hv)
    rw [update_of_ne hi, spliced, spliced]
    congr 1
    simp only [eq_iff_iff]
    omega

theorem spliced_all (a b : Words) : spliced logRecordWords a b = a :=
  funext fun i => if_pos i.isLt

theorem Run.store_words {slots : Nat → Slot} {published seq : UInt64} {records : List Words}
    {readers : τ → Reader} {slot : Slot} {n : Nat} (hn : n ≤ logRecordWords)
    (h : Run ⟨⟨update slots (slotOf seq) slot, published, .store r seq 0, records⟩,
      readers, fun _ => false⟩) :
    Run ⟨⟨update slots (slotOf seq) { slot with words := spliced n r slot.words },
      published, .store r seq n, records⟩, readers, fun _ => false⟩ := by
  induction n with
  | zero => exact h
  | succ n ih =>
    have hstep := (ih (by omega)).step .publisher
    simp only [publisherStep, LogRing.setSlot, update_self, update_idem,
      dif_pos (show n < logRecordWords from hn), spliced_succ] at hstep
    exact hstep

theorem Run.publish_alone (h : Run s) (hidle : s.ring.publisher = .idle) (r : Words) :
    Run { s with ring := s.ring.posted r, calm := fun _ => false } := by
  have hnumber := ((h.step (.publish r hidle)).step .publisher).step .publisher
  simp only [publisherStep, LogRing.setSlot, update_self, update_idem] at hnumber
  have hposted := ((hnumber.store_words (Nat.le_refl _)).step .publisher).step .publisher
  simp only [publisherStep, LogRing.setSlot, update_self, update_idem,
    dif_neg (Nat.lt_irrefl _), spliced_all] at hposted
  exact hposted

theorem Run.read {t : τ} {x : Reader} (h : Run s) (ht : s.readers t = x) {y : Reader}
    (hstep : readerStep s.ring x = y) :
    Run { s with readers := update s.readers t y } := by
  subst hstep ht
  exact h.step (.reader t)

/-- A reader that has some words loads the others. -/
theorem Run.copy_words {c : Call} {before stored : UInt64} {n : Nat} (hn : n ≤ logRecordWords)
    {t : τ} {words : Words} (h : Run s) (ht : s.readers t = .copying c before stored words n) :
    Run { s with readers := update s.readers t (.copying c before stored
      (spliced n words (s.ring.slots (slotOf c.seq)).words) logRecordWords) } := by
  induction hn using Nat.decreasingInduction generalizing s words with
  | self =>
    rw [spliced_all, ← ht, update_eq_self]
    exact h
  | of_succ n hn ih =>
    have hnext := ih (h.read ht (dif_pos hn)) (update_self ..)
    rw [update_idem] at hnext
    convert hnext using 4
    funext i
    by_cases hi : i = ⟨n, hn⟩
    · simp [hi, spliced]
    · have hne : i.val ≠ n := fun hv => hi (Fin.ext hv)
      simp only [spliced, update_of_ne hi]
      congr 1
      simp only [eq_iff_iff]
      omega

/-- The last record of a call, found good. -/
theorem Run.finish_copy {c : Call} {before : UInt64} {n : Nat} (hn : n ≤ logRecordWords) {t : τ}
    {words : Words} (h : Run s) (ht : s.readers t = .copying c before c.seq words n)
    (hversion : (s.ring.slots (slotOf c.seq)).version = before) (hlast : ¬ c.seq + 1 < c.stop) :
    Run { s with readers := update s.readers t (.returned { c with
      seq := c.seq + 1
      out := c.out ++ [⟨c.seq, spliced n words (s.ring.slots (slotOf c.seq)).words⟩] }) } := by
  have hstep := (h.copy_words hn ht).step (.reader t)
  simp only [update_self, update_idem, readerStep, dif_neg (Nat.lt_irrefl _),
    hversion, ne_eq, not_true_eq_false, or_self, if_false, Call.loop, hlast] at hstep
  exact hstep

end Alone

/-- A call that finds one record, after it has loaded the first word. -/
theorem exists_copying (a : Words) :
    ∃ (s : State Unit) (words : Words), Run s ∧ s.ring = LogRing.posted {} a ∧
      s.readers () = .copying ⟨0, 1, 0, []⟩ 2 0 words 1 ∧
      words ⟨0, by decide⟩ = a ⟨0, by decide⟩ := by
  have hposted : Run ({ ring := LogRing.posted {} a } : State Unit) :=
    Run.start.publish_alone rfl a
  have hbegan := hposted.step (.call () 0 rfl)
  have hnext := @Run.read _ _ _ () (.began 0) hbegan rfl (.next ⟨0, 1, 0, []⟩) rfl
  have hnoted := @Run.read _ _ _ () _ hnext rfl (.noted ⟨0, 1, 0, []⟩ 2)
    (if_neg (show ¬ (2 : UInt64) &&& 1 ≠ 0 by decide))
  have hcopying := @Run.read _ _ _ () _ hnoted rfl _ rfl
  exact ⟨_, _, @Run.read _ _ _ () _ hcopying rfl _ rfl, rfl, rfl, update_self ..⟩

/-- One record, copied with nobody in the way. -/
theorem copySince_sound_one :
    ∃ (s : State Unit) (e : LogRingEntry), s.readers () = .returned ⟨0, 1, 1, [e]⟩ ∧
      s.ring.records[e.seq.toNat]? = some e.words := by
  obtain ⟨s, words, hrun, hring, hcopying, -⟩ := exists_copying fun _ => 7
  have hreturned := hrun.finish_copy (by decide) hcopying (by rw [hring]; rfl) (by decide)
  have hsound := copySince_sound (t := ()) hreturned (by rw [hring]; decide) rfl
  exact ⟨_, _, rfl, (hsound.1 _ (mem_singleton_self _)).1⟩

/-- The ring after the publish of `a` and `n` of `b`; `m` of those went to the first slot. -/
structure Lapped (a b : Words) (n m : Nat) (ring : LogRing) : Prop where
  publisher : ring.publisher = .idle
  published : ring.published = 1 + UInt64.ofNat n
  version : (ring.slots 0).version = 2 + 2 * UInt64.ofNat m
  words : 0 < m → (ring.slots 0).words = b
  records : ∀ r ∈ ring.records, r = a ∨ r = b

theorem Lapped.posted {a b : Words} {n m : Nat} {ring : LogRing} (h : Lapped a b n m ring) :
    Lapped a b (n + 1) (m + if slotOf (1 + UInt64.ofNat n) = 0 then 1 else 0) (ring.posted b) := by
  have hpublished : (ring.posted b).published = 1 + UInt64.ofNat (n + 1) := by
    rw [LogRing.posted, h.published, UInt64.ofNat_add, ← UInt64.add_assoc]
    rfl
  have hrecords : ∀ r ∈ (ring.posted b).records, r = a ∨ r = b := by
    intro r hr
    rcases mem_append.1 hr with hold | hnew
    · exact h.records r hold
    · exact .inr (mem_singleton.1 hnew)
  split_ifs with hslot
  · have hfirst : (ring.posted b).slots 0 = ⟨(ring.slots 0).version + 1 + 1, ring.published, b⟩ := by
      rw [LogRing.posted, h.published, hslot]
      rfl
    refine ⟨rfl, hpublished, ?_, fun _ => by rw [hfirst], hrecords⟩
    rw [hfirst, h.version, UInt64.ofNat_add, UInt64.mul_add, UInt64.add_assoc, UInt64.add_assoc]
    rfl
  · have hfirst : (ring.posted b).slots 0 = ring.slots 0 := by
      rw [LogRing.posted, h.published]
      exact update_of_ne (a := 0) (Ne.symm hslot) ..
    exact ⟨rfl, hpublished, by rw [hfirst]; exact h.version, by rw [hfirst]; exact h.words, hrecords⟩

/-- Any number of publishes go through the first slot while a reader stands still. -/
theorem exists_lapped {a b : Words} {s : State Unit} (hrun : Run s)
    (hring : s.ring = LogRing.posted {} a) (m : Nat) :
    ∃ s' n, Run s' ∧ s'.readers = s.readers ∧ Lapped a b n m s'.ring := by
  have hall : ∀ n, ∃ s', Run s' ∧ s'.readers = s.readers ∧
      Lapped a b n (Nat.count (fun k => slotOf (1 + UInt64.ofNat k) = 0) n) s'.ring := by
    intro n
    induction n with
    | zero =>
      refine ⟨s, hrun, rfl, ?_⟩
      rw [hring]
      exact ⟨rfl, rfl, rfl, fun h => absurd h (by simp), fun r hr => .inl (mem_singleton.1 hr)⟩
    | succ n ih =>
      obtain ⟨s', hrun', hreaders, hlapped⟩ := ih
      refine ⟨_, hrun'.publish_alone hlapped.publisher b, hreaders, ?_⟩
      rw [Nat.count_succ]
      exact hlapped.posted
  have hinfinite : (Set.ofPred fun k => slotOf (1 + UInt64.ofNat k) = 0).Infinite := by
    refine Set.infinite_of_forall_exists_gt fun k => ⟨2 ^ 64 * (k + 1) - 1, ?_, by omega⟩
    have hwrap : 1 + UInt64.ofNat (2 ^ 64 * (k + 1) - 1) = 0 := by
      refine UInt64.toNat_inj.1 ?_
      rw [UInt64.toNat_add, UInt64.toNat_ofNat', UInt64.toNat_one, UInt64.toNat_zero]
      omega
    show slotOf _ = 0
    rw [hwrap]
    rfl
  obtain ⟨s', hrun', hreaders, hlapped⟩ := hall (Nat.nth _ m)
  rw [Nat.count_nth_of_infinite hinfinite] at hlapped
  exact ⟨s', _, hrun', hreaders, hlapped⟩

/-- A reader that is overtaken by `2 ^ 63` writes of its slot finds its version again: the entry
has the first word of one record and the others of another. -/
theorem torn_copy :
    ∃ (s : State Unit) (c : Call), Run s ∧ s.readers () = .returned c ∧
      ∃ e ∈ c.out, e.words ∉ s.ring.records := by
  obtain ⟨s, words, hrun, hring, hcopying, hword⟩ := exists_copying fun _ => 1
  obtain ⟨s', n, hrun', hreaders, hlapped⟩ := exists_lapped (b := fun _ => 2) hrun hring (2 ^ 63)
  have hcopying' := (congrFun hreaders ()).trans hcopying
  have hreturned := hrun'.finish_copy (by decide) hcopying' (hlapped.version.trans rfl) (by decide)
  refine ⟨_, _, hreturned, rfl, _, mem_singleton_self _, fun hmem => ?_⟩
  rcases hlapped.records _ hmem with ha | hb
  · have hsecond : (s'.ring.slots 0).words ⟨1, by decide⟩ = 1 := congrFun ha ⟨1, by decide⟩
    rw [hlapped.words (by decide)] at hsecond
    exact absurd hsecond (by decide)
  · have hone : words ⟨0, by decide⟩ = 2 := congrFun hb ⟨0, by decide⟩
    rw [hword] at hone
    exact absurd hone (by decide)

end Satellite.Log.Ring
