import Satellite.Lib.Streams
import Satellite.Pointer.Mpsc

/-!
# The queue word by word

`MpscQueue` of `core/mpsc_queue.h` as its threads access it: one ticket and one item a cell,
two positions and the drop counter, every load, store and compare-and-swap a step of its own.
The queue by positions is the meaning of these words, and each step is one of its moves.
-/

namespace Satellite.Pointer.Tickets

open Function List MpscQueue

/-- `Capacity`, with what the class asserts of it. -/
structure Capacity where
  size : UInt64
  two_le : 2 ≤ size.toNat
  power : size &&& (size - 1) = 0

/-- The words of the queue; a cell is known by its index. -/
structure Words (α : Type) where
  sequence : Nat → UInt64
  item : Nat → α
  enqueuePos : UInt64 := 0
  dequeuePos : UInt64 := 0
  dropped : UInt64 := 0

/-- Where a producer is in `push`, by the access that comes next. -/
inductive Producer (α : Type)
  | idle
  | load (item : α)
  | check (item : α) (pos : UInt64)
  | claim (item : α) (pos : UInt64)
  | fill (item : α) (pos : UInt64)
  | publish (item : α) (pos : UInt64)
  | drop (item : α)
  deriving DecidableEq

/-- Where the consumer is in `pop`. -/
inductive Consumer (α : Type)
  | idle
  | load
  | check (pos : UInt64)
  | read (pos : UInt64)
  | release (pos : UInt64) (out : α)
  | finish (pos : UInt64) (out : α)
  deriving DecidableEq

structure State (τ α : Type) where
  words : Words α
  producers : τ → Producer α
  consumer : Consumer α

/-- What an observer of the calls notes of a step. -/
inductive Event (α : Type)
  | pushed (item : α)
  | claimed (pos : UInt64) (item : α)
  | published (pos : UInt64) (item : α)
  | refused (item : α)
  | released (item : α)
  | popped (item : α)
  | quiet

/-- `cells_[pos & MASK]` -/
def Capacity.index (c : Capacity) (pos : UInt64) : Nat := (pos &&& (c.size - 1)).toNat

section Moves

variable {τ α : Type} [DecidableEq τ]

/-- What `push` does with the ticket it loaded. -/
def verdict (item : α) (pos sequence : UInt64) : Producer α :=
  let lag := (sequence - pos).toInt64
  if lag = 0 then .claim item pos else if lag < 0 then .drop item else .load item

/-- What `pop` does with the ticket it loaded. -/
def popVerdict (pos sequence : UInt64) : Consumer α :=
  if sequence = pos + 1 then .read pos else .idle

def State.put (s : State τ α) (t : τ) (p : Producer α) : State τ α :=
  { s with producers := update s.producers t p }

def Words.store (w : Words α) (i : Nat) (sequence : UInt64) : Words α :=
  { w with sequence := update w.sequence i sequence }

def Words.write (w : Words α) (i : Nat) (item : α) : Words α :=
  { w with item := update w.item i item }

/-- One access of one thread. The compare-and-swap is weak: it may fail on an equal value. -/
inductive Step (c : Capacity) (s : State τ α) : Event α → State τ α → Prop
  | push {t : τ} (item : α) : s.producers t = .idle → Step c s (.pushed item) (s.put t (.load item))
  | load {t : τ} {item : α} : s.producers t = .load item →
      Step c s .quiet (s.put t (.check item s.words.enqueuePos))
  | check {t : τ} {item : α} {pos : UInt64} : s.producers t = .check item pos →
      Step c s .quiet (s.put t (verdict item pos (s.words.sequence (c.index pos))))
  | claim {t : τ} {item : α} {pos : UInt64} : s.producers t = .claim item pos →
      s.words.enqueuePos = pos →
      Step c s (.claimed pos item)
        { s.put t (.fill item pos) with words := { s.words with enqueuePos := pos + 1 } }
  | retry {t : τ} {item : α} {pos : UInt64} : s.producers t = .claim item pos →
      Step c s .quiet (s.put t (.check item s.words.enqueuePos))
  | fill {t : τ} {item : α} {pos : UInt64} : s.producers t = .fill item pos →
      Step c s .quiet
        { s.put t (.publish item pos) with words := s.words.write (c.index pos) item }
  | publish {t : τ} {item : α} {pos : UInt64} : s.producers t = .publish item pos →
      Step c s (.published pos item)
        { s.put t .idle with words := s.words.store (c.index pos) (pos + 1) }
  | drop {t : τ} {item : α} : s.producers t = .drop item →
      Step c s (.refused item)
        { s.put t .idle with words := { s.words with dropped := s.words.dropped + 1 } }
  | pop : s.consumer = .idle → Step c s .quiet { s with consumer := .load }
  | popLoad : s.consumer = .load →
      Step c s .quiet { s with consumer := .check s.words.dequeuePos }
  | popCheck {pos : UInt64} : s.consumer = .check pos →
      Step c s .quiet { s with consumer := popVerdict pos (s.words.sequence (c.index pos)) }
  | popRead {pos : UInt64} : s.consumer = .read pos →
      Step c s .quiet { s with consumer := .release pos (s.words.item (c.index pos)) }
  | popRelease {pos : UInt64} {out : α} : s.consumer = .release pos out →
      Step c s (.released out)
        { s with
          consumer := .finish pos out
          words := s.words.store (c.index pos) (pos + c.size) }
  | popFinish {pos : UInt64} {out : α} : s.consumer = .finish pos out →
      Step c s (.popped out)
        { s with consumer := .idle, words := { s.words with dequeuePos := pos + 1 } }

/-- The calls so far: items pushed, items by claimed position, items refused and returned. -/
structure Tally (α : Type) where
  pushed : List α := []
  claimed : List α := []
  refused : List α := []
  popped : List α := []

def Tally.note (l : Tally α) : Event α → Tally α
  | .pushed item => { l with pushed := l.pushed ++ [item] }
  | .claimed _ item => { l with claimed := l.claimed ++ [item] }
  | .refused item => { l with refused := l.refused ++ [item] }
  | .popped item => { l with popped := l.popped ++ [item] }
  | .published .. | .released _ | .quiet => l

/-- The constructed queue: cell `i` carries ticket `i`, the items are whatever they are. -/
def initial (items : Nat → α) : State τ α where
  words := { sequence := UInt64.ofNat, item := items }
  producers := fun _ => .idle
  consumer := .idle

inductive Run (c : Capacity) (items : Nat → α) : Tally α → State τ α → Prop
  | start : Run c items {} (initial items)
  | step {l : Tally α} {s s' : State τ α} {e : Event α} :
      Run c items l s → Step c s e s' → Run c items (l.note e) s'

end Moves

section Arithmetic

/-- A number that shares no bit with its predecessor is a power of two. -/
theorem eq_two_pow_log2 {n : Nat} (hpos : 0 < n) (h : n &&& (n - 1) = 0) : n = 2 ^ n.log2 := by
  have hle : 2 ^ n.log2 ≤ n := Nat.log2_self_le (Nat.ne_of_gt hpos)
  have hone := Nat.two_pow_pos n.log2
  by_contra hne
  -- otherwise the predecessor still has the leading bit
  have hlog : (n - 1).log2 = n.log2 := by
    rw [Nat.log2_eq_iff (by omega)]
    have hlt := Nat.lt_log2_self (n := n)
    omega
  have hbit : n.testBit n.log2 = true := Nat.testBit_log2 (Nat.ne_of_gt hpos)
  have hbit' : (n - 1).testBit n.log2 = true := by
    rw [← hlog]
    exact Nat.testBit_log2 (by omega)
  have hand := congrArg (fun m => m.testBit n.log2) h
  simp [Nat.testBit_and, hbit, hbit'] at hand

theorem Capacity.index_eq (c : Capacity) (pos : UInt64) :
    c.index pos = pos.toNat % c.size.toNat := by
  have htwo := c.two_le
  have hmask : (c.size - 1).toNat = c.size.toNat - 1 := by
    refine UInt64.toNat_sub_of_le _ _ ?_
    rw [UInt64.le_iff_toNat_le]
    exact Nat.le_of_succ_le htwo
  have hand : c.size.toNat &&& (c.size.toNat - 1) = 0 := by
    rw [← hmask, ← UInt64.toNat_and, c.power]
    rfl
  have hpow := eq_two_pow_log2 (by omega) hand
  rw [Capacity.index, UInt64.toNat_and, hmask, hpow, Nat.and_two_pow_sub_one_eq_mod]

theorem toInt_lag {sequence pos : UInt64} (hs : sequence.toNat < 2 ^ 63) (hp : pos.toNat < 2 ^ 63) :
    (sequence - pos).toInt64.toInt = (sequence.toNat : Int) - pos.toNat := by
  have hint : (sequence - pos).toInt64.toInt = ((sequence - pos).toNat : Int).bmod (2 ^ 64) :=
    BitVec.toInt_eq_toNat_bmod _
  rw [hint, UInt64.toNat_sub, Int.bmod_def]
  simp only [Nat.reducePow] at *
  omega

variable {α : Type}

/-- Below `2 ^ 63` the sign of the lag is the order of the ticket and the position. -/
theorem verdict_eq (item : α) {pos sequence : UInt64} (hs : sequence.toNat < 2 ^ 63)
    (hp : pos.toNat < 2 ^ 63) :
    verdict item pos sequence =
      if sequence.toNat = pos.toNat then .claim item pos
      else if sequence.toNat < pos.toNat then .drop item else .load item := by
  have hlag := toInt_lag hs hp
  have hzero : (sequence - pos).toInt64 = 0 ↔ sequence.toNat = pos.toNat := by
    rw [← Int64.toInt_inj, hlag, Int64.toInt_zero]
    omega
  have hneg : (sequence - pos).toInt64 < 0 ↔ sequence.toNat < pos.toNat := by
    rw [Int64.lt_iff_toInt_lt, hlag, Int64.toInt_zero]
    omega
  simp only [verdict, hzero, hneg]

theorem toNat_succ {pos : UInt64} (h : pos.toNat < 2 ^ 63) : (pos + 1).toNat = pos.toNat + 1 := by
  rw [UInt64.toNat_add]
  exact Nat.mod_eq_of_lt (by simp only [UInt64.toNat_one]; omega)

end Arithmetic

section Meaning

variable {τ α : Type}

/-- The words mean a queue by positions: the ticket of a position of the current lap is the
position while its item is missing, and the next number once it is there. -/
structure Means (c : Capacity) (w : Words α) (q : MpscQueue α) : Prop where
  enqueue : w.enqueuePos.toNat = q.cells.length
  low : q.dequeuePos ≤ q.cells.length
  high : q.cells.length ≤ q.dequeuePos + c.size.toNat
  free : ∀ p, q.cells.length ≤ p → p < q.dequeuePos + c.size.toNat →
    (w.sequence (p % c.size.toNat)).toNat = p
  hole : ∀ p, q.Hole p → (w.sequence (p % c.size.toNat)).toNat = p
  waits : ∀ p x, q.Waits p x →
    (w.sequence (p % c.size.toNat)).toNat = p + 1 ∧ w.item (p % c.size.toNat) = x

/-- What a producer knows where it stands. -/
def Producer.Knows (c : Capacity) (w : Words α) (q : MpscQueue α) (claimed : List α) :
    Producer α → Prop
  | .idle | .load _ | .drop _ => True
  -- a position read earlier is only a bound
  | .check _ pos => pos.toNat ≤ q.cells.length
  | .claim _ pos => pos.toNat ≤ q.cells.length ∧ pos.toNat < q.dequeuePos + c.size.toNat
  | .fill item pos => q.Hole pos.toNat ∧ claimed[pos.toNat]? = some item
  | .publish item pos =>
    q.Hole pos.toNat ∧ claimed[pos.toNat]? = some item ∧
      w.item (pos.toNat % c.size.toNat) = item

/-- The position a producer has claimed and not published. -/
def Producer.owned : Producer α → Option Nat
  | .fill _ pos | .publish _ pos => some pos.toNat
  | _ => none

def Consumer.Knows (w : Words α) (q : MpscQueue α) : Consumer α → Prop
  | .idle | .load => True
  | .check pos => pos = w.dequeuePos
  | .read pos => pos = w.dequeuePos ∧ ∃ x, q.Waits q.dequeuePos x
  | .release pos out => pos = w.dequeuePos ∧ q.Waits q.dequeuePos out
  | .finish pos _ => pos = w.dequeuePos

/-- The item taken out of its cell and not yet returned. -/
def Consumer.inHand : Consumer α → List α
  | .finish _ out => [out]
  | _ => []

structure Inv (c : Capacity) (claimed popped : List α) (q : MpscQueue α) (s : State τ α) :
    Prop where
  means : Means c s.words q
  claims : claimed.length = q.cells.length
  contents : ∀ p x, q.Waits p x → claimed[p]? = some x
  producers : ∀ t, (s.producers t).Knows c s.words q claimed
  alone : ∀ t u p, (s.producers t).owned = some p → (s.producers u).owned = some p → t = u
  owner : ∀ p, q.Hole p → ∃ t, (s.producers t).owned = some p
  consumer : s.consumer.Knows s.words q
  head : s.words.dequeuePos.toNat + s.consumer.inHand.length = q.dequeuePos
  returned : popped ++ s.consumer.inHand = claimed.take q.dequeuePos

/-- A move of the queue by positions, as the event of a step tells it. -/
inductive Moves (c : Capacity) (q : MpscQueue α) : Event α → MpscQueue α → Prop
  | claimed {pos : UInt64} {item : α} {q' : MpscQueue α} :
      q.claim c.size.toNat = some (pos.toNat, q') → Moves c q (.claimed pos item) q'
  | published {pos : UInt64} {item : α} :
      q.Hole pos.toNat → Moves c q (.published pos item) (q.publish pos.toNat item)
  | released {item : α} {q' : MpscQueue α} :
      q.pop = some (item, q') → Moves c q (.released item) q'
  | pushed {item : α} : Moves c q (.pushed item) q
  | refused {item : α} : Moves c q (.refused item) q
  | popped {item : α} : Moves c q (.popped item) q
  | quiet : Moves c q .quiet q

/-- The queues by positions that moves lead to. -/
inductive Played (c : Capacity) : MpscQueue α → Prop
  | start : Played c {}
  | move {q q' : MpscQueue α} {e : Event α} : Played c q → Moves c q e q' → Played c q'

variable {c : Capacity} {w : Words α} {q : MpscQueue α} {pos : UInt64} {item : α}

theorem Words.store_self (w : Words α) (i : Nat) (v : UInt64) :
    (w.store i v).sequence i = v := update_self ..

theorem Words.store_of_ne {i j : Nat} {v : UInt64} (h : j ≠ i) :
    (w.store i v).sequence j = w.sequence j := update_of_ne h ..

theorem Words.write_self (w : Words α) (i : Nat) (x : α) :
    (w.write i x).item i = x := update_self ..

theorem Words.write_of_ne {i j : Nat} {x : α} (h : j ≠ i) :
    (w.write i x).item j = w.item j := update_of_ne h ..

theorem hole_lt {p : Nat} (h : q.Hole p) : p < q.cells.length :=
  (List.getElem?_eq_some_iff.1 h.2).1

theorem waits_lt {p : Nat} {x : α} (h : q.Waits p x) : p < q.cells.length :=
  (List.getElem?_eq_some_iff.1 h.2).1

theorem hole_or_waits {p : Nat} (hd : q.dequeuePos ≤ p) (hp : p < q.cells.length) :
    q.Hole p ∨ ∃ x, q.Waits p x := by
  cases hc : q.cells[p] with
  | none => exact .inl ⟨hd, by rw [getElem?_eq_getElem hp, hc]⟩
  | some x => exact .inr ⟨x, hd, by rw [getElem?_eq_getElem hp, hc]⟩

theorem Means.hole_lap (h : Means c w q) {p : Nat} (hp : q.Hole p) :
    q.dequeuePos ≤ p ∧ p < q.dequeuePos + c.size.toNat :=
  ⟨hp.1, Nat.lt_of_lt_of_le (hole_lt hp) h.high⟩

theorem Means.waits_lap (h : Means c w q) {p : Nat} {x : α} (hp : q.Waits p x) :
    q.dequeuePos ≤ p ∧ p < q.dequeuePos + c.size.toNat :=
  ⟨hp.1, Nat.lt_of_lt_of_le (waits_lt hp) h.high⟩

/-- The ticket of any cell: its position in the current lap, or the number after it once the
item of that position waits. -/
theorem Means.ticket (h : Means c w q) (i : Nat) :
    ∃ p, q.dequeuePos ≤ p ∧ p < q.dequeuePos + c.size.toNat ∧
      p % c.size.toNat = i % c.size.toNat ∧
      ((w.sequence (i % c.size.toNat)).toNat = p ∨
        (w.sequence (i % c.size.toNat)).toNat = p + 1 ∧ ∃ x, q.Waits p x) := by
  have htwo := c.two_le
  obtain ⟨p, hd, hp, hmod⟩ := exists_lap (by omega : 0 < c.size.toNat) q.dequeuePos i
  refine ⟨p, hd, hp, hmod, ?_⟩
  rw [← hmod]
  by_cases hlen : q.cells.length ≤ p
  · exact .inl (h.free p hlen hp)
  · rcases hole_or_waits hd (by omega) with hhole | ⟨x, hx⟩
    · exact .inl (h.hole p hhole)
    · exact .inr ⟨(h.waits p x hx).1, x, hx⟩

theorem Means.ticket_lt (h : Means c w q) (hfew : q.cells.length + c.size.toNat ≤ 2 ^ 63)
    (i : Nat) : (w.sequence (i % c.size.toNat)).toNat < 2 ^ 63 := by
  have htwo := c.two_le
  have hlow := h.low
  obtain ⟨p, -, hp, -, hp' | ⟨hp', x, hx⟩⟩ := h.ticket i
  · omega
  · have := waits_lt hx
    omega

/-- A ticket equal to the position: the position is in the current lap. -/
theorem Means.lap_of_ticket_eq (h : Means c w q) {n : Nat}
    (ht : (w.sequence (n % c.size.toNat)).toNat = n) : n < q.dequeuePos + c.size.toNat := by
  obtain ⟨p, -, hp, hmod, hp' | ⟨hp', -⟩⟩ := h.ticket n
  · omega
  · have hn : n = p + 1 := by omega
    rw [hn] at hmod
    exact absurd hmod (mod_succ_ne c.two_le)

/-- A ticket below the position: the queue holds a whole lap. -/
theorem Means.full_of_ticket_lt (h : Means c w q) {n : Nat} (hn : n ≤ q.cells.length)
    (ht : (w.sequence (n % c.size.toNat)).toNat < n) :
    q.dequeuePos + c.size.toNat ≤ q.cells.length := by
  obtain ⟨p, hd, -, hmod, hp⟩ := h.ticket n
  have hlt : p < n := by omega
  have := lap_le hlt hmod
  omega

/-- A ticket one above the head: its item waits. -/
theorem Means.waits_of_ticket_succ (h : Means c w q)
    (ht : (w.sequence (q.dequeuePos % c.size.toNat)).toNat = q.dequeuePos + 1) :
    ∃ x, q.Waits q.dequeuePos x := by
  obtain ⟨p, hd, hp, hmod, hp' | ⟨-, hx⟩⟩ := h.ticket q.dequeuePos
  all_goals
    have hhead : p = q.dequeuePos :=
      eq_of_lap ⟨hd, hp⟩ ⟨Nat.le_refl _, by omega⟩ hmod
  · omega
  · rwa [hhead] at hx

theorem Means.claim (h : Means c w q) (hpos : pos.toNat = q.cells.length)
    (hroom : pos.toNat < q.dequeuePos + c.size.toNat) (hfew : pos.toNat < 2 ^ 63) :
    Means c { w with enqueuePos := pos + 1 } { q with cells := q.cells ++ [none] } where
  enqueue := by rw [toNat_succ hfew, length_append, hpos]; rfl
  low := by rw [length_append]; exact Nat.le_add_right_of_le h.low
  high := by
    rw [length_append, ← hpos]
    exact hroom
  free p hp := by
    rw [length_append] at hp
    exact h.free p (by omega)
  hole p hp := by
    rcases hole_of_claim hp with hold | hnew
    · exact h.hole p hold
    · exact h.free p (by omega) (by omega)
  waits p x hp := h.waits p x (waits_of_claim hp)

theorem Means.write (h : Means c w q) {n : Nat} (hhole : q.Hole n) :
    Means c (w.write (n % c.size.toNat) item) q :=
  { h with
    waits p x hp := by
      -- the cell of a waiting item is not the one of a hole
      have hne : p % c.size.toNat ≠ n % c.size.toNat := by
        intro hmod
        rw [eq_of_lap (h.waits_lap hp) (h.hole_lap hhole) hmod] at hp
        exact absurd (hp.2.symm.trans hhole.2) (by simp)
      exact ⟨(h.waits p x hp).1, (Words.write_of_ne hne).trans (h.waits p x hp).2⟩ }

theorem Means.publish (h : Means c w q) (hhole : q.Hole pos.toNat)
    (hitem : w.item (pos.toNat % c.size.toNat) = item) (hfew : pos.toNat < 2 ^ 63) :
    Means c (w.store (pos.toNat % c.size.toNat) (pos + 1)) (q.publish pos.toNat item) := by
  -- every other position of the lap keeps its ticket
  have hkeep : ∀ p, q.dequeuePos ≤ p ∧ p < q.dequeuePos + c.size.toNat → p ≠ pos.toNat →
      (w.store (pos.toNat % c.size.toNat) (pos + 1)).sequence (p % c.size.toNat) =
        w.sequence (p % c.size.toNat) := fun p hp hne =>
    Words.store_of_ne (fun hmod => hne (eq_of_lap hp (h.hole_lap hhole) hmod))
  have hlen : (q.publish pos.toNat item).cells.length = q.cells.length := length_set
  have hlt := hole_lt hhole
  have hlow := h.low
  constructor
  case enqueue => exact h.enqueue.trans hlen.symm
  case low => exact Nat.le_trans h.low (Nat.le_of_eq hlen.symm)
  case high => exact Nat.le_trans (Nat.le_of_eq hlen) h.high
  case free =>
    intro p hp hp'
    rw [hlen] at hp
    rw [hkeep p ⟨by omega, hp'⟩ (by omega)]
    exact h.free p hp hp'
  case hole =>
    intro p hp
    obtain ⟨hold, hne⟩ := hole_of_publish hp
    rw [hkeep p (h.hole_lap hold) hne]
    exact h.hole p hold
  case waits =>
    intro p x hp
    by_cases hpos : p = pos.toNat
    · have hx : some (some item) = some (some x) := by
        rw [← hp.2, hpos]
        exact (getElem?_set_self hlt).symm
      cases hx
      rw [hpos]
      exact ⟨by rw [Words.store_self, toNat_succ hfew], hitem⟩
    · rcases waits_of_publish hp with hold | ⟨hnew, -⟩
      · rw [hkeep p (h.waits_lap hold) hpos]
        exact h.waits p x hold
      · exact absurd hnew hpos

theorem Means.release (h : Means c w q) {out : α} (hpos : pos.toNat = q.dequeuePos)
    (hout : q.Waits q.dequeuePos out) (hfew : q.cells.length + c.size.toNat ≤ 2 ^ 63) :
    Means c (w.store (pos.toNat % c.size.toNat) (pos + c.size))
      { q with dequeuePos := q.dequeuePos + 1 } := by
  have hlt := waits_lt hout
  have hhead := h.waits_lap hout
  have hkeep : ∀ p, q.dequeuePos + 1 ≤ p ∧ p < q.dequeuePos + c.size.toNat →
      (w.store (pos.toNat % c.size.toNat) (pos + c.size)).sequence (p % c.size.toNat) =
        w.sequence (p % c.size.toNat) := by
    intro p hp
    refine Words.store_of_ne (fun hmod => ?_)
    rw [hpos] at hmod
    have := eq_of_lap ⟨by omega, hp.2⟩ hhead hmod
    omega
  constructor
  case enqueue => exact h.enqueue
  case low => exact hlt
  case high => exact Nat.le_trans h.high (by simp only; omega)
  case free =>
    intro p hp hp'
    by_cases hlast : p = pos.toNat + c.size.toNat
    · -- the cell released is the one of the position a lap ahead
      rw [hlast, Nat.add_mod_right, Words.store_self, UInt64.toNat_add]
      exact Nat.mod_eq_of_lt (by omega)
    · have hp'' : p < q.dequeuePos + 1 + c.size.toNat := hp'
      have hp : q.cells.length ≤ p := hp
      rw [hkeep p ⟨by omega, by omega⟩]
      exact h.free p hp (by omega)
  case hole =>
    intro p hp
    have hlap := h.hole_lap (hole_of_pop hp)
    rw [hkeep p ⟨hp.1, hlap.2⟩]
    exact h.hole p (hole_of_pop hp)
  case waits =>
    intro p x hp
    have hlap := h.waits_lap (waits_of_pop hp)
    rw [hkeep p ⟨hp.1, hlap.2⟩]
    exact h.waits p x (waits_of_pop hp)

/-- Another thread's step leaves a producer what it knows, if it leaves the position the
producer owns. -/
theorem Producer.Knows.mono {P : Producer α} {w' : Words α} {q' : MpscQueue α}
    {claimed claimed' : List α} (h : P.Knows c w q claimed)
    (hlen : q.cells.length ≤ q'.cells.length) (hhead : q.dequeuePos ≤ q'.dequeuePos)
    (hclaimed : claimed <+: claimed')
    (howned : ∀ p, P.owned = some p → q.Hole p →
      q'.Hole p ∧ w'.item (p % c.size.toNat) = w.item (p % c.size.toNat)) :
    P.Knows c w' q' claimed' := by
  have hget : ∀ (p : Nat) (x : α), claimed[p]? = some x → claimed'[p]? = some x := by
    intro p x hx
    obtain ⟨more, rfl⟩ := hclaimed
    rwa [getElem?_append_left (List.getElem?_eq_some_iff.1 hx).1]
  cases P with
  | idle | load | drop => trivial
  | check item pos => exact Nat.le_trans h hlen
  | claim item pos => exact ⟨Nat.le_trans h.1 hlen, Nat.lt_of_lt_of_le h.2 (by omega)⟩
  | fill item pos => exact ⟨(howned _ rfl h.1).1, hget _ _ h.2⟩
  | publish item pos =>
    obtain ⟨hhole, hitem⟩ := howned _ rfl h.1
    exact ⟨hhole, hget _ _ h.2.1, hitem.trans h.2.2⟩

theorem Producer.Knows.hole {P : Producer α} {claimed : List α} {p : Nat}
    (h : P.Knows c w q claimed) (hp : P.owned = some p) : q.Hole p := by
  cases P with
  | fill item pos | publish item pos =>
    cases hp
    exact h.1
  | _ => cases hp

theorem Consumer.Knows.mono {C : Consumer α} {w' : Words α} {q' : MpscQueue α}
    (h : C.Knows w q) (hw : w'.dequeuePos = w.dequeuePos) (hhead : q'.dequeuePos = q.dequeuePos)
    (hwaits : ∀ x, q.Waits q.dequeuePos x → q'.Waits q.dequeuePos x) : C.Knows w' q' := by
  cases C with
  | idle | load => trivial
  | check pos | finish pos out => exact h.trans hw.symm
  | read pos =>
    obtain ⟨hpos, x, hx⟩ := h
    exact ⟨hpos.trans hw.symm, x, hhead ▸ hwaits x hx⟩
  | release pos out => exact ⟨h.1.trans hw.symm, hhead ▸ hwaits out h.2⟩

end Meaning

end Satellite.Pointer.Tickets
