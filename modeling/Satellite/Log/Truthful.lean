import Satellite.Log.Writer

/-!
# A flush that answers true tells the truth

A position is settled once its record is ring-only, or stands in a write that succeeded and
was followed by a successful flush of the sink, or lies at or behind `lostFrom_`. The writer
stores `durable_` only where everything before it is settled, and it lowers `lostFrom_`
before that store; a flush reads the two in the same order. A new thread forgets that the
last one left lines unflushed, so the writer may be started again only when it did not.
-/

namespace Satellite.Log

open Prog Pointer List LogWriter

/-! ## Lines and what became of them -/

def Line.position : Line → Option Nat
  | .record position _ => some position
  | .dropped _ => none

/-- The positions of the records in a batch. -/
def positions (batch : List Line) : List Nat := batch.filterMap Line.position

def SinkCall.positions : SinkCall → List Nat
  | .write batch _ => Log.positions batch
  | .flush _ => []

/-- The positions handed to the sinks, one after the other, whether or not a write succeeded. -/
def handed (sink : List SinkCall) : List Nat := sink.flatMap SinkCall.positions

/-- The line stands in a write that succeeded. -/
def Written (sink : List SinkCall) (line : Line) : Prop :=
  ∃ batch, .write batch true ∈ sink ∧ line ∈ batch

/-- The line stands in a write that succeeded, and a flush has succeeded since. -/
def Flushed (sink : List SinkCall) (line : Line) : Prop :=
  ∃ before batch after, sink = before ++ .write batch true :: after ∧ line ∈ batch ∧
    .flush true ∈ after

theorem mem_positions {batch : List Line} {p : Nat} (h : p ∈ positions batch) :
    ∃ r, .record p r ∈ batch := by
  obtain ⟨line, hmem, hline⟩ := mem_filterMap.1 h
  cases line with
  | record q r =>
    cases hline
    exact ⟨r, hmem⟩
  | dropped n => cases hline

theorem positions_append (a b : List Line) : positions (a ++ b) = positions a ++ positions b :=
  filterMap_append

theorem handed_append (a b : List SinkCall) : handed (a ++ b) = handed a ++ handed b :=
  flatMap_append

theorem handed_write (sink : List SinkCall) (batch : List Line) (ok : Bool) :
    handed (sink ++ [.write batch ok]) = handed sink ++ positions batch := by
  rw [handed_append]
  exact congrArg _ (append_nil _)

theorem handed_flush (sink : List SinkCall) (ok : Bool) :
    handed (sink ++ [.flush ok]) = handed sink := by
  rw [handed_append]
  exact append_nil _

theorem Written.grow {sink sink' : List SinkCall} {line : Line} (h : Written sink line)
    (hp : sink <+: sink') : Written sink' line := by
  obtain ⟨batch, hmem, hline⟩ := h
  exact ⟨batch, hp.subset hmem, hline⟩

theorem Flushed.grow {sink sink' : List SinkCall} {line : Line} (h : Flushed sink line)
    (hp : sink <+: sink') : Flushed sink' line := by
  obtain ⟨before, batch, after, rfl, hline, hflush⟩ := h
  obtain ⟨more, rfl⟩ := hp
  exact ⟨before, batch, after ++ more, by simp, hline, mem_append_left _ hflush⟩

theorem Written.flush {sink : List SinkCall} {line : Line} (h : Written sink line) :
    Flushed (sink ++ [.flush true]) line := by
  obtain ⟨batch, hmem, hline⟩ := h
  obtain ⟨before, after, rfl⟩ := append_of_mem hmem
  exact ⟨before, batch, after ++ [.flush true], by simp, hline, by simp⟩

namespace LogWriter

/-- What is asked of a record that a flush vouches for. -/
def Kept (s : LogWriter) (p : Nat) : Prop :=
  ∃ r, s.accepted[p]? = some r ∧ (r.ringOnly = true ∨ Flushed s.sink (.record p r))

/-- The same before the sink is flushed. -/
def Put (s : LogWriter) (p : Nat) : Prop :=
  ∃ r, s.accepted[p]? = some r ∧ (r.ringOnly = true ∨ Written s.sink (.record p r))

def Lost (s : LogWriter) (p : Nat) : Prop := ∃ lost, s.lostFrom = some lost ∧ lost ≤ p

/-- A flush that finds `lostFrom_` at or behind its target finds nothing lost before it. -/
theorem not_lost_of_reaches {s : LogWriter} {target p : Nat}
    (h : reaches s.lostFrom target = true) (hp : p < target) : ¬ s.Lost p := by
  rintro ⟨lost, hlost, hle⟩
  rw [hlost] at h
  have := of_decide_eq_true h
  omega

end LogWriter

/-! ## What an instruction does -/

/-- What the invariants speak of is left alone. -/
structure Same (s t : LogWriter) : Prop where
  queue : t.queue = s.queue
  accepted : t.accepted = s.accepted
  durable : t.durable = s.durable
  lostFrom : t.lostFrom = s.lostFrom
  sink : t.sink = s.sink
  own : t.own = s.own
  flushed : t.flushed = s.flushed

theorem Same.refl (s : LogWriter) : Same s s := ⟨rfl, rfl, rfl, rfl, rfl, rfl, rfl⟩

/-- What an instruction needs where it is issued. -/
def LogWriter.need (s : LogWriter) : Instr → Prop
  | .publish p r => s.accepted[p]? = some r
  | .write batch => (handed s.sink ++ positions batch).Pairwise (· < ·) ∧
      ∀ p r, .record p r ∈ batch → s.accepted[p]? = some r
  | .storeDurable n => ∀ p < n, s.Kept p ∨ s.Lost p
  | .flushReturn n answer => answer = true → ∀ p < n, s.Kept p
  | _ => True

/-- Every instruction, by what it does to the part the invariants speak of; those marked are
the writer's. -/
inductive Acts (s : LogWriter) : Bool → LogWriter → Prop
  | still {w : Bool} {t : LogWriter} (h : Same s t) : Acts s w t
  | claim (record : LogRecord) : Acts s false { s with
      queue.cells := s.queue.cells ++ [none]
      accepted := s.accepted ++ [record] }
  | publish {p : Nat} {r : LogRecord} (h : s.need (.publish p r)) :
      Acts s false { s with queue := s.queue.publish p r }
  | flushReturn {n : Nat} {answer : Bool} (h : s.need (.flushReturn n answer)) :
      Acts s false { s with flushed := s.flushed ++ [(n, answer)] }
  | pop : Acts s true { s with queue.dequeuePos := s.queue.dequeuePos + 1 }
  | storeDurable {n : Nat} (h : s.need (.storeDurable n)) : Acts s true { s with durable := n }
  | lowerTo (p : Nat) : Acts s true { s with lostFrom := lower s.lostFrom p }
  | write {batch : List Line} (ok : Bool) (h : s.need (.write batch)) :
      Acts s true { s with sink := s.sink ++ [.write batch ok] }
  | flushSink (ok : Bool) : Acts s true { s with sink := s.sink ++ [.flush ok] }
  | own (o : Own) (thread : WriterThread) : Acts s true { s with own := o, thread := thread }

def Instr.ofWriter : Instr → Bool
  | .pop | .storeDurable _ | .lowerTo _ | .write _ | .flushSink | .begin | .finish | .setOwn _ => true
  | _ => false

theorem acts_of_step {s t : LogWriter} {i : Instr} {r : i.Answer} (hneed : s.need i)
    (h : s.step i r t) : Acts s i.ofWriter t := by
  obtain ⟨choice, h⟩ := h
  cases i with
  | claim record =>
    simp only [exec] at h
    split at h
    next position queue hclaim =>
      obtain ⟨-, rfl⟩ := MpscQueue.claim_eq hclaim
      cases h
      exact .claim record
    · cases h
      exact .still ⟨rfl, rfl, rfl, rfl, rfl, rfl, rfl⟩
  | pop =>
    simp only [exec] at h
    split at h
    next record queue hpop =>
      obtain ⟨-, rfl⟩ := MpscQueue.pop_eq hpop
      cases h
      exact .pop
    · cases h
      exact .still (.refl _)
  | acquireAck =>
    simp only [exec] at h
    split at h
    · split at h
      · cases h
        exact .still ⟨rfl, rfl, rfl, rfl, rfl, rfl, rfl⟩
      · cases h
    · cases h
      exact .still (.refl _)
  | join =>
    simp only [exec] at h
    split at h
    · cases h
      exact .still ⟨rfl, rfl, rfl, rfl, rfl, rfl, rfl⟩
    · cases h
  | begin =>
    simp only [exec] at h
    split at h
    · cases h
      exact .own _ _
    · cases h
  | spawn =>
    cases h
    cases choice with
    | true => exact .still ⟨rfl, rfl, rfl, rfl, rfl, rfl, rfl⟩
    | false => exact .still (.refl _)
  | publish position record =>
    cases h
    exact .publish hneed
  | storeDurable n =>
    cases h
    exact .storeDurable hneed
  | lowerTo p =>
    cases h
    exact .lowerTo p
  | write batch =>
    cases h
    exact .write choice hneed
  | flushSink =>
    cases h
    exact .flushSink choice
  | finish | setOwn o =>
    cases h
    exact .own _ _
  | flushReturn n answer =>
    cases h
    exact .flushReturn hneed
  | enqueued | dropped | consumed | running | stopping | flushTarget | durable | lostFrom
  | flushWaiters | joinable | own | flushCall | rotateIfDue | intervalPassed =>
    cases h
    exact .still (.refl _)
  | setRunning | setStopping | raiseTo | joinWaiters | leaveWaiters | releaseAck =>
    cases h
    exact .still ⟨rfl, rfl, rfl, rfl, rfl, rfl, rfl⟩

/-! ## What holds of every state -/

structure Sound (s : LogWriter) : Prop where
  published : ∀ (p : Nat) r, s.queue.cells[p]? = some (some r) → s.accepted[p]? = some r
  length : s.accepted.length = s.queue.cells.length
  durable : ∀ p < s.durable, s.Kept p ∨ s.Lost p
  ordered : (handed s.sink).Pairwise (· < ·)
  lines : ∀ batch ok, .write batch ok ∈ s.sink → ∀ p r, .record p r ∈ batch →
    s.accepted[p]? = some r
  flushed : ∀ n, (n, true) ∈ s.flushed → ∀ p < n, s.Kept p

/-- What every thread may rely on: the records stay where they are, the sinks have answered
what they have answered, and nothing lost comes back. -/
structure Grows (s t : LogWriter) : Prop where
  accepted : s.accepted <+: t.accepted
  sink : s.sink <+: t.sink
  lost : ∀ p, s.Lost p → t.Lost p

/-- What the writer may rely on besides. -/
structure Leaves (s t : LogWriter) : Prop where
  accepted : s.accepted <+: t.accepted
  dequeuePos : t.queue.dequeuePos = s.queue.dequeuePos
  lostFrom : t.lostFrom = s.lostFrom
  sink : t.sink = s.sink
  own : t.own = s.own

variable {s t u : LogWriter} {w : Bool}

theorem Grows.refl (s : LogWriter) : Grows s s := ⟨prefix_rfl, prefix_rfl, fun _ => id⟩

theorem Grows.trans (h : Grows s t) (h' : Grows t u) : Grows s u :=
  ⟨h.accepted.trans h'.accepted, h.sink.trans h'.sink, fun p hp => h'.lost p (h.lost p hp)⟩

theorem Leaves.refl (s : LogWriter) : Leaves s s := ⟨prefix_rfl, rfl, rfl, rfl, rfl⟩

theorem Leaves.trans (h : Leaves s t) (h' : Leaves t u) : Leaves s u :=
  ⟨h.accepted.trans h'.accepted, h'.dequeuePos.trans h.dequeuePos, h'.lostFrom.trans h.lostFrom,
    h'.sink.trans h.sink, h'.own.trans h.own⟩

theorem Leaves.grows (h : Leaves s t) : Grows s t :=
  ⟨h.accepted, h.sink ▸ prefix_rfl, fun _ ⟨lost, hl, hle⟩ => ⟨lost, h.lostFrom.trans hl, hle⟩⟩

theorem getElem?_of_prefix {α : Type} {a b : List α} (h : a <+: b) {p : Nat} {x : α}
    (hx : a[p]? = some x) : b[p]? = some x := by
  obtain ⟨more, rfl⟩ := h
  rw [getElem?_append_left (List.getElem?_eq_some_iff.1 hx).1]
  exact hx

theorem Grows.kept (h : Grows s t) {p : Nat} (hp : s.Kept p) : t.Kept p := by
  obtain ⟨r, hr, hk⟩ := hp
  exact ⟨r, getElem?_of_prefix h.accepted hr, hk.imp_right fun hf => hf.grow h.sink⟩

theorem Grows.put (h : Grows s t) {p : Nat} (hp : s.Put p) : t.Put p := by
  obtain ⟨r, hr, hk⟩ := hp
  exact ⟨r, getElem?_of_prefix h.accepted hr, hk.imp_right fun hf => hf.grow h.sink⟩

theorem lost_lower {lost : Option Nat} {p q : Nat} :
    (∃ l, lower lost p = some l ∧ l ≤ q) ↔ p ≤ q ∨ ∃ l, lost = some l ∧ l ≤ q := by
  cases lost with
  | none => simp [lower]
  | some l =>
    simp only [lower, Option.elim_some, Option.some.injEq, exists_eq_left']
    omega

theorem Acts.grows (h : Acts s w t) : Grows s t := by
  cases h with
  | still h =>
    refine ⟨h.accepted ▸ prefix_rfl, h.sink ▸ prefix_rfl, fun p hp => ?_⟩
    simpa only [Lost, h.lostFrom] using hp
  | claim r => exact ⟨prefix_append _ _, prefix_rfl, fun _ => id⟩
  | lowerTo p => exact ⟨prefix_rfl, prefix_rfl, fun q hq => lost_lower.2 (.inr hq)⟩
  | write ok h | flushSink ok => exact ⟨prefix_rfl, prefix_append _ _, fun _ => id⟩
  | _ => exact ⟨prefix_rfl, prefix_rfl, fun _ => id⟩

theorem Acts.leaves (h : Acts s false t) : Leaves s t := by
  cases h with
  | still h => exact ⟨h.accepted ▸ prefix_rfl, by rw [h.queue], h.lostFrom, h.sink, h.own⟩
  | claim r => exact ⟨prefix_append _ _, rfl, rfl, rfl, rfl⟩
  | publish h | flushReturn h => exact ⟨prefix_rfl, rfl, rfl, rfl, rfl⟩

theorem Sound.acts (h : Sound s) (a : Acts s w t) : Sound t := by
  have e := a.grows
  -- what was settled or vouched for before the step still is
  have hsettled : ∀ p < s.durable, t.Kept p ∨ t.Lost p := fun p hp =>
    (h.durable p hp).imp e.kept (e.lost p)
  have hflushed : ∀ n, (n, true) ∈ s.flushed → ∀ p < n, t.Kept p := fun n hn p hp =>
    e.kept (h.flushed n hn p hp)
  cases a with
  | still hs =>
    obtain ⟨hqueue, haccepted, hdurable, -, hsink, -, hfl⟩ := hs
    refine ⟨?_, ?_, ?_, ?_, ?_, ?_⟩
    · rw [hqueue, haccepted]
      exact h.published
    · rw [hqueue, haccepted]
      exact h.length
    · rw [hdurable]
      exact hsettled
    · rw [hsink]
      exact h.ordered
    · rw [hsink, haccepted]
      exact h.lines
    · rw [hfl]
      exact hflushed
  | claim r =>
    refine ⟨?_, ?_, hsettled, h.ordered, ?_, hflushed⟩
    · intro p x hx
      rw [getElem?_append] at hx
      split at hx
      · exact getElem?_of_prefix e.accepted (h.published p x hx)
      · simp [getElem?_singleton] at hx
    · simp [h.length]
    · intro batch ok hb p x hx
      exact getElem?_of_prefix e.accepted (h.lines batch ok hb p x hx)
  | @publish p r hneed =>
    refine ⟨?_, ?_, hsettled, h.ordered, h.lines, hflushed⟩
    · intro q x hx
      have hx : (s.queue.cells.set p (some r))[q]? = some (some x) := hx
      rw [getElem?_set] at hx
      split at hx
      next hpq =>
        split at hx
        · cases hx
          rw [← hpq]
          exact hneed
        · cases hx
      · exact h.published q x hx
    · exact h.length.trans (length_set).symm
  | @flushReturn n answer hneed =>
    refine ⟨h.published, h.length, hsettled, h.ordered, h.lines, fun m hm => ?_⟩
    rcases mem_append.1 hm with hm | hm
    · exact hflushed m hm
    · cases mem_singleton.1 hm
      exact hneed rfl
  | pop | lowerTo p | own o thread =>
    exact ⟨h.published, h.length, hsettled, h.ordered, h.lines, hflushed⟩
  | storeDurable hneed => exact ⟨h.published, h.length, hneed, h.ordered, h.lines, hflushed⟩
  | @write batch ok hneed =>
    refine ⟨h.published, h.length, hsettled, ?_, ?_, hflushed⟩
    · rw [handed_write]
      exact hneed.1
    · intro b ok' hb
      rcases mem_append.1 hb with hb | hb
      · exact h.lines b ok' hb
      · cases mem_singleton.1 hb
        exact hneed.2
  | flushSink ok =>
    refine ⟨h.published, h.length, hsettled, ?_, ?_, hflushed⟩
    · rw [handed_flush]
      exact h.ordered
    · intro b ok' hb
      rcases mem_append.1 hb with hb | hb
      · exact h.lines b ok' hb
      · cases mem_singleton.1 hb

/-! ## The protocol -/

/-- Everything before `n` has been handed on: written or lost, and flushed as well when
nothing is left unflushed. -/
structure Settled (s : LogWriter) (n : Nat) (unflushed : Bool) : Prop where
  put : ∀ p < n, s.Put p ∨ s.Lost p
  kept : unflushed = false → ∀ p < n, s.Kept p ∨ s.Lost p
  handed : ∀ p ∈ handed s.sink, p < n

theorem Settled.leaves {n : Nat} {unflushed : Bool} (h : Settled s n unflushed)
    (e : Leaves s t) : Settled t n unflushed where
  put p hp := (h.put p hp).imp e.grows.put (e.grows.lost p)
  kept hf p hp := (h.kept hf p hp).imp e.grows.kept (e.grows.lost p)
  handed := e.sink ▸ h.handed

/-- Where the writer stands between two passes. -/
def Head (s : LogWriter) : Prop := Settled s s.queue.dequeuePos s.own.unflushed

theorem Head.leaves (h : Head s) (e : Leaves s t) : Head t := by
  unfold Head
  rw [e.dequeuePos, e.own]
  exact Settled.leaves h e

/-- A thread that begins with lines of the last one unflushed forgets them. -/
def Clean (s t : LogWriter) : Prop :=
  s.thread = .created → t.thread = .live → s.own.unflushed = false

def Thread.rely : Thread → LogWriter → LogWriter → Prop
  | .writer => Leaves
  | _ => Grows

def Thread.idle : Thread → LogWriter → Prop
  | .writer => Head
  | _ => fun _ => True

def truthful : System.Protocol (logging.restrict Clean) where
  inv := Sound
  rely := Thread.rely
  pre t i s := (i.ofWriter = true → t = .writer) ∧ s.need i
  idle := Thread.idle
  rely_refl t s := by
    cases t with
    | writer => exact Leaves.refl s
    | control | caller n => exact Grows.refl s
  rely_trans t s u v h h' := by
    cases t with
    | writer => exact Leaves.trans h h'
    | control | caller n => exact Grows.trans h h'
  init s hs := by
    subst hs
    refine ⟨⟨nofun, rfl, nofun, List.Pairwise.nil, nofun, nofun⟩, fun t u hu => ?_⟩
    cases t with
    | writer =>
      refine Head.leaves (s := {}) ⟨?_, fun _ => ?_, nofun⟩ hu
      · exact fun p hp => absurd hp (Nat.not_lt_zero p)
      · exact fun p hp => absurd hp (Nat.not_lt_zero p)
    | control => trivial
    | caller n => trivial
  guarantee t i s r u hinv hpre hstep := by
    have ha := acts_of_step hpre.2 hstep.1
    refine ⟨hinv.acts ha, fun o ho => ?_⟩
    cases o with
    | writer =>
      have hw : i.ofWriter = false := by
        cases hw : i.ofWriter with
        | false => rfl
        | true => exact absurd (hpre.1 hw).symm ho
      exact (hw ▸ ha).leaves
    | control => exact ha.grows
    | caller n => exact ha.grows

/-- One instruction, and what the other threads may have done after it. -/
theorem wp_run {τ : Thread} {α : Type} (i : Instr) {k : i.Answer → Task α}
    {Q : α → LogWriter → Prop} (hw : i.ofWriter = true → τ = .writer) (hneed : s.need i)
    (h : ∀ r m u, s.step i r m → Clean s m → Sound m → τ.rely m u → Sound u →
      (truthful.machine τ).wp (k r) Q u) :
    (truthful.machine τ).wp (run i >>= k) Q s :=
  System.Protocol.wp_call (P := truthful) i ⟨hw, hneed⟩
    fun r m u hm hsm hu hsu => h r m u hm.1 hm.2 hsm hu hsu

/-- One program after another. -/
theorem wp_seq {τ : Thread} {α β : Type} {p : Task α} {f : α → Task β} {Q : β → LogWriter → Prop}
    (h : (truthful.machine τ).wp p (fun a u => (truthful.machine τ).wp (f a) Q u) s) :
    (truthful.machine τ).wp (p >>= f) Q s := by
  rw [bind_eq, Machine.wp_bind]
  exact h

/-! ## The flushes -/

section Flushes

variable {n target : Nat} {Q : Bool → LogWriter → Prop}

/-- An answer that claims nothing but what is so. -/
def Vouches (target : Nat) (answer : Bool) (s : LogWriter) : Prop :=
  answer = true → ∀ p < target, s.Kept p

theorem wp_covered (hs : Sound s)
    (hQ : ∀ answer u, Grows s u → Sound u → Vouches target answer u → Q answer u) :
    (truthful.machine (.caller n)).wp (covered target) Q s := by
  refine wp_run .durable nofun trivial fun durable m u hm _ _ hu hsu => ?_
  obtain ⟨-, ⟨⟩⟩ := hm
  have hu : Grows s u := hu
  split
  next hle =>
    -- what was settled when `durable_` was loaded stays settled
    have hsettled : ∀ p < target, u.Kept p ∨ u.Lost p := fun p hp =>
      (hs.durable p (Nat.lt_of_lt_of_le hp hle)).imp hu.kept (hu.lost p)
    refine wp_run .lostFrom nofun trivial fun lost m' v hm' _ _ hv hsv => ?_
    obtain ⟨-, ⟨⟩⟩ := hm'
    have hv : Grows u v := hv
    refine hQ _ v (hu.trans hv) hsv fun hreaches p hp => hv.kept ?_
    exact (hsettled p hp).resolve_right (not_lost_of_reaches hreaches hp)
  · exact hQ false u hu hsu nofun

theorem wp_awaitAck {done : Bool} (hdone : Vouches target done s)
    (hQ : ∀ answer u, Vouches target answer u → Q answer u) :
    (truthful.machine (.caller n)).wp (awaitAck target done) Q s := by
  unfold awaitAck
  split
  next hd => exact hQ true s fun _ => hdone hd
  · refine Machine.wp_loop (fun _ => True) trivial nofun fun u _ => ?_
    have hfalse : ∀ v, Q false v := fun v => hQ false v nofun
    refine wp_run .running nofun trivial fun running _ v _ _ _ _ _ => ?_
    split
    · refine wp_run .lostFrom nofun trivial fun lost _ v _ _ _ _ _ => ?_
      split
      · refine wp_run .acquireAck nofun trivial fun acked _ v _ _ _ _ hv => ?_
        split
        · refine wp_seq (wp_covered hv fun answer w _ _ hanswer => ?_)
          cases answer with
          | true => exact hQ true w hanswer
          | false => exact trivial
        · exact hfalse v
      · exact hfalse v
    · exact hfalse v

theorem wp_flush {accepted : Nat} (hs : accepted ≤ s.accepted.length)
    (hQ : ∀ answer u, Vouches accepted answer u → Q answer u) :
    (truthful.machine (.caller n)).wp flush Q s := by
  have hfalse : ∀ v, Q false v := fun v => hQ false v nofun
  refine wp_run .running nofun trivial fun running m u hm _ _ hu hsu => ?_
  obtain ⟨-, ⟨⟩⟩ := hm
  have hu : Grows s u := hu
  split
  · refine wp_run .enqueued nofun trivial fun target m' v hm' _ _ _ hsv => ?_
    obtain ⟨-, ⟨⟩⟩ := hm'
    -- the target takes in every record that was accepted before the call
    have hle : accepted ≤ u.queue.cells.length := by
      rw [← hsu.length]
      exact Nat.le_trans hs hu.accepted.length_le
    have hvouch : ∀ {answer w}, Vouches u.queue.cells.length answer w → Q answer w :=
      fun hw => hQ _ _ fun ha p hp => hw ha p (Nat.lt_of_lt_of_le hp hle)
    refine wp_seq (wp_covered hsv fun answer w _ hsw hanswer => ?_)
    split
    · exact hvouch fun _ => hanswer ‹_›
    · refine wp_run .lostFrom nofun trivial fun lost _ w _ _ _ _ _ => ?_
      split
      · refine wp_run (.raiseTo _) nofun trivial fun _ _ w _ _ _ _ _ => ?_
        refine wp_run .joinWaiters nofun trivial fun _ _ w _ _ _ _ hw => ?_
        refine wp_seq (wp_covered hw fun done w _ _ hdone => ?_)
        refine wp_seq (wp_awaitAck hdone fun done w hdone => ?_)
        refine wp_run .leaveWaiters nofun trivial fun _ m x hm _ _ hx hsx => ?_
        obtain ⟨-, ⟨⟩⟩ := hm
        have hx : Grows _ x := hx
        split
        · exact hvouch fun _ p hp => hx.kept (hdone ‹_› p hp)
        · exact wp_covered hsx fun answer y _ _ hy => hvouch hy
      · exact hfalse w
  · exact hfalse u

end Flushes

end Satellite.Log
