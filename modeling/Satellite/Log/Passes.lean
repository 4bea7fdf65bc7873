import Satellite.Lib.Positions
import Satellite.Log.Truthful

/-!
# The passes of the log writer

A pass writes the lines of the records it has popped in one call of the sink, so between two
passes everything before the queue's consumed position has been handed on. With the flushes,
this gives what a flush that answers true may be trusted for.
-/

namespace Satellite.Log

open Prog Pointer List

variable {s t u : LogWriter}

/-! ## A pass of the writer -/

section Passes

variable {passStart n : Nat} {b : Bool}

/-- An instruction of the writer that any thread could have issued. -/
theorem wp_look {α : Type} (i : Instr) {k : i.Answer → Task α} {Q : α → LogWriter → Prop}
    (hi : i.ofWriter = false) (hneed : s.need i)
    (h : ∀ r m u, s.step i r m → Leaves s u → Sound u → (truthful.machine .writer).wp (k r) Q u) :
    (truthful.machine .writer).wp (run i >>= k) Q s := by
  refine wp_run i (fun _ => rfl) hneed fun r m u hm _ _ hu hsu => ?_
  have ha := acts_of_step hneed hm
  rw [hi] at ha
  exact h r m u hm (ha.leaves.trans hu) hsu

/-- The lines of a pass are those of the records popped in it, in order. -/
structure Drains (s : LogWriter) (passStart : Nat) (lines : List Line) : Prop where
  start : passStart ≤ s.queue.dequeuePos
  sorted : (positions lines).Pairwise (· < ·)
  range : ∀ p r, .record p r ∈ lines →
    passStart ≤ p ∧ p < s.queue.dequeuePos ∧ s.accepted[p]? = some r
  complete : ∀ p, passStart ≤ p → p < s.queue.dequeuePos →
    ∃ r, s.accepted[p]? = some r ∧ (r.ringOnly = true ∨ .record p r ∈ lines)

theorem Drains.leaves {lines : List Line} (h : Drains s passStart lines) (e : Leaves s t) :
    Drains t passStart lines where
  start := e.dequeuePos ▸ h.start
  sorted := h.sorted
  range p r hr := by
    obtain ⟨hstart, hlt, hacc⟩ := h.range p r hr
    exact ⟨hstart, e.dequeuePos ▸ hlt, getElem?_of_prefix e.accepted hacc⟩
  complete p hstart hlt := by
    obtain ⟨r, hacc, hr⟩ := h.complete p hstart (e.dequeuePos ▸ hlt)
    exact ⟨r, getElem?_of_prefix e.accepted hacc, hr⟩

theorem Drains.dropLine {d : Drained} (h : Drains s passStart d.batch.lines) (due : Bool)
    (count : Nat) : Drains s passStart (d.dropLine due count).batch.lines := by
  unfold Drained.dropLine
  split
  · have hsame : positions (d.batch.lines ++ [.dropped count]) = positions d.batch.lines :=
      (positions_append _ _).trans (append_nil _)
    refine ⟨h.start, hsame ▸ h.sorted, ?_, ?_⟩
    · intro p r hr
      rcases mem_append.1 hr with hr | hr
      · exact h.range p r hr
      · cases mem_singleton.1 hr
    · intro p hstart hlt
      obtain ⟨r, hacc, hr⟩ := h.complete p hstart hlt
      exact ⟨r, hacc, hr.imp_right fun hr => mem_append_left _ hr⟩
  · exact h

theorem Drains.take {batch : Batch} (h : Drains s passStart batch.lines) {r : LogRecord}
    (hr : s.accepted[s.queue.dequeuePos]? = some r) :
    Drains { s with queue.dequeuePos := s.queue.dequeuePos + 1 } passStart
      (batch.take s.queue.dequeuePos r).lines := by
  -- a position of the pass is the one just popped, or an earlier one
  have hsplit : ∀ {p}, p < s.queue.dequeuePos + 1 → p ≠ s.queue.dequeuePos →
      p < s.queue.dequeuePos := fun hlt hne => by omega
  unfold Batch.take
  split
  next hring =>
    refine ⟨Nat.le_succ_of_le h.start, h.sorted, ?_, ?_⟩
    · intro p x hx
      obtain ⟨hstart, hlt, hacc⟩ := h.range p x hx
      exact ⟨hstart, Nat.lt_succ_of_lt hlt, hacc⟩
    · intro p hstart hlt
      by_cases hp : p = s.queue.dequeuePos
      · rw [hp]
        exact ⟨r, hr, .inl hring⟩
      · exact h.complete p hstart (hsplit hlt hp)
  · refine ⟨Nat.le_succ_of_le h.start, ?_, ?_, ?_⟩
    · rw [positions_append]
      refine pairwise_append.2 ⟨h.sorted, pairwise_singleton _ _, ?_⟩
      intro p hp q hq
      obtain ⟨x, hx⟩ := mem_positions hp
      rw [mem_singleton.1 hq]
      exact (h.range p x hx).2.1
    · intro p x hx
      rcases mem_append.1 hx with hx | hx
      · obtain ⟨hstart, hlt, hacc⟩ := h.range p x hx
        exact ⟨hstart, Nat.lt_succ_of_lt hlt, hacc⟩
      · cases mem_singleton.1 hx
        exact ⟨h.start, Nat.lt_succ_self _, hr⟩
    · intro p hstart hlt
      by_cases hp : p = s.queue.dequeuePos
      · rw [hp]
        exact ⟨r, hr, .inr (mem_append_right _ (mem_singleton_self _))⟩
      · obtain ⟨x, hacc, hx⟩ := h.complete p hstart (hsplit hlt hp)
        exact ⟨x, hacc, hx.imp_right fun hx => mem_append_left _ hx⟩

theorem wp_drain {Q : Drained → LogWriter → Prop} {count queuedAtStart room : Nat} {d : Drained}
    (hs : Sound s) (hd : Drains s passStart d.batch.lines) (hset : Settled s passStart b)
    (hQ : ∀ d u, Sound u → Drains u passStart d.batch.lines → Settled u passStart b → Q d u) :
    (truthful.machine .writer).wp (drain count queuedAtStart room d) Q s := by
  induction room generalizing d s with
  | zero => exact hQ d s hs hd hset
  | succ room ih =>
    refine wp_run .consumed nofun trivial fun position m u hm _ _ hu hsu => ?_
    obtain ⟨-, ⟨⟩⟩ := hm
    rw [← hu.dequeuePos]
    have hd := hd.leaves hu
    have hset := hset.leaves hu
    refine wp_run .pop (fun _ => rfl) trivial fun answer m v hm _ _ hv hsv => ?_
    obtain ⟨choice, hm⟩ := hm
    simp only [LogWriter.exec] at hm
    split at hm
    next record queue hpop =>
      cases hm
      obtain ⟨⟨-, hcell⟩, rfl⟩ := MpscQueue.pop_eq hpop
      have hd := (hd.dropLine (decide (queuedAtStart ≤ u.queue.dequeuePos)) count).take
        (hsu.published _ record hcell)
      have hset : Settled { u with queue.dequeuePos := u.queue.dequeuePos + 1 } passStart b :=
        ⟨hset.put, hset.kept, hset.handed⟩
      exact ih hsv (hd.leaves hv) (hset.leaves hv)
    · cases hm
      exact hQ d v hsv (hd.leaves hv) (hset.leaves hv)

/-- The records of a pass that has nothing to write are ring-only. -/
theorem Settled.empty (h : Settled s passStart b) (hd : Drains s passStart []) :
    Settled s s.queue.dequeuePos b := by
  have hring : ∀ p, p < s.queue.dequeuePos → ¬ p < passStart → s.Kept p ∧ s.Put p := by
    intro p hlt hp
    obtain ⟨r, hacc, hr⟩ := hd.complete p (Nat.not_lt.1 hp) hlt
    have hr : r.ringOnly = true := hr.resolve_right (not_mem_nil)
    exact ⟨⟨r, hacc, .inl hr⟩, ⟨r, hacc, .inl hr⟩⟩
  refine ⟨fun p hlt => ?_, fun hf p hlt => ?_, fun p hp => ?_⟩
  · by_cases hp : p < passStart
    · exact h.put p hp
    · exact .inl (hring p hlt hp).2
  · by_cases hp : p < passStart
    · exact h.kept hf p hp
    · exact .inl (hring p hlt hp).1
  · exact Nat.lt_of_lt_of_le (h.handed p hp) hd.start

theorem Drains.handed {lines : List Line} (hd : Drains s passStart lines)
    (h : ∀ p ∈ Log.handed s.sink, p < passStart) (ok : Bool) :
    ∀ p ∈ Log.handed (s.sink ++ [.write lines ok]), p < s.queue.dequeuePos := by
  intro p hp
  rw [handed_write] at hp
  rcases mem_append.1 hp with hp | hp
  · exact Nat.lt_of_lt_of_le (h p hp) hd.start
  · obtain ⟨r, hr⟩ := mem_positions hp
    exact (hd.range p r hr).2.1

/-- After a write that succeeded the records of the pass wait for a flush. -/
theorem Settled.written {lines : List Line} (h : Settled s passStart b)
    (hd : Drains s passStart lines) :
    Settled { s with sink := s.sink ++ [.write lines true] } s.queue.dequeuePos true := by
  have e : Grows s { s with sink := s.sink ++ [.write lines true] } :=
    ⟨prefix_rfl, prefix_append _ _, fun _ => id⟩
  refine ⟨fun p hlt => ?_, nofun, hd.handed h.handed true⟩
  by_cases hp : p < passStart
  · exact (h.put p hp).imp e.put id
  · obtain ⟨r, hacc, hr⟩ := hd.complete p (Nat.not_lt.1 hp) hlt
    refine .inl ⟨r, hacc, hr.imp_right fun hr => ?_⟩
    exact ⟨lines, mem_append_right _ (mem_singleton_self _), hr⟩

/-- After a write that failed the records of the pass are lost. -/
theorem Settled.lost (h : Settled s passStart b) (e : Grows s t)
    (hhanded : ∀ p ∈ Log.handed t.sink, p < n) :
    Settled { t with lostFrom := lower t.lostFrom passStart } n b := by
  have e' := e.trans (Acts.lowerTo passStart).grows
  have hlost : ∀ p, ¬ p < passStart →
      LogWriter.Lost { t with lostFrom := lower t.lostFrom passStart } p :=
    fun p hp => lost_lower.2 (.inl (Nat.not_lt.1 hp))
  refine ⟨fun p _ => ?_, fun hf p _ => ?_, hhanded⟩
  · by_cases hp : p < passStart
    · exact (h.put p hp).imp e'.put (e'.lost p)
    · exact .inr (hlost p hp)
  · by_cases hp : p < passStart
    · exact (h.kept hf p hp).imp e'.kept (e'.lost p)
    · exact .inr (hlost p hp)

theorem Settled.flushed (h : Settled s n b) (ok : Bool) :
    Settled { s with sink := s.sink ++ [.flush ok] } n (!ok) := by
  have e : Grows s { s with sink := s.sink ++ [.flush ok] } := (Acts.flushSink ok).grows
  refine ⟨fun p hp => (h.put p hp).imp e.put id, fun hok p hp => ?_, ?_⟩
  · obtain rfl : ok = true := by simpa using hok
    refine (h.put p hp).imp_left ?_
    rintro ⟨r, hacc, hr⟩
    exact ⟨r, hacc, hr.imp_right Written.flush⟩
  · rw [handed_flush]
    exact h.handed

theorem wp_writeBatch {Q : Bool → LogWriter → Prop} {batch : Batch}
    (hd : Drains s passStart batch.lines) (hset : Settled s passStart b) (hs : Sound s)
    (hQ : ∀ b u, Sound u → Settled u s.queue.dequeuePos b →
      u.queue.dequeuePos = s.queue.dequeuePos → Q b u) :
    (truthful.machine .writer).wp (writeBatch passStart batch b) Q s := by
  unfold writeBatch
  split
  next hempty =>
    have hnil : batch.lines = [] := List.isEmpty_iff.1 hempty
    exact hQ b s hs (hset.empty (hnil ▸ hd)) rfl
  · have hneed : s.need (.write batch.lines) := by
      refine ⟨pairwise_append.2 ⟨hs.ordered, hd.sorted, fun p hp q hq => ?_⟩, ?_⟩
      · obtain ⟨r, hr⟩ := mem_positions hq
        exact Nat.lt_of_lt_of_le (hset.handed p hp) (hd.range q r hr).1
      · exact fun p r hr => (hd.range p r hr).2.2
    refine wp_run (.write batch.lines) (fun _ => rfl) hneed fun ok m u hm _ _ hu hsu => ?_
    obtain ⟨choice, hm⟩ := hm
    cases hm
    cases ok with
    | true => exact hQ true u hsu ((hset.written hd).leaves hu) hu.dequeuePos
    | false =>
      refine wp_run (.lowerTo passStart) (fun _ => rfl) trivial fun _ m v hm _ _ hv hsv => ?_
      obtain ⟨-, ⟨⟩⟩ := hm
      have e : Grows s u := (Acts.write false hneed).grows.trans hu.grows
      have hhanded : ∀ p ∈ handed u.sink, p < s.queue.dequeuePos := by
        rw [hu.sink]
        exact hd.handed hset.handed false
      have hlost := hset.lost e hhanded
      exact hQ b v hsv (hlost.leaves hv) (hv.dequeuePos.trans hu.dequeuePos)

theorem wp_flushBatch {Q : Bool → LogWriter → Prop} {due : Bool} (hset : Settled s n b)
    (hs : Sound s) (hn : s.queue.dequeuePos = n)
    (hQ : ∀ b u, Sound u → Settled u n b → u.queue.dequeuePos = n → Q b u) :
    (truthful.machine .writer).wp (flushBatch b due) Q s := by
  unfold flushBatch
  split
  · refine wp_run .flushSink (fun _ => rfl) trivial fun ok m u hm _ _ hu hsu => ?_
    obtain ⟨choice, hm⟩ := hm
    cases hm
    exact hQ (!ok) u hsu ((hset.flushed ok).leaves hu) (hu.dequeuePos.trans hn)
  · exact hQ b s hs hset hn

/-- The writer's own notes may change where what is unflushed does not. -/
theorem Head.own (h : Head s) {o : Own} (ho : o.unflushed = s.own.unflushed)
    (thread : WriterThread) : Head { s with own := o, thread := thread } := by
  have h' : Settled s s.queue.dequeuePos o.unflushed := ho ▸ h
  exact ⟨h'.put, h'.kept, h'.handed⟩

variable {Q : Unit → LogWriter → Prop}

theorem wp_acknowledge (h : Head s)
    (hQ : ∀ u, Head u → Q () u) : (truthful.machine .writer).wp acknowledge Q s := by
  refine wp_look .durable rfl trivial fun durable m u hm hu _ => ?_
  have h := h.leaves hu
  refine wp_look .lostFrom rfl trivial fun lost m u hm hu _ => ?_
  have h := h.leaves hu
  refine wp_look .own rfl trivial fun own m v hm hv _ => ?_
  obtain ⟨-, ⟨⟩⟩ := hm
  have h := h.leaves hv
  split
  · exact hQ v h
  · refine wp_run (.setOwn _) (fun _ => rfl) trivial fun _ m w hm _ _ hw _ => ?_
    obtain ⟨-, ⟨⟩⟩ := hm
    have hsame : u.own.unflushed = v.own.unflushed := congrArg Own.unflushed hv.own.symm
    have h := (h.own (o := { u.own with acknowledgedDurable := durable, acknowledgedLost := lost })
      hsame v.thread).leaves hw
    refine wp_look .flushWaiters rfl trivial fun waiting m x hm hx _ => ?_
    have h := h.leaves hx
    split
    · exact wp_look (k := pure) (.releaseAck waiting) rfl trivial fun _ m y hm hy _ =>
        hQ y (h.leaves hy)
    · exact hQ x h

theorem wp_pass {stopping : Bool} (h : Head s)
    (hQ : ∀ u, Head u → Q () u) : (truthful.machine .writer).wp (pass stopping) Q s := by
  refine wp_look .own rfl trivial fun own m u hm hu _ => ?_
  obtain ⟨-, ⟨⟩⟩ := hm
  have h : Settled u u.queue.dequeuePos s.own.unflushed := hu.own ▸ h.leaves hu
  refine wp_look .dropped rfl trivial fun droppedNow m v hm hv _ => ?_
  have h := h.leaves hv
  refine wp_look .enqueued rfl trivial fun queuedAtStart m w hm hw _ => ?_
  have h := h.leaves hw
  rw [← hv.dequeuePos, ← hw.dequeuePos] at h
  refine wp_look .consumed rfl trivial fun passStart m x hm hx hsx => ?_
  obtain ⟨-, ⟨⟩⟩ := hm
  have h := h.leaves hx
  have hd : Drains x w.queue.dequeuePos [] := by
    refine ⟨Nat.le_of_eq hx.dequeuePos.symm, List.Pairwise.nil, nofun, fun p hstart hlt => ?_⟩
    rw [hx.dequeuePos] at hlt
    omega
  refine wp_seq (wp_drain hsx hd h fun drained y _ hd h => ?_)
  have hd := hd.dropLine true (droppedNow - s.own.lastDropped)
  refine wp_look .consumed rfl trivial fun consumedNow m z hm hz _ => ?_
  obtain ⟨-, ⟨⟩⟩ := hm
  have hd := hd.leaves hz
  have h := h.leaves hz
  refine wp_look .rotateIfDue rfl trivial fun _ m z' hm hz' hsz => ?_
  have hd := hd.leaves hz'
  have h := h.leaves hz'
  have hn : z'.queue.dequeuePos = y.queue.dequeuePos := hz'.dequeuePos.trans hz.dequeuePos
  refine wp_seq (wp_writeBatch hd h hsz fun unflushed u _ h hu => ?_)
  rw [hn] at h hu
  refine wp_look .flushTarget rfl trivial fun target m v hm hv _ => ?_
  have h := h.leaves hv
  refine wp_look .intervalPassed rfl trivial fun intervalPassed m w hm hw hsw => ?_
  have h := h.leaves hw
  refine wp_seq (wp_flushBatch h hsw (hw.dequeuePos.trans (hv.dequeuePos.trans hu))
    fun unflushed x _ h hx => ?_)
  refine wp_run (.setOwn _) (fun _ => rfl) trivial fun _ m v hm _ _ hv _ => ?_
  obtain ⟨-, ⟨⟩⟩ := hm
  have hhead : Head v := by
    refine Head.leaves ?_ hv
    have h : Settled x x.queue.dequeuePos unflushed := hx ▸ h
    exact ⟨h.put, h.kept, h.handed⟩
  split
  · exact wp_acknowledge hhead hQ
  next hflushed =>
    have hneed : v.need (.storeDurable y.queue.dequeuePos) := by
      have hsettled : Settled v v.queue.dequeuePos v.own.unflushed := hhead
      rw [hv.dequeuePos, hv.own] at hsettled
      exact hx ▸ hsettled.kept (Bool.eq_false_iff.2 hflushed)
    refine wp_run (.storeDurable _) (fun _ => rfl) hneed fun _ m w hm _ _ hw _ => ?_
    obtain ⟨-, ⟨⟩⟩ := hm
    have hhead : Head { v with durable := y.queue.dequeuePos } :=
      ⟨hhead.put, hhead.kept, hhead.handed⟩
    exact wp_acknowledge (hhead.leaves hw) hQ

theorem wp_noticeStop (h : Head s)
    (hQ : ∀ u, Head u → Q () u) : (truthful.machine .writer).wp noticeStop Q s := by
  refine wp_look .own rfl trivial fun own m u hm hu _ => ?_
  obtain ⟨-, ⟨⟩⟩ := hm
  have h := h.leaves hu
  split
  · exact hQ u h
  · refine wp_look .stopping rfl trivial fun stopping m v hm hv _ => ?_
    have h := h.leaves hv
    split
    · refine wp_look .enqueued rfl trivial fun finalTarget m w hm hw _ => ?_
      have h := h.leaves hw
      have hsame : s.own.unflushed = w.own.unflushed :=
        congrArg Own.unflushed (hw.own.trans (hv.own.trans hu.own)).symm
      refine wp_run (k := pure)
        (.setOwn { s.own with stopping := true, finalTarget := finalTarget }) (fun _ => rfl)
        trivial fun _ m x hm _ _ hx _ => ?_
      obtain ⟨-, ⟨⟩⟩ := hm
      exact hQ x ((h.own (o := { s.own with stopping := true, finalTarget := finalTarget })
        hsame w.thread).leaves hx)
    · exact hQ v h

theorem wp_writer (h : Head s) :
    (truthful.machine .writer).wp writer (fun _ u => Head u) s := by
  refine wp_run .begin (fun _ => rfl) trivial fun _ m u hm hclean _ hu _ => ?_
  obtain ⟨choice, hm⟩ := hm
  have hcreated : s.thread = .created := by
    by_contra hne
    simp only [LogWriter.exec, if_neg hne] at hm
    cases hm
  simp only [LogWriter.exec, if_pos hcreated] at hm
  cases hm
  have hunflushed : s.own.unflushed = false := hclean hcreated rfl
  have hbegin := h.own (o := { s.own with unflushed := false, stopping := false, finalTarget := 0 })
    hunflushed.symm .live
  refine wp_seq (Machine.wp_loop Head (hbegin.leaves hu) False.elim fun v h => ?_)
  refine wp_seq (wp_noticeStop h fun v h => ?_)
  refine wp_look .own rfl trivial fun own m w _ hw _ => ?_
  refine wp_seq (wp_pass (h.leaves hw) fun x h => ?_)
  refine wp_look .consumed rfl trivial fun consumed m y _ hy _ => ?_
  have h := h.leaves hy
  split
  · refine wp_run (k := pure) .finish (fun _ => rfl) trivial fun _ m z hm _ _ hz _ => ?_
    obtain ⟨-, ⟨⟩⟩ := hm
    exact (h.own rfl .finished).leaves hz
  · exact h

end Passes

/-! ## Every run -/

theorem wp_submit {n : Nat} (hs : Sound s) (record : LogRecord) :
    (truthful.machine (.caller n)).wp ((submit record).bind fun _ => pure ())
      (fun _ _ => True) s := by
  rw [Machine.wp_bind]
  refine wp_run (.claim record) nofun trivial fun answer m u hm _ _ hu _ => ?_
  obtain ⟨choice, hm⟩ := hm
  simp only [LogWriter.exec] at hm
  split at hm
  next position queue hclaim =>
    obtain ⟨rfl, rfl⟩ := MpscQueue.claim_eq hclaim
    cases hm
    have hneed : u.need (.publish s.queue.cells.length record) := by
      refine getElem?_of_prefix hu.accepted ?_
      rw [← hs.length]
      exact getElem?_concat_length
    exact wp_run _ (by simp [Instr.ofWriter]) hneed fun _ _ _ _ _ _ _ _ => trivial
  · cases hm
    trivial

theorem wp_flushCall {n : Nat} :
    (truthful.machine (.caller n)).wp flushCall (fun _ _ => True) s := by
  refine wp_run .flushCall nofun trivial fun accepted m u hm _ _ hu _ => ?_
  obtain ⟨-, ⟨⟩⟩ := hm
  refine wp_seq (wp_flush hu.accepted.length_le fun answer v hv => ?_)
  exact wp_run (k := pure) (.flushReturn _ answer) nofun hv fun _ _ _ _ _ _ _ _ => trivial

/-- What the thread that starts and stops the writer issues needs nothing. -/
def Instr.Plain (i : Instr) : Prop := i.ofWriter = false ∧ ∀ s : LogWriter, s.need i

theorem wp_control {p : Task Unit} (hp : p.Only Instr.Plain) :
    (truthful.machine .control).wp p (fun _ _ => True) s :=
  Machine.wp_of_only (M := truthful.machine .control) id
    (fun _ s hi => ⟨fun hw => absurd (hi.1.symm.trans hw) nofun, hi.2 s⟩)
    (fun _ _ => trivial) hp s

theorem start_plain : start.Only Instr.Plain := by
  refine ⟨⟨rfl, fun _ => trivial⟩, fun joinable => ?_⟩
  cases joinable with
  | true => trivial
  | false =>
    refine ⟨⟨rfl, fun _ => trivial⟩, fun _ => ⟨⟨rfl, fun _ => trivial⟩, fun _ => ?_⟩⟩
    refine ⟨⟨rfl, fun _ => trivial⟩, fun spawned => ?_⟩
    cases spawned with
    | true => trivial
    | false => exact ⟨⟨rfl, fun _ => trivial⟩, fun _ => trivial⟩

theorem stop_plain : stop.Only Instr.Plain := by
  refine ⟨⟨rfl, fun _ => trivial⟩, fun joinable => ?_⟩
  cases joinable with
  | false => trivial
  | true =>
    refine ⟨⟨rfl, fun _ => trivial⟩, fun _ => ⟨⟨rfl, fun _ => trivial⟩, fun _ => ?_⟩⟩
    refine ⟨⟨rfl, fun _ => trivial⟩, fun _ => ⟨⟨rfl, fun _ => trivial⟩, fun waiting => ?_⟩⟩
    show (if 0 < waiting then run (.releaseAck waiting) else pure ()).Only Instr.Plain
    split
    · exact ⟨⟨rfl, fun _ => trivial⟩, fun _ => trivial⟩
    · trivial

/-- What may be said of the calls so far. -/
structure Truth (s : LogWriter) : Prop where
  /-- Every record that had been accepted before a flush that answered true is ring-only, or
  stands in a write that succeeded and was followed by a successful flush of the sink. -/
  flushed : ∀ n, (n, true) ∈ s.flushed → ∀ p < n, ∃ r, s.accepted[p]? = some r ∧
    (r.ringOnly = true ∨ Flushed s.sink (.record p r))
  /-- The records are handed to the sink in the order in which they were accepted, none twice. -/
  ordered : (handed s.sink).Pairwise (· < ·)
  lines : ∀ batch ok, .write batch ok ∈ s.sink → ∀ p r, .record p r ∈ batch →
    s.accepted[p]? = some r

/-- Every run in which the writer is not started again over unflushed lines. -/
theorem flush_truthful {c : System.Config Thread Instr Instr.Answer LogWriter}
    (hc : (logging.restrict Clean).Reach c) : Truth c.shared := by
  have hmenu : ∀ t p s, (logging.restrict Clean).menu t p → truthful.inv s → truthful.idle t s →
      (truthful.machine t).wp p (fun _ v => truthful.idle t v) s := by
    intro t p s hp hs hidle
    cases t with
    | writer =>
      obtain rfl : p = writer := hp
      exact wp_writer hidle
    | control =>
      rcases hp with rfl | rfl
      · exact wp_control start_plain
      · exact wp_control stop_plain
    | caller n =>
      rcases hp with rfl | ⟨record, rfl⟩
      · exact wp_flushCall
      · exact wp_submit hs record
  obtain ⟨hsound, -⟩ := System.Protocol.reach_safe hmenu hc
  exact ⟨hsound.flushed, hsound.ordered, hsound.lines⟩

/-! ## Two runs -/

section Runs

variable {G : LogWriter → LogWriter → Prop}

/-- A thread takes so many steps, and the environment answers true. -/
def acts (t : Thread) (n : Nat) : List ((logging.restrict G).Move Bool) :=
  List.replicate n (.act t true)

/-- The writer is started and a record submitted. -/
def begins (record : LogRecord) : List ((logging.restrict G).Move Bool) :=
  .start .control start (.inl rfl) :: acts .control 4 ++
  .start (.caller 0) _ (.inr ⟨record, rfl⟩) :: acts (.caller 0) 2 ++
  [.start .writer writer rfl]

/-- A flush that finds its target covered. -/
def flushes : List ((logging.restrict G).Move Bool) :=
  .start (.caller 1) flushCall (.inl rfl) :: acts (.caller 1) 6

def idle : System.Config Thread Instr Instr.Answer LogWriter := ⟨{}, fun _ => .ret ()⟩

instance (s t : LogWriter) : Decidable (Clean s t) :=
  inferInstanceAs (Decidable (_ → _ → _))

/-- The writer flushes the sink in its first pass, and the flush after it answers true. -/
theorem flush_truthful_run : ∃ c, (logging.restrict Clean).Reach c ∧
    c.shared.flushed = [(1, true)] ∧
    c.shared.sink = [.write [.record 0 {}] true, .flush true] ∧ Truth c.shared := by
  have hrun : ((executor Clean).perform idle (begins {} ++ acts .writer 25 ++ flushes)).map
      (fun c => (c.shared.flushed, c.shared.sink)) =
      some ([(1, true)], [.write [.record 0 {}] true, .flush true]) := by decide +kernel
  obtain ⟨c, hc, heq⟩ := Option.map_eq_some_iff.1 hrun
  have hreach := System.Executor.reach_perform (.init rfl) hc
  exact ⟨c, hreach, congrArg Prod.fst heq, congrArg Prod.snd heq, flush_truthful hreach⟩

/-- The flush at the end of the first thread fails; the second finds nothing to do, and a flush
answers true for the line that no flush of the sink has followed. -/
def restart : List ((logging.restrict fun _ _ => True).Move Bool) :=
  begins {} ++ acts .writer 16 ++ .act .writer false :: acts .writer 5 ++
  .start .control stop (.inr rfl) :: acts .control 2 ++
  acts .writer 15 ++ .act .writer false :: acts .writer 6 ++
  acts .control 3 ++
  .start .control start (.inl rfl) :: acts .control 4 ++
  .start .writer writer rfl :: acts .writer 16 ++
  flushes

theorem restart_forgets_unflushed : ∃ c, logging.Reach c ∧ c.shared.flushed = [(1, true)] ∧
    c.shared.accepted = [{}] ∧ c.shared.sink = [.write [.record 0 {}] true, .flush false] ∧
    ¬ Truth c.shared := by
  have hrun : ((executor fun _ _ => True).perform idle restart).map
      (fun c => (c.shared.flushed, c.shared.accepted, c.shared.sink)) =
      some ([(1, true)], [{}], [.write [.record 0 {}] true, .flush false]) := by decide +kernel
  obtain ⟨c, hc, heq⟩ := Option.map_eq_some_iff.1 hrun
  have hreach := System.Executor.reach_perform (.init rfl) hc
  have hflushed : c.shared.flushed = [(1, true)] := congrArg Prod.fst heq
  have haccepted : c.shared.accepted = [{}] := congrArg (·.2.1) heq
  have hsink : c.shared.sink = [.write [.record 0 {}] true, .flush false] := congrArg (·.2.2) heq
  refine ⟨c, hreach.of_restrict, hflushed, haccepted, hsink, fun htruth => ?_⟩
  obtain ⟨r, hr, hkept⟩ := htruth.flushed 1 (by rw [hflushed]; exact mem_singleton_self _) 0
    Nat.one_pos
  rw [haccepted] at hr
  cases hr
  rcases hkept with hring | ⟨before, batch, after, hsplit, -, hflush⟩
  · cases hring
  · -- no flush of the sink has succeeded
    have hmem : .flush true ∈ c.shared.sink := by
      rw [hsplit]
      exact mem_append_right _ (mem_cons_of_mem _ hflush)
    rw [hsink] at hmem
    exact absurd hmem (by decide)

end Runs

end Satellite.Log
