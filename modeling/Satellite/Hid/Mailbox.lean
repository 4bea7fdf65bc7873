import Satellite.Lib.Seqlock

/-!
# The input frame mailbox

`writeInputFrame` (`hidmaestro_wire.cpp`) and `FrameMailbox.TryRead` share one section of
memory. Every load and store of a word or a byte is a step, and the steps of the two sides
interleave in any order. The counter is odd while a frame is being written; a reader that
finds it even and unchanged around its copy has the frame of one write.
-/

namespace Satellite.Mailbox

/-- A report that `writeInputFrame` accepts, with the companion slice if there is one. -/
structure Frame where
  report : List UInt8
  gip : Option (Vector UInt8 14)
  fits : report.length ≤ 256

open Seqlock Function List

/-- The words and bytes of the section that either side touches. -/
structure Section where
  seqNo : UInt32
  dataSize : UInt32
  data : Nat → UInt8
  gip : Nat → UInt8
  extSize : UInt32

/-- Where `writeInputFrame` is; `seq` is the counter it loaded. -/
inductive Writer
  | idle
  | loaded (f : Frame) (seq : UInt32)
  | opened (f : Frame) (seq : UInt32)
  /-- The size and the first `n` bytes of the report are stored. -/
  | copying (f : Frame) (seq : UInt32) (n : Nat)
  | slicing (f : Frame) (seq : UInt32) (n : Nat)
  | closing (f : Frame) (seq : UInt32)

/-- Where `TryRead` is, with the attempts it has left. -/
inductive Reader
  | idle
  | trying (left : Nat)
  | noted (left : Nat) (before : UInt32)
  /-- The first `n` of `size` bytes are in the frame buffer. -/
  | copying (left : Nat) (before : UInt32) (size n : Nat)

structure State where
  mem : Section
  writer : Writer := .idle
  reader : Reader := .idle
  lastSeq : UInt32
  frame : Nat → UInt8
  /-- The completed writes, oldest first. -/
  written : List Frame := []
  /-- The frames returned, oldest first, each with the counter left in `lastSeq`. -/
  returned : List (UInt32 × List UInt8) := []

/-- The next access of a write in progress. -/
def writerStep (s : State) : State :=
  match s.writer with
  | .idle => s
  | .loaded f seq =>
    { s with mem := { s.mem with seqNo := seq + 1 }, writer := .opened f seq }
  | .opened f seq =>
    { s with mem := { s.mem with dataSize := UInt32.ofNat f.report.length }
             writer := .copying f seq 0 }
  | .copying f seq n =>
    match f.report[n]? with
    | some v =>
      { s with mem := { s.mem with data := update s.mem.data n v }
               writer := .copying f seq (n + 1) }
    | none => { s with writer := .slicing f seq 0 }
  | .slicing f seq n =>
    match f.gip.bind (·[n]?) with
    | some v =>
      { s with mem := { s.mem with gip := update s.mem.gip n v }
               writer := .slicing f seq (n + 1) }
    | none => { s with mem := { s.mem with extSize := 0 }, writer := .closing f seq }
  | .closing f seq =>
    { s with mem := { s.mem with seqNo := seq + 2 }, writer := .idle
             written := s.written ++ [f] }

/-- `Retries`. -/
def retries : Nat := 4

/-- The next access of `TryRead`; an idle reader begins a call. -/
def readerStep (s : State) : State :=
  match s.reader with
  | .idle => { s with reader := .trying retries }
  | .trying 0 => { s with reader := .idle }
  | .trying (left + 1) =>
    if s.mem.seqNo = s.lastSeq then { s with reader := .idle }
    else if s.mem.seqNo &&& 1 ≠ 0 then { s with reader := .trying left }
    else { s with reader := .noted left s.mem.seqNo }
  | .noted left before =>
    { s with reader := .copying left before (min s.mem.dataSize.toNat 256) 0 }
  | .copying left before size n =>
    if n < size then
      { s with frame := update s.frame n (s.mem.data n)
               reader := .copying left before size (n + 1) }
    else if s.mem.seqNo ≠ before then { s with reader := .trying left }
    else
      { s with lastSeq := before, reader := .idle
               returned := s.returned ++ [(before, (List.range size).map s.frame)] }

inductive Step : State → State → Prop
  /-- `writeInputFrame` is called and loads the counter. -/
  | write {s : State} (f : Frame) (h : s.writer = .idle) :
      Step s { s with writer := .loaded f s.mem.seqNo }
  | writer {s : State} (h : s.writer ≠ .idle) : Step s (writerStep s)
  | reader {s : State} : Step s (readerStep s)

/-- Nothing written or returned, and a reader that has seen the counter as it is. -/
structure Initial (s : State) : Prop where
  even : s.mem.seqNo.toNat % 2 = 0
  synced : s.lastSeq = s.mem.seqNo
  writer : s.writer = .idle
  reader : s.reader = .idle
  written : s.written = []
  returned : s.returned = []

/-! ## The writer's side -/

/-- No store of a write has happened yet, or its last one has. -/
def Writer.quiet : Writer → Bool
  | .idle | .loaded _ _ => true
  | _ => false

/-- The section holds this frame. -/
structure Holds (m : Section) (f : Frame) : Prop where
  size : m.dataSize.toNat = f.report.length
  bytes : ∀ n v, f.report[n]? = some v → m.data n = v

/-- What a write in progress has loaded and stored so far; `k` increments of the counter
belong to completed writes. -/
def Progress (k : Nat) (m : Section) : Writer → Prop
  | .idle => True
  | .loaded _ seq | .opened _ seq => seq = counter k
  | .copying f seq n =>
    seq = counter k ∧ m.dataSize.toNat = f.report.length ∧
      ∀ j < n, ∀ v, f.report[j]? = some v → m.data j = v
  | .slicing f seq _ | .closing f seq => seq = counter k ∧ Holds m f

structure WriterSound (base : Nat) (s : State) : Prop where
  /-- The counter is one ahead while a write is open. -/
  seqNo : s.mem.seqNo = counter (base + 2 * s.written.length + if s.writer.quiet then 0 else 1)
  progress : Progress (base + 2 * s.written.length) s.mem s.writer
  held : s.writer.quiet = true → ∀ f ∈ s.written.getLast?, Holds s.mem f

theorem counter_add (k n : Nat) : counter k + UInt32.ofNat n = counter (k + n) := by
  rw [counter, counter, UInt32.ofNat_add]

theorem WriterSound.begin {base : Nat} {s : State} (h : WriterSound base s)
    (hidle : s.writer = .idle) (f : Frame) :
    WriterSound base { s with writer := .loaded f s.mem.seqNo } := by
  obtain ⟨hseq, -, hheld⟩ := h
  rw [hidle] at hseq hheld
  exact ⟨hseq, hseq, fun _ => hheld rfl⟩

theorem WriterSound.step {base : Nat} {s : State} (h : WriterSound base s) :
    WriterSound base (writerStep s) := by
  obtain ⟨hseq, hprog, hheld⟩ := h
  unfold writerStep
  split
  · exact ⟨hseq, hprog, hheld⟩
  next f seq hw =>
    rw [hw] at hprog
    exact ⟨by rw [hprog]; exact counter_add _ 1, hprog, nofun⟩
  next f seq hw =>
    rw [hw] at hprog hseq
    have hlen : (UInt32.ofNat f.report.length).toNat = f.report.length := by
      have := f.fits
      rw [UInt32.toNat_ofNat']
      omega
    exact ⟨hseq, ⟨hprog, hlen, nofun⟩, nofun⟩
  next f seq n hw =>
    rw [hw] at hprog hseq
    obtain ⟨hlocal, hlen, hbytes⟩ := hprog
    split
    next v hv =>
      refine ⟨hseq, ⟨hlocal, hlen, ?_⟩, nofun⟩
      intro j hj v' hv'
      by_cases hjn : j = n
      · subst hjn
        rw [hv, Option.some.injEq] at hv'
        rw [← hv']
        exact update_self ..
      · have := hbytes j (by omega) v' hv'
        rw [← this]
        exact update_of_ne hjn ..
    next hnone =>
      have hend : f.report.length ≤ n := List.getElem?_eq_none_iff.mp hnone
      refine ⟨hseq, ⟨hlocal, hlen, ?_⟩, nofun⟩
      intro j v hv
      have hj : j < f.report.length := (List.getElem?_eq_some_iff.mp hv).1
      exact hbytes j (by omega) v hv
  next f seq n hw =>
    rw [hw] at hprog hseq
    split
    · exact ⟨hseq, ⟨hprog.1, hprog.2.size, hprog.2.bytes⟩, nofun⟩
    · exact ⟨hseq, ⟨hprog.1, hprog.2.size, hprog.2.bytes⟩, nofun⟩
  next f seq hw =>
    rw [hw] at hprog
    obtain ⟨hlocal, hholds⟩ := hprog
    refine ⟨?_, trivial, ?_⟩
    · rw [hlocal, length_append, length_singleton]
      exact counter_add _ 2
    · intro _ g hg
      rw [getLast?_concat, Option.mem_some_iff] at hg
      rw [← hg]
      exact ⟨hholds.size, hholds.bytes⟩

/-! ## The reader's side -/

/-- What the frame buffer holds of the newest frame. -/
structure Copied (s : State) (size n : Nat) : Prop where
  newest : ∃ f ∈ s.written.getLast?, size = f.report.length ∧
    ∀ j < n, ∀ v, f.report[j]? = some v → s.frame j = v

/-- An attempt that noted the counter after `j` writes, none of which had been read. -/
def Attempt (base seen : Nat) (s : State) : Reader → Prop
  | .idle | .trying _ => True
  | .noted _ before =>
    ∃ j, before = counter (base + 2 * j) ∧ seen < j ∧ j ≤ s.written.length
  | .copying _ before size n =>
    ∃ j, before = counter (base + 2 * j) ∧ seen < j ∧ j ≤ s.written.length ∧
      (j = s.written.length → s.writer.quiet = true → Copied s size n)

/-- The frame returned is that of write number `j`, under the counter that write left. -/
def Returns (base : Nat) (written : List Frame) (j : Nat) (r : UInt32 × List UInt8) : Prop :=
  ∃ f, written[j]? = some f ∧ r = (counter (base + 2 * (j + 1)), f.report)

/-- The frames returned are those of the writes numbered `idx`; the reader has seen the
counter after `seen` writes. -/
structure ReaderSound (base : Nat) (s : State) (idx : List Nat) (seen : Nat) : Prop where
  lastSeq : s.lastSeq = counter (base + 2 * seen)
  seen_le : seen ≤ s.written.length
  order : idx.Pairwise (· < ·)
  before : ∀ j ∈ idx, j < seen
  newest : 0 < seen → seen - 1 ∈ idx
  frames : List.Forall₂ (Returns base s.written) idx s.returned
  attempt : Attempt base seen s s.reader

variable {base seen : Nat} {s t : State} {idx : List Nat}

/-- The writer's steps leave the reader's facts alone: what it copies from a frame that is
overwritten no longer counts. -/
theorem ReaderSound.frame_writer (h : ReaderSound base s idx seen)
    (hquiet : t.writer.quiet = true → t.written = s.written → s.writer.quiet = true)
    (hwritten : s.written <+: t.written := by exact prefix_refl _)
    (hlast : t.lastSeq = s.lastSeq := by rfl) (hreader : t.reader = s.reader := by rfl)
    (hframe : t.frame = s.frame := by rfl) (hreturned : t.returned = s.returned := by rfl) :
    ReaderSound base t idx seen := by
  have hle := hwritten.length_le
  refine ⟨hlast.trans h.lastSeq, Nat.le_trans h.seen_le hle, h.order, h.before, h.newest, ?_, ?_⟩
  · rw [hreturned]
    refine h.frames.imp ?_
    rintro j r ⟨f, hf, rfl⟩
    obtain ⟨u, hu⟩ := hwritten
    have hj := (List.getElem?_eq_some_iff.mp hf).1
    exact ⟨f, by rw [← hu, getElem?_append_left hj, hf], rfl⟩
  · have hatt := h.attempt
    rw [hreader]
    cases hr : s.reader with
    | idle => trivial
    | trying left => trivial
    | noted left before =>
      rw [hr] at hatt
      obtain ⟨j, hb, hlt, hj⟩ := hatt
      exact ⟨j, hb, hlt, Nat.le_trans hj hle⟩
    | copying left before size n =>
      rw [hr] at hatt
      obtain ⟨j, hb, hlt, hj, hcopied⟩ := hatt
      refine ⟨j, hb, hlt, Nat.le_trans hj hle, ?_⟩
      intro hjn hq
      have hsame : t.written = s.written := (hwritten.eq_of_length (by omega)).symm
      obtain ⟨f, hf, hsize, hbytes⟩ := (hcopied (hjn.trans (congrArg _ hsame)) (hquiet hq hsame)).newest
      exact ⟨f, by rwa [hsame], hsize, by rwa [hframe]⟩

theorem ReaderSound.begin (h : ReaderSound base s idx seen) (hidle : s.writer = .idle)
    (f : Frame) : ReaderSound base { s with writer := .loaded f s.mem.seqNo } idx seen := by
  refine h.frame_writer ?_
  intro _ _
  rw [hidle]
  rfl

theorem ReaderSound.writerStep (h : ReaderSound base s idx seen) :
    ReaderSound base (writerStep s) idx seen := by
  unfold Mailbox.writerStep
  split
  · exact h
  · exact h.frame_writer nofun
  · exact h.frame_writer nofun
  · split
    · exact h.frame_writer nofun
    · exact h.frame_writer nofun
  · split
    · exact h.frame_writer nofun
    · exact h.frame_writer nofun
  · refine h.frame_writer ?_ (prefix_append _ _)
    intro _ heq
    have := congrArg List.length heq
    simp at this

theorem counter_and_one (k : Nat) : counter k &&& 1 ≠ 0 ↔ k % 2 = 1 := by
  have hand : (counter k &&& 1).toNat = k % 2 := by
    simp only [counter, UInt32.toNat_and, UInt32.toNat_ofNat', UInt32.toNat_one,
      Nat.and_one_is_mod]
    omega
  rw [Ne, ← UInt32.toNat_inj, hand, UInt32.toNat_zero]
  omega

/-- A counter that is not odd belongs to a quiet writer. -/
theorem WriterSound.quiet_of_even (h : WriterSound base s) (hbase : base % 2 = 0)
    (heven : ¬ s.mem.seqNo &&& 1 ≠ 0) : s.writer.quiet = true := by
  rw [h.seqNo, counter_and_one] at heven
  by_contra hq
  rw [if_neg hq] at heven
  omega

/-- A counter that is what it was after `j` writes still is after `j` writes. -/
theorem WriterSound.unchanged (h : WriterSound base s) (hlt : s.written.length < 2 ^ 31) {j : Nat}
    (hj : j ≤ s.written.length) (heq : s.mem.seqNo = counter (base + 2 * j)) :
    j = s.written.length ∧ s.writer.quiet = true := by
  rw [h.seqNo] at heq
  have hbumps := eq_of_counter_eq (by omega) (by split <;> omega) heq.symm
  by_cases hq : s.writer.quiet = true
  · rw [if_pos hq] at hbumps
    exact ⟨by omega, hq⟩
  · rw [if_neg hq] at hbumps
    omega

theorem ReaderSound.with_attempt (h : ReaderSound base s idx seen) {r : Reader}
    (ha : Attempt base seen { s with reader := r } r) :
    ReaderSound base { s with reader := r } idx seen :=
  { h with attempt := ha }

/-- The buffer holds the whole of the newest frame. -/
theorem Copied.complete {size : Nat} (h : Copied s size size) :
    ∃ f ∈ s.written.getLast?, f.report = (List.range size).map s.frame := by
  obtain ⟨f, hf, hsize, hbytes⟩ := h.newest
  refine ⟨f, hf, ?_⟩
  apply ext_getElem
  · simp [hsize]
  · intro n hn _
    have := hbytes n (by omega) _ (getElem?_eq_getElem hn)
    simp [this]

/-- One access of the reader, with what it has to show for it if it returns a frame. -/
theorem ReaderSound.readerStep (h : ReaderSound base s idx seen) (hw : WriterSound base s)
    (hbase : base % 2 = 0) (hlt : s.written.length < 2 ^ 31) :
    ∃ idx' seen', ReaderSound base (readerStep s) idx' seen' := by
  have hatt := h.attempt
  unfold Mailbox.readerStep
  split
  · exact ⟨idx, seen, h.with_attempt trivial⟩
  · exact ⟨idx, seen, h.with_attempt trivial⟩
  · split
    · exact ⟨idx, seen, h.with_attempt trivial⟩
    rename_i left _ hnew
    split
    · exact ⟨idx, seen, h.with_attempt trivial⟩
    rename_i heven
    have hquiet := hw.quiet_of_even hbase heven
    have hseq : s.mem.seqNo = counter (base + 2 * s.written.length) := by
      rw [hw.seqNo, if_pos hquiet, Nat.add_zero]
    have hne : seen ≠ s.written.length := by
      intro heq
      apply hnew
      rw [hseq, h.lastSeq, heq]
    have hle := h.seen_le
    exact ⟨idx, seen, h.with_attempt ⟨_, hseq, by omega, Nat.le_refl _⟩⟩
  next left before hr =>
    rw [hr] at hatt
    obtain ⟨j, hb, hseen, hj⟩ := hatt
    refine ⟨idx, seen, h.with_attempt ⟨j, hb, hseen, hj, ?_⟩⟩
    intro hjn hquiet
    -- the newest write exists, and the section holds it
    have hne : s.written ≠ [] := ne_nil_of_length_pos (by omega)
    have hlast := getLast?_eq_some_getLast hne
    have hsize := (hw.held hquiet _ hlast).size
    have hfits := (s.written.getLast hne).fits
    refine ⟨_, hlast, ?_, nofun⟩
    omega
  next left before size n hr =>
    rw [hr] at hatt
    obtain ⟨j, hb, hseen, hj, hcopied⟩ := hatt
    split
    · refine ⟨idx, seen, h.lastSeq, h.seen_le, h.order, h.before, h.newest, h.frames,
        j, hb, hseen, hj, ?_⟩
      intro hjn hquiet
      obtain ⟨f, hf, hsize, hbytes⟩ := (hcopied hjn hquiet).newest
      refine ⟨f, hf, hsize, ?_⟩
      intro i hi v hv
      by_cases hin : i = n
      · subst hin
        rw [← (hw.held hquiet f hf).bytes i v hv]
        exact update_self ..
      · rw [← hbytes i (by omega) v hv]
        exact update_of_ne hin ..
    split
    · exact ⟨idx, seen, h.with_attempt trivial⟩
    rename_i hdone hsame
    obtain ⟨hjn, hquiet⟩ := hw.unchanged hlt hj ((not_not.mp hsame).trans hb)
    have hall := hcopied hjn hquiet
    obtain ⟨f, hf, hreport⟩ : ∃ f ∈ s.written.getLast?, f.report = (List.range size).map s.frame := by
      obtain ⟨g, hg, hsize, hbytes⟩ := hall.newest
      exact Copied.complete ⟨g, hg, hsize, fun i hi => hbytes i (by omega)⟩
    refine ⟨idx ++ [s.written.length - 1], j, hb, by omega, ?_, ?_, ?_, ?_, trivial⟩
    · rw [pairwise_append]
      refine ⟨h.order, pairwise_singleton _ _, ?_⟩
      intro i hi i' hi'
      rw [mem_singleton.mp hi']
      have := h.before i hi
      omega
    · intro i hi
      rcases mem_append.mp hi with hi | hi
      · have := h.before i hi
        omega
      · rw [mem_singleton.mp hi]
        omega
    · intro _
      rw [hjn]
      exact mem_append_right _ (mem_singleton_self _)
    · apply rel_append h.frames
      apply List.Forall₂.cons _ .nil
      rw [getLast?_eq_getElem?] at hf
      have hcount : s.written.length - 1 + 1 = j := by omega
      exact ⟨f, hf, by rw [hb, hcount, hreport]⟩

/-! ## Runs -/

/-- The reader stores nothing in the section. -/
theorem readerStep_writer (s : State) : (readerStep s).mem = s.mem ∧
    (readerStep s).writer = s.writer ∧ (readerStep s).written = s.written := by
  unfold readerStep
  split
  · exact ⟨rfl, rfl, rfl⟩
  · exact ⟨rfl, rfl, rfl⟩
  · split
    · exact ⟨rfl, rfl, rfl⟩
    · split <;> exact ⟨rfl, rfl, rfl⟩
  · exact ⟨rfl, rfl, rfl⟩
  · split
    · exact ⟨rfl, rfl, rfl⟩
    · split <;> exact ⟨rfl, rfl, rfl⟩

theorem writerStep_written_le (s : State) :
    s.written.length ≤ (writerStep s).written.length := by
  unfold writerStep
  split
  · exact Nat.le_refl _
  · exact Nat.le_refl _
  · exact Nat.le_refl _
  · split <;> exact Nat.le_refl _
  · split <;> exact Nat.le_refl _
  · simp

theorem WriterSound.readerStep (h : WriterSound base s) : WriterSound base (readerStep s) := by
  obtain ⟨hmem, hwriter, hwritten⟩ := readerStep_writer s
  refine ⟨?_, ?_, ?_⟩
  · rw [hmem, hwriter, hwritten, h.seqNo]
  · rw [hmem, hwriter, hwritten]
    exact h.progress
  · rw [hmem, hwriter, hwritten]
    exact h.held

theorem Step.written_le (h : Step s t) : s.written.length ≤ t.written.length := by
  cases h with
  | write f hidle => exact Nat.le_refl _
  | writer hbusy => exact writerStep_written_le s
  | reader => exact Nat.le_of_eq (congrArg List.length (readerStep_writer s).2.2.symm)

/-- Both sides' facts, with a counter that has not come round. -/
structure Sound (base : Nat) (s : State) : Prop where
  writer : WriterSound base s
  reader : ∃ idx seen, ReaderSound base s idx seen

theorem Sound.step (h : Sound base s) (hbase : base % 2 = 0) (hlt : s.written.length < 2 ^ 31)
    (hst : Step s t) : Sound base t := by
  obtain ⟨hw, idx, seen, hr⟩ := h
  cases hst with
  | write f hidle => exact ⟨hw.begin hidle f, idx, seen, hr.begin hidle f⟩
  | writer hbusy => exact ⟨hw.step, idx, seen, hr.writerStep⟩
  | reader => exact ⟨hw.readerStep, hr.readerStep hw hbase hlt⟩

theorem Initial.sound (h : Initial s) : Sound s.mem.seqNo.toNat s := by
  have hcounter : counter s.mem.seqNo.toNat = s.mem.seqNo := UInt32.ofNat_toNat
  refine ⟨⟨?_, ?_, ?_⟩, [], 0, ?_, Nat.zero_le _, .nil, nofun, nofun, ?_, ?_⟩
  · rw [h.writer, h.written]
    exact hcounter.symm
  · rw [h.writer]
    trivial
  · rw [h.written]
    nofun
  · exact h.synced.trans hcounter.symm
  · rw [h.returned]
    exact .nil
  · rw [h.reader]
    trivial

/-- Every state of a run with fewer than `2 ^ 31` writes is sound. -/
theorem sound_of_run {s₀ : State} (hinit : Initial s₀) (hrun : Relation.ReflTransGen Step s₀ s)
    (hlt : s.written.length < 2 ^ 31) : Sound s₀.mem.seqNo.toNat s := by
  induction hrun with
  | refl => exact hinit.sound
  | tail _ hst ih =>
    have hle := hst.written_le
    exact (ih (by omega)).step hinit.even (by omega) hst

/-! ## A call that is not disturbed -/

/-- One access of a call in progress. -/
def Busy (a b : State) : Prop := a.reader ≠ .idle ∧ b = readerStep a

/-- A call of `TryRead` that runs from beginning to end with no step of the writer between. -/
def Call (s t : State) : Prop :=
  Relation.ReflTransGen Busy (readerStep s) t ∧ t.reader = .idle

/-- The copy loop, left to itself, fills the buffer from the section. -/
theorem copy_run {left size : Nat} {before : UInt32} (d : Nat) :
    ∀ {n : Nat} {s : State}, s.reader = .copying left before size n → n + d = size →
      ∃ fr, Relation.ReflTransGen Busy s
          { s with frame := fr, reader := .copying left before size size } ∧
        (∀ i, n ≤ i → i < size → fr i = s.mem.data i) ∧ ∀ i < n, fr i = s.frame i := by
  induction d with
  | zero =>
    intro n s hr hn
    have hns : n = size := by omega
    subst hns
    refine ⟨s.frame, ?_, fun i h₁ h₂ => absurd h₂ (Nat.not_lt.mpr h₁), fun _ _ => rfl⟩
    rw [← hr]
  | succ d ih =>
    intro n s hr hn
    let u : State := { s with frame := update s.frame n (s.mem.data n)
                              reader := .copying left before size (n + 1) }
    have hstep : readerStep s = u := by
      unfold readerStep
      rw [hr]
      exact if_pos (by omega)
    obtain ⟨fr, hrun, hnew, hold⟩ := @ih (n + 1) u rfl (by omega)
    refine ⟨fr, .head ⟨by rw [hr]; nofun, hstep.symm⟩ hrun, ?_, ?_⟩
    · intro i hi hlt
      by_cases hin : i = n
      · subst hin
        rw [hold i (Nat.lt_succ_self i)]
        exact update_self ..
      · exact hnew i (by omega) hlt
    · intro i hi
      rw [hold i (by omega)]
      exact update_of_ne (by omega) ..

theorem exists_of_forall₂ {α β : Type} {R : α → β → Prop} {as : List α} {bs : List β}
    (h : List.Forall₂ R as bs) {a : α} (ha : a ∈ as) : ∃ b ∈ bs, R a b := by
  induction h with
  | nil => cases ha
  | cons hab _ ih =>
    rcases mem_cons.mp ha with rfl | ha
    · exact ⟨_, mem_cons_self, hab⟩
    · obtain ⟨b, hb, hR⟩ := ih ha
      exact ⟨b, mem_cons_of_mem _ hb, hR⟩

/-- A counter under which nothing was returned is not the one the reader has seen. -/
theorem ReaderSound.unseen (h : ReaderSound base s idx seen)
    (hlt : s.written.length < 2 ^ 31) (hpos : 0 < s.written.length)
    (hnew : ∀ r ∈ s.returned, r.1 ≠ counter (base + 2 * s.written.length)) :
    counter (base + 2 * s.written.length) ≠ s.lastSeq := by
  intro heq
  rw [h.lastSeq] at heq
  have hle := h.seen_le
  have hseen := eq_of_counter_eq (by omega) (by omega) heq.symm
  obtain ⟨r, hr, f, -, rfl⟩ := exists_of_forall₂ h.frames (h.newest (by omega))
  apply hnew _ hr
  have hcount : seen - 1 + 1 = s.written.length := by omega
  rw [hcount]

/-- Left to itself, a call returns the newest frame if it is a new one. -/
theorem call_newest (h : Sound base s) (hbase : base % 2 = 0) (hlt : s.written.length < 2 ^ 31)
    (hidle : s.writer = .idle) (hreader : s.reader = .idle) {f : Frame}
    (hf : f ∈ s.written.getLast?) (hnew : ∀ r ∈ s.returned, r.1 ≠ s.mem.seqNo) :
    ∃ t, Call s t ∧ t.returned = s.returned ++ [(s.mem.seqNo, f.report)] := by
  obtain ⟨hw, idx, seen, hr⟩ := h
  have hquiet : s.writer.quiet = true := by
    rw [hidle]
    rfl
  have hholds := hw.held hquiet f hf
  have hpos : 0 < s.written.length := by
    apply length_pos_iff.mpr
    rintro hnil
    rw [hnil] at hf
    cases hf
  have hseq : s.mem.seqNo = counter (base + 2 * s.written.length) := by
    rw [hw.seqNo, if_pos hquiet, Nat.add_zero]
  have hdiff : s.mem.seqNo ≠ s.lastSeq := by
    rw [hseq] at hnew ⊢
    exact hr.unseen hlt hpos hnew
  have heven : ¬ s.mem.seqNo &&& 1 ≠ 0 := by
    rw [hseq, counter_and_one]
    omega
  have hsize : min s.mem.dataSize.toNat 256 = f.report.length := by
    have := f.fits
    have := hholds.size
    omega
  -- the accesses of the call one by one
  let s₁ : State := { s with reader := .trying 4 }
  let s₂ : State := { s with reader := .noted 3 s.mem.seqNo }
  let s₃ : State := { s with reader := .copying 3 s.mem.seqNo f.report.length 0 }
  have h₁ : readerStep s = s₁ := by
    unfold readerStep
    rw [hreader]
    rfl
  have h₂ : readerStep s₁ = s₂ := by
    change (if s.mem.seqNo = s.lastSeq then _ else _) = _
    rw [if_neg hdiff, if_neg heven]
  have h₃ : readerStep s₂ = s₃ := by
    change ({ s with reader := .copying 3 s.mem.seqNo (min s.mem.dataSize.toNat 256) 0 } : State) = _
    rw [hsize]
  obtain ⟨fr, hcopy, hbytes, -⟩ := @copy_run 3 f.report.length s.mem.seqNo f.report.length 0 s₃ rfl
    (Nat.zero_add _)
  let s₄ : State := { s with frame := fr
                             reader := .copying 3 s.mem.seqNo f.report.length f.report.length }
  have hlast : readerStep s₄ =
      { s with lastSeq := s.mem.seqNo, frame := fr, reader := .idle
               returned := s.returned ++
                 [(s.mem.seqNo, (List.range f.report.length).map fr)] } := by
    change (if f.report.length < f.report.length then _ else if s.mem.seqNo ≠ s.mem.seqNo then _
      else _) = _
    rw [if_neg (Nat.lt_irrefl _), if_neg (not_not.mpr rfl)]
  have hreport : (List.range f.report.length).map fr = f.report := by
    apply ext_getElem
    · simp
    · intro n _ hn
      have := hholds.bytes n _ (getElem?_eq_getElem hn)
      rw [getElem_map, getElem_range, hbytes n (Nat.zero_le _) hn]
      exact this
  refine ⟨readerStep s₄, ⟨?_, by rw [hlast]⟩, by rw [hlast, hreport]⟩
  rw [h₁]
  refine .head ⟨nofun, h₂.symm⟩ (.head ⟨nofun, h₃.symm⟩ (.tail hcopy ⟨nofun, rfl⟩))

/-- In every run with fewer than `2 ^ 31` writes the frames returned are those of writes in
order, none of them twice, and a call that runs while no write is in progress returns the
newest frame unless that was returned before. -/
theorem mailbox_frames {s₀ s : State} (hinit : Initial s₀)
    (hrun : Relation.ReflTransGen Step s₀ s) (hlt : s.written.length < 2 ^ 31) :
    (∃ idx : List Nat, idx.Pairwise (· < ·) ∧
      List.Forall₂ (Returns s₀.mem.seqNo.toNat s.written) idx s.returned) ∧
    (s.writer = .idle → s.reader = .idle → ∀ f ∈ s.written.getLast?,
      (∀ r ∈ s.returned, r.1 ≠ s.mem.seqNo) →
      ∃ t, Call s t ∧ t.returned = s.returned ++ [(s.mem.seqNo, f.report)]) := by
  have hsound := sound_of_run hinit hrun hlt
  constructor
  · obtain ⟨-, idx, seen, hr⟩ := hsound
    exact ⟨idx, hr.order, hr.frames⟩
  · intro hw hr f hf hnew
    exact call_newest hsound hinit.even hlt hw hr hf hnew

/-- A fresh section as the relay creates it. -/
def fresh : State where
  mem := { seqNo := 0, dataSize := 0, data := fun _ => 0, gip := fun _ => 0, extSize := 0 }
  lastSeq := 0
  frame := fun _ => 0

def oneByte : Frame := ⟨[7], none, by decide⟩

/-- One frame is written and then read. -/
theorem mailbox_frames_fresh :
    ∃ s, Relation.ReflTransGen Step fresh s ∧ s.written = [oneByte] ∧
      ∃ t, Call s t ∧ t.returned = [(2, [7])] := by
  let s₀ : State := { fresh with writer := .loaded oneByte 0 }
  have hrun : Relation.ReflTransGen Step fresh (Nat.iterate writerStep 6 s₀) := by
    refine .head (.write oneByte rfl) ?_
    refine .head (.writer nofun) ?_
    refine .head (.writer nofun) ?_
    refine .head (.writer nofun) ?_
    refine .head (.writer nofun) ?_
    refine .head (.writer nofun) ?_
    exact .single (.writer nofun)
  have hinit : Initial fresh := ⟨rfl, rfl, rfl, rfl, rfl, rfl⟩
  have hframes := mailbox_frames hinit hrun (by decide : 1 < 2 ^ 31)
  refine ⟨_, hrun, rfl, ?_⟩
  exact hframes.2 rfl rfl oneByte rfl nofun

/-- A section with something in it that was there before any write. -/
def stale : State where
  mem := { seqNo := 2, dataSize := 1, data := fun _ => 7, gip := fun _ => 0, extSize := 0 }
  lastSeq := 0
  frame := fun _ => 0

/-- A reader that has not seen the counter as it is returns what no write has left. -/
theorem unsynced_reader_returns_no_write :
    stale.mem.seqNo.toNat % 2 = 0 ∧ stale.writer = .idle ∧ stale.reader = .idle ∧
      stale.written = [] ∧ stale.returned = [] ∧
      ∃ s, Relation.ReflTransGen Step stale s ∧ s.written = [] ∧ s.returned = [(2, [7])] := by
  refine ⟨rfl, rfl, rfl, rfl, rfl, Nat.iterate readerStep 5 stale, ?_, rfl, by decide⟩
  exact .head .reader (.head .reader (.head .reader (.head .reader (.single .reader))))

end Satellite.Mailbox
