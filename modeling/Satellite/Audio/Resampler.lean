import Mathlib.Algebra.BigOperators.Ring.List
import Mathlib.Algebra.Ring.Nat
import Mathlib.Data.Nat.GCD.Basic
import Mathlib.Data.List.Range
import Mathlib.Data.List.Flatten

/-!
# The rational resampler

`RationalResampler` of `core/audio/audio_resampler.h`. Output frame `k` stands at position
`k * m` of the stream upsampled by `l`; its tap set reads the sixteen input frames that end
there. Between calls the last fifteen frames are kept and the position is rebased onto the
new start of the buffer. A read outside the work buffer makes the model answer `none`.
-/

namespace Satellite.Audio

open List

def resamplerTapsPerPhase : Nat := 16

/-- The arithmetic of the filter, left open: the taps `buildFilter` lays out for a ratio, and
the multiplication, accumulation and rounding of one output sample. -/
structure Filter (F S : Type) where
  tap : (l m phase t : Nat) → F
  zero : F
  mac : F → F → S → F
  clampToI16 : F → S
  silence : S

/-- Samples are interleaved: frame `i` has its channels at `i * channels` and on. The source's
`int` and `int64_t` agree with `l`, `m` and `pos` while `16 * l < 2 ^ 31` and in every call
`(frames + 15) * l + m < 2 ^ 63`. -/
structure Resampler (S : Type) where
  l : Nat
  m : Nat
  channels : Nat
  /-- The position of the next output in upsampled samples of the buffer. -/
  pos : Nat
  hist : List S

variable {F S : Type} (φ : Filter F S)

namespace Resampler

def configure (inRateHz outRateHz channels : Int) : Resampler S :=
  let ch := if channels ≥ 1 then channels.toNat else 1
  if inRateHz ≤ 0 ∨ outRateHz ≤ 0 ∨ inRateHz = outRateHz then
    { l := 1, m := 1, channels := ch, pos := 0, hist := [] }
  else
    let g := Nat.gcd inRateHz.toNat outRateHz.toNat
    let history := resamplerTapsPerPhase - 1
    { l := outRateHz.toNat / g, m := inRateHz.toNat / g, channels := ch
      pos := history * (outRateHz.toNat / g), hist := List.replicate (history * ch) φ.silence }

variable (r : Resampler S)

def identity : Bool := r.l == 1 && r.m == 1

def historyFrames : Nat := if r.identity then 0 else resamplerTapsPerPhase - 1

def maxOutputFrames (inFrames : Nat) : Nat :=
  if r.identity then inFrames else inFrames * r.l / r.m + 1

/-- Channel `c` of the frame `t` before the newest one a tap set reads. -/
def readSample (work : List S) (newest c t : Nat) : Option S :=
  if newest < t then none else work[(newest - t) * r.channels + c]?

def accumulate (work : List S) (phase newest c : Nat) : Option F :=
  (List.range resamplerTapsPerPhase).foldlM
    (fun acc t => (r.readSample work newest c t).map (φ.mac acc (φ.tap r.l r.m phase t))) φ.zero

def outputFrame (work : List S) (pos : Nat) : Option (List S) :=
  (List.range r.channels).mapM fun c =>
    (r.accumulate φ work (pos % r.l) (pos / r.l) c).map φ.clampToI16

/-- The loop of `process`: the position it ends at and the samples it appends. -/
def outputLoop (work : List S) (total : Nat) : Nat → Nat → Option (Nat × List S)
  | 0, _ => none
  | rounds + 1, pos =>
    if pos / r.l + 1 ≤ total then
      (r.outputFrame φ work pos).bind fun frame =>
        (outputLoop work total rounds (pos + r.m)).map fun (pos, out) => (pos, frame ++ out)
    else some (pos, [])

/-- The resampler after a call and the samples the call appends. -/
def process (input : List S) (frames : Nat) : Option (Resampler S × List S) :=
  if r.identity then some (r, input.take (frames * r.channels))
  else if frames = 0 then some (r, [])
  else
    let work := r.hist ++ input.take (frames * r.channels)
    let total := r.historyFrames + frames
    (r.outputLoop φ work total (total * r.l + 1) r.pos).map fun (pos, out) =>
      ({ r with hist := work.drop (frames * r.channels), pos := pos - frames * r.l }, out)

/-- One call for each chunk of the stream. -/
def processAll : Resampler S → List (List S) → Option (Resampler S × List S)
  | r, [] => some (r, [])
  | r, chunk :: chunks =>
    (r.process φ chunk (chunk.length / r.channels)).bind fun (r, out) =>
      (processAll r chunks).map fun (r, rest) => (r, out ++ rest)

/-! ## One output frame -/

/-- Output frame `k` of a stream that has been padded with the initial history. -/
def frameAt (padded : List S) (k : Nat) : List S :=
  (List.range r.channels).map fun c => φ.clampToI16
    ((List.range resamplerTapsPerPhase).foldl (fun acc t =>
      φ.mac acc (φ.tap r.l r.m (k * r.m % r.l) t)
        ((padded[(15 + k * r.m / r.l - t) * r.channels + c]?).getD φ.silence)) φ.zero)

end Resampler

theorem foldlM_map_some {α β γ : Type} (f : α → β → γ → α) {read : β → Option γ} {g : β → γ}
    (bs : List β) (h : ∀ b ∈ bs, read b = some (g b)) (a : α) :
    bs.foldlM (fun acc b => (read b).map (f acc b)) a =
      some (bs.foldl (fun acc b => f acc b (g b)) a) := by
  induction bs generalizing a with
  | nil => rfl
  | cons b bs ih =>
    rw [foldlM_cons, h b mem_cons_self, Option.map_some, foldl_cons]
    exact ih (fun b' hb' => h b' (mem_cons_of_mem _ hb')) _

theorem mapM_some {α β : Type} {f : α → Option β} {g : α → β} (as : List α)
    (h : ∀ a ∈ as, f a = some (g a)) : as.mapM f = some (as.map g) := by
  induction as with
  | nil => rfl
  | cons a as ih =>
    rw [mapM_cons, h a mem_cons_self,
      ih fun a' ha' => h a' (mem_cons_of_mem _ ha')]
    rfl

namespace Resampler

variable {φ} {r : Resampler S}

/-- Where the resampler is in the padded stream: `n` frames of it are behind the buffer, and
output `k` is at position `pos` of the buffer. -/
structure Placed (r : Resampler S) (padded work : List S) (n frames pos k : Nat) : Prop where
  ratio : 0 < r.l
  work_eq : work = padded.drop (n * r.channels)
  length : padded.length = (15 + n + frames) * r.channels
  pos_eq : pos + n * r.l = 15 * r.l + k * r.m
  reach : 15 * r.l ≤ pos

section Placed

variable {padded work : List S} {n frames pos k : Nat} (h : Placed r padded work n frames pos k)
include h

theorem Placed.newest : pos / r.l + n = 15 + k * r.m / r.l := by
  rw [← Nat.add_mul_div_right _ _ h.ratio, h.pos_eq, Nat.add_comm,
    Nat.add_mul_div_right _ _ h.ratio, Nat.add_comm]

theorem Placed.phase : pos % r.l = k * r.m % r.l := by
  have hleft : (pos + n * r.l) % r.l = pos % r.l := Nat.add_mul_mod_self_right ..
  rw [← hleft, h.pos_eq, Nat.add_comm, Nat.add_mul_mod_self_right]

theorem Placed.newest_ge : 15 ≤ pos / r.l := (Nat.le_div_iff_mul_le h.ratio).mpr h.reach

/-- A tap set of the loop reads inside the work buffer, and what it reads is the stream's. -/
theorem Placed.readSample (hpos : pos / r.l + 1 ≤ 15 + frames) {c t : Nat} (hc : c < r.channels)
    (ht : t < 16) : r.readSample work (pos / r.l) c t =
      some ((padded[(15 + k * r.m / r.l - t) * r.channels + c]?).getD φ.silence) := by
  have hge := h.newest_ge
  have hnew := h.newest
  have hindex : n * r.channels + ((pos / r.l - t) * r.channels + c) =
      (15 + k * r.m / r.l - t) * r.channels + c := by
    have hsum : n + (pos / r.l - t) = 15 + k * r.m / r.l - t := by omega
    rw [← Nat.add_assoc, ← Nat.add_mul, hsum]
  have hlt : (15 + k * r.m / r.l - t) * r.channels + c < padded.length := by
    have hle : (15 + k * r.m / r.l - t + 1) * r.channels ≤ (15 + n + frames) * r.channels :=
      Nat.mul_le_mul_right _ (by omega)
    rw [Nat.add_mul, Nat.one_mul] at hle
    rw [h.length]
    omega
  rw [Resampler.readSample, if_neg (by omega), h.work_eq, getElem?_drop, hindex,
    getElem?_eq_getElem hlt, Option.getD_some]

theorem Placed.outputFrame (hpos : pos / r.l + 1 ≤ 15 + frames) :
    r.outputFrame φ work pos = some (r.frameAt φ padded k) := by
  apply mapM_some
  intro c hc
  have hread : ∀ t ∈ List.range resamplerTapsPerPhase, r.readSample work (pos / r.l) c t =
      some ((padded[(15 + k * r.m / r.l - t) * r.channels + c]?).getD φ.silence) :=
    fun t ht => h.readSample hpos (mem_range.mp hc) (mem_range.mp ht)
  rw [accumulate, h.phase,
    foldlM_map_some (fun acc t => φ.mac acc (φ.tap r.l r.m (k * r.m % r.l) t)) _ hread,
    Option.map_some]

theorem Placed.next : Placed r padded work n frames (pos + r.m) (k + 1) := by
  refine ⟨h.ratio, h.work_eq, h.length, ?_, Nat.le_trans h.reach (Nat.le_add_right _ _)⟩
  have := h.pos_eq
  rw [Nat.add_mul, Nat.one_mul]
  omega

/-- The loop goes on exactly as long as the next output lies before the end of the input. -/
theorem Placed.more_iff : pos / r.l + 1 ≤ 15 + frames ↔ k * r.m < (n + frames) * r.l := by
  have hpos := h.pos_eq
  rw [Nat.succ_le_iff, Nat.div_lt_iff_lt_mul h.ratio, Nat.add_mul, Nat.add_mul]
  omega

end Placed

variable {n : Nat}

/-- The loop appends the outputs up to the end of the input. -/
theorem outputLoop_eq {padded work : List S} {frames : Nat} (hm : 0 < r.m) (rounds : Nat) :
    ∀ {pos k : Nat}, Placed r padded work n frames pos k →
      (n + frames) * r.l ≤ k * r.m + rounds →
      ∃ pos' d, r.outputLoop φ work (15 + frames) (rounds + 1) pos =
          some (pos', (List.range' k d).flatMap (r.frameAt φ padded)) ∧
        Placed r padded work n frames pos' (k + d) ∧ (n + frames) * r.l ≤ (k + d) * r.m ∧
        (d = 0 ∨ (k + d) * r.m < (n + frames) * r.l + r.m) := by
  -- each round moves the next output on by at least one upsampled sample
  induction rounds with
  | zero =>
    intro pos k h hr
    have hstop : ¬pos / r.l + 1 ≤ 15 + frames := fun hmore => by
      have := h.more_iff.mp hmore
      omega
    refine ⟨pos, 0, ?_, h, hr, .inl rfl⟩
    rw [outputLoop, if_neg hstop, range'_zero, flatMap_nil]
  | succ rounds ih =>
    intro pos k h hr
    rw [outputLoop]
    by_cases hmore : pos / r.l + 1 ≤ 15 + frames
    · have hlt := h.more_iff.mp hmore
      have hnext : (k + 1) * r.m = k * r.m + r.m := by rw [Nat.add_mul, Nat.one_mul]
      obtain ⟨pos', d, hloop, hplaced, hend, hlast⟩ := ih h.next (by omega)
      have hcount : k + (d + 1) = k + 1 + d := by omega
      refine ⟨pos', d + 1, ?_, by rwa [hcount], by rwa [hcount], .inr ?_⟩
      · rw [if_pos hmore, h.outputFrame hmore, Option.bind_some, hloop, Option.map_some,
          range'_succ, flatMap_cons]
      · rw [hcount]
        rcases hlast with rfl | hlast
        · rw [Nat.add_zero]
          omega
        · exact hlast
    · have hend : ¬k * r.m < (n + frames) * r.l := fun hlt => hmore (h.more_iff.mpr hlt)
      refine ⟨pos, 0, ?_, h, Nat.le_of_not_lt hend, .inl rfl⟩
      rw [if_neg hmore, range'_zero, flatMap_nil]

/-! ## A stream -/

/-- The stream as the taps see it, with the silence that stands before it. -/
def padded (φ : Filter F S) (r : Resampler S) (seen : List S) : List S :=
  List.replicate (15 * r.channels) φ.silence ++ seen

/-- The resampler after `n` frames, with `k` of them out. -/
structure Streamed (φ : Filter F S) (r : Resampler S) (seen out : List S) (n k : Nat) : Prop where
  filters : r.identity = false
  up : 0 < r.l
  down : 0 < r.m
  length : seen.length = n * r.channels
  hist_eq : r.hist = (r.padded φ seen).drop (n * r.channels)
  pos_eq : r.pos + n * r.l = 15 * r.l + k * r.m
  low : n * r.l ≤ k * r.m
  high : k * r.m < n * r.l + r.m
  out_eq : out = (List.range k).flatMap (r.frameAt φ (r.padded φ seen))

theorem length_padded (seen : List S) :
    (r.padded φ seen).length = 15 * r.channels + seen.length := by
  rw [padded, length_append, length_replicate]

variable {seen : List S}

/-- An output that lies before the end of what was seen does not depend on what follows. -/
theorem frameAt_append {j : Nat} (more : List S) (hl : 0 < r.l)
    (hlen : seen.length = n * r.channels) (hj : j * r.m < n * r.l) :
    r.frameAt φ (r.padded φ (seen ++ more)) j = r.frameAt φ (r.padded φ seen) j := by
  have hq : j * r.m / r.l < n := (Nat.div_lt_iff_lt_mul hl).mpr hj
  apply map_congr_left
  intro c hc
  have hread : ∀ t, (r.padded φ (seen ++ more))[(15 + j * r.m / r.l - t) * r.channels + c]? =
      (r.padded φ seen)[(15 + j * r.m / r.l - t) * r.channels + c]? := by
    intro t
    have hle : (15 + j * r.m / r.l - t + 1) * r.channels ≤ (15 + n) * r.channels :=
      Nat.mul_le_mul_right _ (by omega)
    rw [Nat.add_mul, Nat.one_mul, Nat.add_mul] at hle
    have hc := mem_range.mp hc
    have happend : r.padded φ (seen ++ more) = r.padded φ seen ++ more :=
      (append_assoc ..).symm
    rw [happend, getElem?_append_left (by rw [length_padded, hlen]; omega)]
  simp only [hread]

variable {out : List S}

variable {k : Nat}

/-- The frame counts are those of the ratio rounded up. -/
theorem Streamed.count (h : Streamed φ r seen out n k) :
    k = (n * r.l + r.m - 1) / r.m := by
  have hlow := h.low
  have hhigh := h.high
  apply Eq.symm
  apply Nat.div_eq_of_lt_le
  · omega
  · rw [Nat.add_mul, Nat.one_mul]
    omega

theorem length_frames (source : List S) (ks : List Nat) :
    (ks.flatMap (r.frameAt φ source)).length = ks.length * r.channels := by
  induction ks with
  | nil => rw [flatMap_nil, length_nil, length_nil, Nat.zero_mul]
  | cons k ks ih =>
    rw [flatMap_cons, length_append, ih, frameAt, length_map, length_range,
      length_cons, Nat.add_mul, Nat.one_mul, Nat.add_comm]

variable {f : Nat}

/-- What one call appends fits `maxOutputFrames`, by the counts before and after it. -/
theorem count_le_maxOutputFrames {d : Nat} (hm : 0 < r.m) (hfilters : r.identity = false)
    (hlow : n * r.l ≤ k * r.m) (hlast : d = 0 ∨ (k + d) * r.m < (n + f) * r.l + r.m) :
    d ≤ r.maxOutputFrames f := by
  rw [maxOutputFrames, hfilters, if_neg Bool.false_ne_true]
  rcases hlast with rfl | hlast
  · exact Nat.zero_le _
  · rw [Nat.add_mul, Nat.add_mul] at hlast
    have hd : (d - 1) * r.m ≤ f * r.l := by
      rw [Nat.sub_mul, Nat.one_mul]
      omega
    have := (Nat.le_div_iff_mul_le hm).mpr hd
    omega

theorem identity_iff : r.identity = true ↔ r.l = 1 ∧ r.m = 1 := by
  rw [identity, Bool.and_eq_true, beq_iff_eq, beq_iff_eq]

theorem Streamed.historyFrames (h : Streamed φ r seen out n k) :
    r.historyFrames = 15 := by
  rw [Resampler.historyFrames, h.filters, if_neg Bool.false_ne_true]
  rfl

variable {chunk : List S}

/-- The work buffer of a call is the padded stream from where the buffer starts. -/
theorem Streamed.placed (h : Streamed φ r seen out n k)
    (hchunk : chunk.length = f * r.channels) :
    Placed r (r.padded φ (seen ++ chunk)) (r.hist ++ chunk.take (f * r.channels)) n f r.pos k := by
  have happend : r.padded φ (seen ++ chunk) = r.padded φ seen ++ chunk :=
    (append_assoc ..).symm
  have hin : n * r.channels ≤ (r.padded φ seen).length := by
    rw [length_padded, h.length]
    exact Nat.le_add_left _ _
  refine ⟨h.up, ?_, ?_, h.pos_eq, ?_⟩
  · rw [← hchunk, take_length, h.hist_eq, happend, drop_append_of_le_length hin]
  · rw [happend, length_append, length_padded, h.length, hchunk, Nat.add_mul, Nat.add_mul]
  · have := h.pos_eq
    have := h.low
    omega

/-- The outputs already made are those of the longer stream as well. -/
theorem Streamed.out_append (h : Streamed φ r seen out n k)
    (chunk : List S) (d : Nat) :
    out ++ (List.range' k d).flatMap (r.frameAt φ (r.padded φ (seen ++ chunk))) =
      (List.range (k + d)).flatMap (r.frameAt φ (r.padded φ (seen ++ chunk))) := by
  have hold : out = (List.range k).flatMap (r.frameAt φ (r.padded φ (seen ++ chunk))) := by
    rw [h.out_eq]
    apply flatMap_congr
    intro j hj
    have hle := Nat.mul_le_mul_right r.m (Nat.succ_le_of_lt (mem_range.mp hj))
    have hhigh := h.high
    rw [Nat.succ_mul] at hle
    exact (frameAt_append chunk h.up h.length (by omega)).symm
  rw [hold, ← flatMap_append, range_eq_range', range_eq_range',
    ← range'_append_1, Nat.zero_add]

/-- Where the loop ends, the last fifteen frames and the rebased position are on the stream. -/
theorem Streamed.rebase {work : List S} {pos d : Nat}
    (h : Streamed φ r seen out n k) (hchunk : chunk.length = f * r.channels)
    (hend : Placed r (r.padded φ (seen ++ chunk)) work n f pos (k + d))
    (hreach : (n + f) * r.l ≤ (k + d) * r.m)
    (hlast : d = 0 ∨ (k + d) * r.m < (n + f) * r.l + r.m) :
    Streamed φ { r with hist := work.drop (f * r.channels), pos := pos - f * r.l }
      (seen ++ chunk) (out ++ (List.range' k d).flatMap (r.frameAt φ (r.padded φ (seen ++ chunk))))
      (n + f) (k + d) where
  filters := h.filters
  up := h.up
  down := h.down
  length := by rw [length_append, h.length, hchunk, Nat.add_mul]
  hist_eq := by
    rw [hend.work_eq, drop_drop, ← Nat.add_mul]
    rfl
  pos_eq := by
    have hpos := hend.pos_eq
    have hsplit : (n + f) * r.l = n * r.l + f * r.l := Nat.add_mul ..
    show pos - f * r.l + (n + f) * r.l = 15 * r.l + (k + d) * r.m
    omega
  low := hreach
  high := by
    show (k + d) * r.m < (n + f) * r.l + r.m
    rcases hlast with rfl | hlast
    · have hhigh := h.high
      rw [Nat.add_zero, Nat.add_mul]
      omega
    · exact hlast
  out_eq := h.out_append chunk d

/-- One call: it reads inside its buffer and keeps the resampler on the stream. -/
theorem Streamed.process (h : Streamed φ r seen out n k)
    (hchunk : chunk.length = f * r.channels) :
    ∃ hist pos new k', r.process φ chunk f = some ({ r with hist := hist, pos := pos }, new) ∧
      Streamed φ { r with hist := hist, pos := pos } (seen ++ chunk) (out ++ new) (n + f) k' ∧
      new.length ≤ r.maxOutputFrames f * r.channels := by
  rcases Nat.eq_zero_or_pos f with rfl | hf
  · have hnil : chunk = [] := eq_nil_of_length_eq_zero (by rw [hchunk, Nat.zero_mul])
    refine ⟨r.hist, r.pos, [], k, ?_, ?_, Nat.zero_le _⟩
    · rw [Resampler.process, h.filters, if_neg Bool.false_ne_true, if_pos rfl]
    · rw [hnil, append_nil, append_nil]
      exact h
  · have hplaced := h.placed hchunk
    have hrounds : (n + f) * r.l ≤ k * r.m + (15 + f) * r.l := by
      have := h.low
      rw [Nat.add_mul, Nat.add_mul]
      omega
    obtain ⟨pos, d, hloop, hend, hreach, hlast⟩ :=
      outputLoop_eq (φ := φ) h.down ((15 + f) * r.l) hplaced hrounds
    refine ⟨(r.hist ++ chunk.take (f * r.channels)).drop (f * r.channels), pos - f * r.l,
      (List.range' k d).flatMap (r.frameAt φ (r.padded φ (seen ++ chunk))), k + d, ?_,
      h.rebase hchunk hend hreach hlast, ?_⟩
    · have hne : f ≠ 0 := by omega
      simp only [Resampler.process, h.filters, Bool.false_eq_true, if_false, if_neg hne,
        h.historyFrames, hloop, Option.map_some]
    · rw [length_frames, length_range']
      exact Nat.mul_le_mul_right _ (count_le_maxOutputFrames h.down h.filters h.low hlast)

/-! ## Runs -/

/-- What the resampler is for: the output of a whole stream, which reads no state. -/
def resampled (φ : Filter F S) (r : Resampler S) (seen : List S) : List S :=
  if r.identity then seen
  else (List.range ((seen.length / r.channels * r.l + r.m - 1) / r.m)).flatMap
    (r.frameAt φ (r.padded φ seen))

/-- The resampler has been given `seen` since it was configured and has made `out` of it. -/
inductive Follows (φ : Filter F S) (r : Resampler S) (seen out : List S) : Prop
  | passes (identity : r.identity = true) (hist : r.hist = []) (pos : r.pos = 0) (same : out = seen)
  | filters {n k : Nat} (streamed : Streamed φ r seen out n k)

/-- One call of a resampler that is on a stream. -/
theorem Follows.process (h : Follows φ r seen out)
    (hchunk : chunk.length = f * r.channels) :
    ∃ hist pos new, r.process φ chunk f = some ({ r with hist := hist, pos := pos }, new) ∧
      Follows φ { r with hist := hist, pos := pos } (seen ++ chunk) (out ++ new) ∧
      new.length ≤ r.maxOutputFrames f * r.channels := by
  cases h with
  | passes identity hist pos same =>
    refine ⟨r.hist, r.pos, chunk, ?_, .passes identity hist pos (by rw [same]), ?_⟩
    · rw [Resampler.process, if_pos identity, ← hchunk, take_length]
    · rw [maxOutputFrames, if_pos identity, hchunk]
  | filters streamed =>
    obtain ⟨hist, pos, new, k, hcall, hafter, hbound⟩ := streamed.process hchunk
    exact ⟨hist, pos, new, hcall, .filters hafter, hbound⟩

/-- Any splitting of a stream into calls leaves the resampler on the whole of it. -/
theorem Follows.processAll (chunks : List (List S)) : ∀ {r : Resampler S} {seen out : List S},
    Follows φ r seen out → (∀ chunk ∈ chunks, r.channels ∣ chunk.length) →
    ∃ hist pos new, processAll φ r chunks = some ({ r with hist := hist, pos := pos }, new) ∧
      Follows φ { r with hist := hist, pos := pos } (seen ++ chunks.flatten) (out ++ new) := by
  induction chunks with
  | nil =>
    intro r seen out h _
    refine ⟨r.hist, r.pos, [], rfl, ?_⟩
    rw [flatten_nil, append_nil, append_nil]
    exact h
  | cons chunk chunks ih =>
    intro r seen out h hdvd
    have hchunk := (Nat.div_mul_cancel (hdvd chunk mem_cons_self)).symm
    obtain ⟨hist, pos, new, hcall, hafter, -⟩ := h.process hchunk
    obtain ⟨hist', pos', rest, hrun, hend⟩ :=
      ih hafter fun c hc => hdvd c (mem_cons_of_mem _ hc)
    refine ⟨hist', pos', new ++ rest, ?_, ?_⟩
    · simp only [Resampler.processAll, hcall, Option.bind_some, hrun, Option.map_some]
    · rw [flatten_cons, ← append_assoc, ← append_assoc]
      exact hend

theorem Follows.out_eq (h : Follows φ r seen out) (hch : 0 < r.channels) :
    out = r.resampled φ seen := by
  cases h with
  | passes identity _ _ same => rw [resampled, if_pos identity, same]
  | filters streamed =>
    rw [resampled, streamed.filters, if_neg Bool.false_ne_true, streamed.length,
      Nat.mul_div_cancel _ hch, ← streamed.count]
    exact streamed.out_eq

theorem length_resampled (hdvd : r.channels ∣ seen.length) :
    (r.resampled φ seen).length =
      (seen.length / r.channels * r.l + r.m - 1) / r.m * r.channels := by
  rw [resampled]
  split
  · next identity =>
    obtain ⟨hl, hm⟩ : r.l = 1 ∧ r.m = 1 := by
      rwa [identity_iff] at identity
    rw [hl, hm, Nat.mul_one, Nat.add_sub_cancel, Nat.div_one, Nat.div_mul_cancel hdvd]
  · rw [length_frames, length_range]

/-! ## The configuration -/

section Configure

variable (φ) (inRateHz outRateHz channels : Int)

theorem configure_channels (hch : 1 ≤ channels) :
    (configure φ inRateHz outRateHz channels).channels = channels.toNat := by
  simp only [configure, ge_iff_le, hch, if_true]
  split <;> rfl

variable {inRateHz outRateHz}

theorem configure_ratio (hin : 0 < inRateHz) (hout : 0 < outRateHz) :
    (configure φ inRateHz outRateHz channels).l =
        outRateHz.toNat / Nat.gcd inRateHz.toNat outRateHz.toNat ∧
      (configure φ inRateHz outRateHz channels).m =
        inRateHz.toNat / Nat.gcd inRateHz.toNat outRateHz.toNat := by
  rw [configure]
  split
  · next hsame =>
    have heq : inRateHz = outRateHz := by omega
    have hpos : 0 < outRateHz.toNat := by omega
    rw [heq, Nat.gcd_self, Nat.div_self hpos]
    exact ⟨rfl, rfl⟩
  · exact ⟨rfl, rfl⟩

variable (inRateHz outRateHz)

/-- Whatever the arguments are, `configure` starts a stream. -/
theorem follows_configure : Follows φ (configure φ inRateHz outRateHz channels) [] [] := by
  rw [configure]
  split
  · exact .passes rfl rfl rfl rfl
  · next hdiffer =>
    have hin : 0 < inRateHz.toNat := by omega
    have hout : 0 < outRateHz.toNat := by omega
    have hg := Nat.gcd_pos_of_pos_left outRateHz.toNat hin
    have hl := Nat.div_mul_cancel (Nat.gcd_dvd_right inRateHz.toNat outRateHz.toNat)
    have hm := Nat.div_mul_cancel (Nat.gcd_dvd_left inRateHz.toNat outRateHz.toNat)
    have hup := Nat.div_pos (Nat.le_of_dvd hout (Nat.gcd_dvd_right inRateHz.toNat _)) hg
    have hdown := Nat.div_pos (Nat.le_of_dvd hin (Nat.gcd_dvd_left _ outRateHz.toNat)) hg
    refine .filters (n := 0) (k := 0) ⟨?_, hup, hdown, (Nat.zero_mul _).symm, ?_, ?_, ?_, ?_, rfl⟩
    · rw [Bool.eq_false_iff, ne_eq, identity_iff]
      rintro ⟨hl1, hm1⟩
      simp only at hl1 hm1
      rw [hl1, Nat.one_mul] at hl
      rw [hm1, Nat.one_mul] at hm
      omega
    · simp only [padded, append_nil, Nat.zero_mul, drop_zero, resamplerTapsPerPhase]
    · simp only [resamplerTapsPerPhase, Nat.zero_mul]
    · simp only [Nat.zero_mul, Nat.le_refl]
    · simpa only [Nat.zero_mul, Nat.zero_add] using hdown

end Configure

/-- The samples made of a stream do not depend on the calls it came in, every read of a call is
inside its buffer, the count is the ratio's rounded up, and a further call keeps its bound. -/
theorem resampler_streaming (φ : Filter F S) {inRateHz outRateHz channels : Int}
    (hin : 0 < inRateHz) (hout : 0 < outRateHz) (hch : 1 ≤ channels) (chunks : List (List S))
    (hchunks : ∀ chunk ∈ chunks, channels.toNat ∣ chunk.length) :
    let r₀ : Resampler S := configure φ inRateHz outRateHz channels
    let g := Nat.gcd inRateHz.toNat outRateHz.toNat
    let frames := chunks.flatten.length / channels.toNat
    ∃ r r₁ out, processAll φ r₀ chunks = some (r, out) ∧
      r₀.process φ chunks.flatten frames = some (r₁, out) ∧
      out.length = (frames * (outRateHz.toNat / g) + inRateHz.toNat / g - 1) /
        (inRateHz.toNat / g) * channels.toNat ∧
      ∀ chunk f, chunk.length = f * channels.toNat →
        ∃ r' new, r.process φ chunk f = some (r', new) ∧
          new.length ≤ r.maxOutputFrames f * channels.toNat := by
  intro r₀ g frames
  have hstart : Follows φ r₀ [] [] := follows_configure φ inRateHz outRateHz channels
  have hc : r₀.channels = channels.toNat := configure_channels φ inRateHz outRateHz channels hch
  obtain ⟨hl, hm⟩ := configure_ratio φ channels hin hout
  have hpos : 0 < r₀.channels := by omega
  have hdvd : r₀.channels ∣ chunks.flatten.length := by
    rw [hc, length_flatten]
    apply dvd_sum
    intro len hlen
    obtain ⟨chunk, hchunk, rfl⟩ := mem_map.mp hlen
    exact hchunks chunk hchunk
  have hframes : chunks.flatten.length = frames * r₀.channels := by
    show _ = chunks.flatten.length / channels.toNat * r₀.channels
    rw [← hc, Nat.div_mul_cancel hdvd]
  obtain ⟨hist, pos, out, hrun, hafter⟩ := hstart.processAll chunks (by rwa [hc])
  obtain ⟨hist', pos', whole, hcall, hwhole, -⟩ := hstart.process hframes
  -- both runs are the resampled stream, which does not mention the calls
  have hout : out = r₀.resampled φ chunks.flatten := hafter.out_eq hpos
  have hsame : whole = r₀.resampled φ chunks.flatten := hwhole.out_eq hpos
  refine ⟨_, _, out, hrun, by rw [hcall, hsame, hout], ?_, ?_⟩
  · rw [hout, length_resampled hdvd, hc, hl, hm]
  · intro chunk f hchunk
    rw [← hc] at hchunk
    obtain ⟨hist, pos, new, hnext, -, hbound⟩ := hafter.process hchunk
    exact ⟨_, new, hnext, by rwa [← hc]⟩

/-- A filter over the integers that adds up what it reads. -/
def sumFilter : Filter Int Int where
  tap _ _ _ _ := 1
  zero := 0
  mac acc tap sample := acc + tap * sample
  clampToI16 := id
  silence := 0

/-- Three stereo frames of a 32 kHz endpoint in two calls make five frames at 48 kHz. -/
theorem resampler_streaming_speaker : ∃ r r₁ out,
    processAll sumFilter (configure sumFilter 32000 48000 2) [[1, -1], [2, -2, 3, -3]] =
        some (r, out) ∧
      (configure sumFilter 32000 48000 2).process sumFilter [1, -1, 2, -2, 3, -3] 3 =
        some (r₁, out) ∧
      out.length = 5 * 2 := by
  have hchunks : ∀ chunk ∈ ([[1, -1], [2, -2, 3, -3]] : List (List Int)),
      (2 : Int).toNat ∣ chunk.length := by decide
  obtain ⟨r, r₁, out, hrun, hcall, hlength, -⟩ :=
    @resampler_streaming Int Int sumFilter 32000 48000 2 (by decide) (by decide) (by decide) _
      hchunks
  exact ⟨r, r₁, out, hrun, hcall, hlength⟩

end Resampler

end Satellite.Audio
