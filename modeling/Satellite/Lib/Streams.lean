import Mathlib.Data.List.Basic
import Mathlib.Order.Interval.Finset.Nat

/-!
# Rings, blocks and windows

Three ways to cut what comes one after the other. The positions of a ring share its cells:
position `p` is in cell `p % n`, and a lap is any `n` positions in a row. A stream is read
in blocks of `n` elements, with what is left kept for the next delivery; `blocks_append`
and `rest_append` say that the deliveries do not matter. Traffic is limited to `budget`
admissions a `period`, counted in windows that the traffic itself opens: the first arrival
opens one, and so does the first arrival a period or more after the last opening. Openings
are a period apart, so no interval of a period meets more than two windows.
-/

/-! ## Laps -/

/-- Positions of one lap with one cell are one position. -/
theorem eq_of_lap {n d p p' : Nat} (hp : d ≤ p ∧ p < d + n) (hp' : d ≤ p' ∧ p' < d + n)
    (h : p % n = p' % n) : p = p' :=
  Nat.mod_injOn_Ico d n (Finset.mem_coe.2 (Finset.mem_Ico.2 hp))
    (Finset.mem_coe.2 (Finset.mem_Ico.2 hp')) h

/-- Every lap has a position for each cell. -/
theorem exists_lap {n : Nat} (hn : 0 < n) (d i : Nat) :
    ∃ p, d ≤ p ∧ p < d + n ∧ p % n = i % n := by
  have hi : i % n ∈ (Finset.Ico d (d + n)).image (· % n) := by
    rw [Nat.image_Ico_mod]
    exact Finset.mem_range.2 (Nat.mod_lt i hn)
  obtain ⟨p, hp, hmod⟩ := Finset.mem_image.1 hi
  exact ⟨p, (Finset.mem_Ico.1 hp).1, (Finset.mem_Ico.1 hp).2, hmod⟩

/-- Earlier positions of one cell are at least a lap behind. -/
theorem lap_le {n p p' : Nat} (hlt : p < p') (h : p % n = p' % n) : p + n ≤ p' := by
  have hdvd : n ∣ p' - p := Nat.dvd_of_mod_eq_zero (Nat.sub_mod_eq_zero_of_mod_eq h.symm)
  have := Nat.le_of_dvd (by omega) hdvd
  omega

theorem mod_succ_ne {n p : Nat} (hn : 2 ≤ n) : p % n ≠ (p + 1) % n := by
  intro h
  have := lap_le (Nat.lt_succ_self p) h
  omega

/-! ## Blocks of a stream -/

namespace Satellite.Blocks

open List

variable {α : Type} {n : Nat}

def blocks (n : Nat) (xs : List α) : List (List α) :=
  (List.range (xs.length / n)).map fun i => (xs.drop (i * n)).take n

/-- What is left after the last whole block. -/
def rest (n : Nat) (xs : List α) : List α := xs.drop (xs.length / n * n)

theorem blocks_of_lt {xs : List α} (h : xs.length < n) : blocks n xs = [] := by
  rw [blocks, Nat.div_eq_of_lt h, range_zero, map_nil]

theorem rest_of_lt {xs : List α} (h : xs.length < n) : rest n xs = xs := by
  rw [rest, Nat.div_eq_of_lt h, Nat.zero_mul, drop_zero]

theorem length_div_of_le {xs : List α} (hn : 0 < n) (h : n ≤ xs.length) :
    xs.length / n = (xs.drop n).length / n + 1 := by
  rw [length_drop, Nat.div_eq_sub_div hn h]

theorem blocks_of_le {xs : List α} (hn : 0 < n) (h : n ≤ xs.length) :
    blocks n xs = xs.take n :: blocks n (xs.drop n) := by
  rw [blocks, length_div_of_le hn h, range_succ_eq_map, map_cons, Nat.zero_mul,
    drop_zero, map_map, blocks]
  congr 1
  apply map_congr_left
  intro i _
  rw [Function.comp_apply, drop_drop, Nat.succ_mul, Nat.add_comm]

theorem rest_of_le {xs : List α} (hn : 0 < n) (h : n ≤ xs.length) :
    rest n xs = rest n (xs.drop n) := by
  rw [rest, rest, length_div_of_le hn h, drop_drop, Nat.succ_mul, Nat.add_comm]

theorem length_rest (xs : List α) : (rest n xs).length = xs.length % n := by
  rw [rest, length_drop, Nat.mod_eq_sub_div_mul]

theorem length_rest_lt (hn : 0 < n) (xs : List α) : (rest n xs).length < n := by
  rw [length_rest]
  exact Nat.mod_lt _ hn

/-- A delivery is cut as if it came right after what the earlier ones left over. -/
theorem append_eq (hn : 0 < n) (ys : List α) : ∀ xs : List α,
    blocks n (xs ++ ys) = blocks n xs ++ blocks n (rest n xs ++ ys) ∧
      rest n (xs ++ ys) = rest n (rest n xs ++ ys) := by
  intro xs
  -- on the length of what was there before; each round takes one whole block from it
  induction hlen : xs.length using Nat.strongRecOn generalizing xs with
  | ind len ih =>
    by_cases hlt : xs.length < n
    · rw [blocks_of_lt hlt, rest_of_lt hlt, nil_append]
      exact ⟨rfl, rfl⟩
    · have hle : n ≤ xs.length := Nat.le_of_not_lt hlt
      have hle' : n ≤ (xs ++ ys).length := by
        rw [length_append]
        omega
      have hdrop : (xs ++ ys).drop n = xs.drop n ++ ys := drop_append_of_le_length hle
      have htake : (xs ++ ys).take n = xs.take n := take_append_of_le_length hle
      have hshorter : (xs.drop n).length < len := by
        rw [length_drop]
        omega
      obtain ⟨hblocks, hrest⟩ := ih _ hshorter (xs.drop n) rfl
      rw [blocks_of_le hn hle', rest_of_le hn hle', blocks_of_le hn hle, rest_of_le hn hle, hdrop,
        htake, hblocks, hrest]
      exact ⟨rfl, rfl⟩

theorem blocks_append (hn : 0 < n) (xs ys : List α) :
    blocks n (xs ++ ys) = blocks n xs ++ blocks n (rest n xs ++ ys) := (append_eq hn ys xs).1

theorem rest_append (hn : 0 < n) (xs ys : List α) :
    rest n (xs ++ ys) = rest n (rest n xs ++ ys) := (append_eq hn ys xs).2

end Satellite.Blocks

/-! ## Fixed-window limits -/

namespace Satellite.FixedWindow

open List

structure Window where
  start : Nat := 0
  taken : Nat := 0
  deriving DecidableEq

structure Decision where
  now : Nat
  start : Nat
  admitted : Bool
  deriving DecidableEq

variable (period budget : Nat)

/-- The window an arrival is counted in. -/
def Window.reopen (w : Window) (now : Nat) : Window :=
  if w.taken = 0 ∨ period ≤ now - w.start then { start := now, taken := 0 } else w

def Window.take (w : Window) (now : Nat) : Decision × Window :=
  let w := w.reopen period now
  if budget ≤ w.taken then ({ now := now, start := w.start, admitted := false }, w)
  else ({ now := now, start := w.start, admitted := true }, { w with taken := w.taken + 1 })

/-- A decision names the window it leaves open. -/
theorem Window.take_fst (w : Window) (now : Nat) : (w.take period budget now).1 =
    { now := now, start := (w.take period budget now).2.start
      admitted := (w.take period budget now).1.admitted } := by
  rw [Window.take]
  split <;> rfl

/-- The admissions counted in the window that opened at `start`. -/
def admissions (log : List Decision) (start : Nat) : Nat :=
  log.countP fun d => d.admitted && d.start == start

/-- The log of a run and the window it has left. -/
structure Sound (w : Window) (log : List Decision) : Prop where
  within : ∀ d ∈ log, d.start ≤ d.now ∧ d.now < d.start + period
  apart : ∀ d ∈ log, ∀ e ∈ log,
    d.start = e.start ∨ d.start + period ≤ e.start ∨ e.start + period ≤ d.start
  past : ∀ d ∈ log, d.start = w.start ∨ d.start + period ≤ w.start
  taken_eq : w.taken = admissions log w.start
  opened : log ≠ [] → 0 < w.taken
  bounded : ∀ start, admissions log start ≤ budget
  refused : ∀ d ∈ log, d.admitted = false → budget ≤ admissions log d.start

variable {period budget} {w : Window} {log : List Decision}

theorem Sound.fresh (start : Nat) : Sound period budget { start := start } [] where
  within := nofun
  apart := nofun
  past := nofun
  taken_eq := rfl
  opened h := absurd rfl h
  bounded _ := Nat.zero_le _
  refused := nofun

theorem admissions_concat (d : Decision) (start : Nat) : admissions (log ++ [d]) start =
    admissions log start + if d.admitted && d.start == start then 1 else 0 := by
  rw [admissions, countP_append, countP_singleton]
  rfl

/-- A window nothing has been counted in yet. -/
theorem admissions_eq_zero {start : Nat} (h : ∀ d ∈ log, d.start ≠ start) :
    admissions log start = 0 := by
  rw [admissions, countP_eq_zero]
  intro d hd
  simp [h d hd]

/-- The window an arrival is counted in is either the one the log ends with or a new one, a
period after all that were opened. -/
theorem Sound.reopen (h : Sound period budget w log) (hp : 0 < period) {now : Nat}
    (hnow : ∀ d ∈ log, d.now ≤ now) :
    (w.reopen period now).start ≤ now ∧ now < (w.reopen period now).start + period ∧
      (∀ d ∈ log, d.start = (w.reopen period now).start ∨
        d.start + period ≤ (w.reopen period now).start) ∧
      (w.reopen period now).taken = admissions log (w.reopen period now).start := by
  rw [Window.reopen]
  split
  · next hopen =>
    have hpast : ∀ d ∈ log, d.start + period ≤ now := by
      intro d hd
      have htaken := h.opened (ne_nil_of_mem hd)
      have := h.past d hd
      omega
    refine ⟨Nat.le_refl _, Nat.lt_add_of_pos_right hp, fun d hd => .inr (hpast d hd), ?_⟩
    apply Eq.symm
    apply admissions_eq_zero
    intro d hd
    have := hpast d hd
    show d.start ≠ now
    omega
  · next hkeep =>
    -- something was counted in the window that stays open, so it was opened before `now`
    have hne : log ≠ [] := by
      rintro rfl
      exact hkeep (.inl h.taken_eq)
    have hcount : 0 < admissions log w.start := by
      have := h.taken_eq
      have := h.opened hne
      omega
    obtain ⟨d, hd, hstart⟩ := countP_pos_iff.mp hcount
    have hstart : d.start = w.start := by
      simp only [Bool.and_eq_true, beq_iff_eq] at hstart
      exact hstart.2
    have := h.within d hd
    have := hnow d hd
    exact ⟨by omega, by omega, h.past, h.taken_eq⟩

theorem forall_mem_concat {P : Decision → Prop} {d : Decision} (hlog : ∀ e ∈ log, P e) (hd : P d) :
    ∀ e ∈ log ++ [d], P e :=
  forall_mem_append.mpr ⟨hlog, forall_mem_singleton.mpr hd⟩

theorem Sound.apart_concat (h : Sound period budget w log) {d : Decision}
    (hpast : ∀ e ∈ log, e.start = d.start ∨ e.start + period ≤ d.start) :
    ∀ e ∈ log ++ [d], ∀ e' ∈ log ++ [d],
      e.start = e'.start ∨ e.start + period ≤ e'.start ∨ e'.start + period ≤ e.start := by
  refine forall_mem_concat (fun e he => forall_mem_concat (h.apart e he) ?_)
    (forall_mem_concat (fun e he => ?_) (.inl rfl))
  · have := hpast e he
    omega
  · have := hpast e he
    omega

/-- One arrival. -/
theorem Sound.take (h : Sound period budget w log) (hp : 0 < period) (hb : 0 < budget) {now : Nat}
    (hnow : ∀ d ∈ log, d.now ≤ now) :
    Sound period budget (w.take period budget now).2 (log ++ [(w.take period budget now).1]) := by
  obtain ⟨hle, hlt, hpast, htaken⟩ := h.reopen hp hnow
  rw [Window.take]
  generalize w.reopen period now = v at hle hlt hpast htaken
  by_cases hfull : budget ≤ v.taken
  · have hsame : ∀ start, admissions (log ++ [⟨now, v.start, false⟩]) start =
        admissions log start := fun start => admissions_concat _ start
    simp only [if_pos hfull]
    refine ⟨forall_mem_concat h.within ⟨hle, hlt⟩, h.apart_concat hpast,
      forall_mem_concat hpast (.inl rfl), ?_, fun _ => by omega, ?_, ?_⟩
    · rw [hsame, htaken]
    · intro start
      rw [hsame]
      exact h.bounded start
    · refine forall_mem_concat (fun d hd hno => ?_) fun _ => ?_
      · rw [hsame]
        exact h.refused d hd hno
      · rw [hsame, ← htaken]
        exact hfull
  · have hgrow : ∀ start, admissions log start ≤
        admissions (log ++ [⟨now, v.start, true⟩]) start := by
      intro start
      rw [admissions_concat]
      exact Nat.le_add_right _ _
    have hhere : admissions (log ++ [⟨now, v.start, true⟩]) v.start = v.taken + 1 := by
      rw [admissions_concat, htaken, Bool.true_and, beq_self_eq_true, if_pos rfl]
    simp only [if_neg hfull]
    refine ⟨forall_mem_concat h.within ⟨hle, hlt⟩, h.apart_concat hpast,
      forall_mem_concat hpast (.inl rfl), hhere.symm, fun _ => Nat.succ_pos _, ?_,
      forall_mem_concat (fun d hd hno => Nat.le_trans (h.refused d hd hno) (hgrow _)) nofun⟩
    intro start
    by_cases hstart : v.start = start
    · rw [← hstart, hhere]
      omega
    · rw [admissions_concat, Bool.true_and, beq_false_of_ne hstart, if_neg Bool.false_ne_true]
      exact h.bounded start

/-- The decisions of an interval that are all counted in one window are within the budget. -/
theorem Sound.countP_le (h : Sound period budget w log) {p : Decision → Bool}
    (hadmitted : ∀ d ∈ log, p d = true → d.admitted = true)
    (hone : ∀ d ∈ log, ∀ e ∈ log, p d = true → p e = true → d.start = e.start) :
    log.countP p ≤ budget := by
  rcases Nat.eq_zero_or_pos (log.countP p) with hzero | hpos
  · omega
  · obtain ⟨d, hd, hpd⟩ := countP_pos_iff.mp hpos
    refine Nat.le_trans (countP_mono_left fun e he hpe => ?_) (h.bounded d.start)
    simp [hadmitted e he hpe, hone e he d hd hpe hpd]

/-- Two decisions of one period whose windows opened on the same side of its beginning were
counted in one window. -/
theorem Sound.start_eq (h : Sound period budget w log) {a : Nat} {d e : Decision} (hd : d ∈ log)
    (he : e ∈ log) (hda : a ≤ d.now ∧ d.now < a + period) (hea : a ≤ e.now ∧ e.now < a + period)
    (hside : d.start < a ↔ e.start < a) : d.start = e.start := by
  have := h.within d hd
  have := h.within e he
  have := h.apart d hd e he
  omega

/-- No interval of a period admits more than two windows' worth. -/
theorem Sound.interval_le (h : Sound period budget w log) {a b : Nat} (hab : b ≤ a + period) :
    log.countP (fun d => d.admitted && (decide (a ≤ d.now) && decide (d.now < b))) ≤
      2 * budget := by
  rw [countP_eq_countP_filter_add log _ fun d => decide (d.start < a), countP_filter,
    countP_filter]
  have hhalf : ∀ side : Decision → Bool,
      (∀ d e, side d = true → side e = true → (d.start < a ↔ e.start < a)) →
      log.countP (fun d => (d.admitted && (decide (a ≤ d.now) && decide (d.now < b))) && side d) ≤
        budget := by
    intro side hside
    apply h.countP_le
    · intro d _ hpd
      simp only [Bool.and_eq_true] at hpd
      exact hpd.1.1
    · intro d hd e he hpd hpe
      simp only [Bool.and_eq_true, decide_eq_true_eq] at hpd hpe
      exact h.start_eq hd he ⟨hpd.1.2.1, by omega⟩ ⟨hpe.1.2.1, by omega⟩
        (hside d e hpd.2 hpe.2)
  have hbefore := hhalf (fun d => decide (d.start < a)) (by simp; omega)
  have hafter := hhalf (fun d => !decide (d.start < a)) (by simp; omega)
  omega

/-- Arrivals that keep to the budget in every period are all admitted. -/
theorem Sound.admitted_of_sparse (h : Sound period budget w log)
    (hsparse : ∀ a, log.countP (fun d => decide (a ≤ d.now) && decide (d.now < a + period)) ≤
      budget) : ∀ d ∈ log, d.admitted = true := by
  intro d hd
  apply Classical.byContradiction
  intro hno
  rw [Bool.not_eq_true] at hno
  have hwithin := h.within d hd
  -- the refused arrival is one more than those its window admitted, all of them in one period
  have hsplit := countP_eq_countP_filter_add log
    (fun e => decide (d.start ≤ e.now) && decide (e.now < d.start + period)) fun e => e.admitted
  rw [countP_filter, countP_filter] at hsplit
  have hmany : admissions log d.start ≤ log.countP fun e =>
      (decide (d.start ≤ e.now) && decide (e.now < d.start + period)) && e.admitted := by
    apply countP_mono_left
    intro e he hcounted
    simp only [Bool.and_eq_true, beq_iff_eq, decide_eq_true_eq] at hcounted ⊢
    have := h.within e he
    exact ⟨by omega, hcounted.1⟩
  have hself : 0 < log.countP fun e =>
      (decide (d.start ≤ e.now) && decide (e.now < d.start + period)) && !e.admitted := by
    apply countP_pos_iff.mpr
    refine ⟨d, hd, ?_⟩
    simp [hno, hwithin.1, hwithin.2]
  have := h.refused d hd hno
  have := hsparse d.start
  omega

end Satellite.FixedWindow
