import Mathlib

/-!
# Output buffers and where a list carries another

A buffer is a memory with a write position. Writing under a capacity refuses what does not
fit, so a chain of such writes is one write of all their bytes. A field can be written as a
placeholder and overwritten once its value is known.

A reader that walks a list by position sees, at a position where the list carries some
bytes, exactly those bytes.
-/

variable {α : Type}

/-! ## Writing -/

/-- The memory with `w` written from position `k` on. -/
def overwrite (m : Nat → α) (k : Nat) (w : List α) : Nat → α :=
  fun i => if k ≤ i then (w[i - k]?).getD (m i) else m i

theorem overwrite_of_lt (m : Nat → α) {k i : Nat} (w : List α) (h : i < k) :
    overwrite m k w i = m i := if_neg (Nat.not_le.mpr h)

theorem overwrite_of_ge (m : Nat → α) {k i : Nat} (w : List α) (h : k + w.length ≤ i) :
    overwrite m k w i = m i := by
  have hnone : w[i - k]? = none := List.getElem?_eq_none (by omega)
  simp only [overwrite, hnone, Option.getD_none, ite_self]

theorem overwrite_add (m : Nat → α) (k : Nat) {j : Nat} (w : List α) (h : j < w.length) :
    overwrite m k w (k + j) = w[j] := by
  simp [overwrite, h]

theorem overwrite_congr {m m' : Nat → α} {i : Nat} (k : Nat) (w : List α) (h : m i = m' i) :
    overwrite m k w i = overwrite m' k w i := by
  simp only [overwrite, h]

theorem overwrite_append (m : Nat → α) (k : Nat) (v w : List α) :
    overwrite (overwrite m k v) (k + v.length) w = overwrite m k (v ++ w) := by
  funext i
  unfold overwrite
  by_cases hk : k ≤ i
  · by_cases hv : i - k < v.length
    · have : ¬ k + v.length ≤ i := by omega
      simp [hk, this, List.getElem?_append_left hv]
    · have hi : k + v.length ≤ i := by omega
      have hsub : i - (k + v.length) = i - k - v.length := by omega
      have hnone : v[i - k]? = none := List.getElem?_eq_none (by omega)
      simp [hk, hi, hsub, hnone, List.getElem?_append_right (Nat.le_of_not_lt hv)]
  · have : ¬ k + v.length ≤ i := by omega
    simp [hk, this]

/-- Writing over a field of the same length leaves what was written around it. -/
theorem overwrite_patch (m : Nat → α) (k : Nat) (v x y w : List α) (h : x.length = y.length) :
    overwrite (overwrite m k (v ++ (x ++ w))) (k + v.length) y =
      overwrite m k (v ++ (y ++ w)) := by
  funext i
  rcases Nat.lt_or_ge i (k + v.length) with hi | hi
  · rw [overwrite_of_lt _ _ hi]
    simp only [← overwrite_append, overwrite_of_lt _ _ hi]
  obtain ⟨j, rfl⟩ := Nat.exists_eq_add_of_le hi
  rcases Nat.lt_or_ge j y.length with hj | hj
  · rw [overwrite_add _ _ _ hj, ← overwrite_append, overwrite_add _ _ _ (by simp; omega)]
    exact (List.getElem_append_left hj).symm
  · -- past the field both sides read what follows it
    rw [overwrite_of_ge _ _ (by omega)]
    simp only [← overwrite_append, h]
    apply overwrite_congr
    rw [overwrite_of_ge _ x (by omega), overwrite_of_ge _ y (by omega)]

structure Buffer (α : Type) where
  mem : Nat → α
  pos : Nat

namespace Buffer

/-- Write at the position and move past what was written. -/
def put (b : Buffer α) (w : List α) : Buffer α := ⟨overwrite b.mem b.pos w, b.pos + w.length⟩

/-- Write elsewhere and stay. -/
def patch (b : Buffer α) (k : Nat) (w : List α) : Buffer α := ⟨overwrite b.mem k w, b.pos⟩

/-- What stands before the position. -/
def contents (b : Buffer α) : List α := (List.range b.pos).map b.mem

/-- Write if it fits below `cap`. -/
def emit (cap : Nat) (b : Buffer α) (w : List α) : Option (Buffer α) :=
  if b.pos + w.length > cap then none else some (b.put w)

@[simp] theorem put_pos (b : Buffer α) (w : List α) : (b.put w).pos = b.pos + w.length := rfl

theorem put_put (b : Buffer α) (v w : List α) : (b.put v).put w = b.put (v ++ w) := by
  simp [put, overwrite_append, Nat.add_assoc]

theorem put_patch (b : Buffer α) (v x y w : List α) (h : x.length = y.length) :
    (b.put (v ++ (x ++ w))).patch (b.pos + v.length) y = b.put (v ++ (y ++ w)) := by
  simp [put, patch, overwrite_patch _ _ _ _ _ _ h, h]

variable {cap : Nat}

variable {w : List α} {f : Buffer α → Option (Buffer α)}

/-- A write followed by something that, with the position still in bounds, writes `w`. -/
theorem emit_bind (b : Buffer α) (v : List α)
    (hf : ∀ c, c.pos ≤ cap → f c = c.emit cap w) :
    (b.emit cap v).bind f = b.emit cap (v ++ w) := by
  by_cases hv : b.pos + v.length > cap
  · have : b.pos + (v ++ w).length > cap := by
      rw [List.length_append]
      omega
    rw [emit, emit, if_pos hv, if_pos this, Option.bind_none]
  · rw [emit, if_neg hv, Option.bind_some, hf _ (Nat.le_of_not_lt hv)]
    simp only [emit, put_pos, put_put, List.length_append, Nat.add_assoc]

/-- The same where what follows may also refuse on its own account. -/
theorem emit_bind_option (b : Buffer α) (v : List α) {o : Option (List α)}
    (hf : ∀ c, c.pos ≤ cap → f c = o.bind (c.emit cap)) :
    (b.emit cap v).bind f = (o.map (v ++ ·)).bind (b.emit cap) := by
  cases o with
  | some w => exact b.emit_bind v hf
  | none =>
    by_cases hv : b.pos + v.length > cap
    · rw [emit, if_pos hv]
      rfl
    · rw [emit, if_neg hv, Option.bind_some, hf _ (Nat.le_of_not_lt hv)]
      rfl

/-- What is written ahead of a bounded write counts against the same bound. -/
theorem put_emit (b : Buffer α) {v : List α} (h : b.pos + v.length ≤ cap)
    (w : List α) : (b.put v).emit cap w = b.emit cap (v ++ w) := by
  have hv : b.emit cap v = some (b.put v) := if_neg (Nat.not_lt.mpr h)
  rw [← b.emit_bind v fun c _ => rfl, hv, Option.bind_some]

theorem emit_nil {b : Buffer α} (h : b.pos ≤ cap) : b.emit cap [] = some b := by
  have hmem : overwrite b.mem b.pos [] = b.mem := by
    funext i
    simp [overwrite]
  have hput : b.put [] = b := by simp [put, hmem]
  rw [emit, hput]
  exact if_neg (Nat.not_lt.mpr h)

theorem emit_eq_some {b c : Buffer α} (h : b.emit cap w = some c) :
    b.pos + w.length ≤ cap ∧ c = b.put w := by
  unfold emit at h
  split at h
  · cases h
  · exact ⟨by omega, (Option.some.inj h).symm⟩

theorem emit_of_le (b : Buffer α) (h : b.pos + w.length ≤ cap) :
    b.emit cap w = some (b.put w) := if_neg (by omega)

theorem emit_of_gt {b : Buffer α} (h : cap < b.pos + w.length) :
    b.emit cap w = none := if_pos h

theorem contents_put (m : Nat → α) (w : List α) : ((⟨m, 0⟩ : Buffer α).put w).contents = w := by
  apply List.ext_getElem
  · simp [contents]
  · intro i _ hi
    have := overwrite_add m 0 w hi
    simp only [Nat.zero_add] at this
    simpa [contents, put] using this

theorem put_mem_of_ge (b : Buffer α) {i : Nat} (h : b.pos + w.length ≤ i) :
    (b.put w).mem i = b.mem i := overwrite_of_ge b.mem w h

end Buffer

/-! ## Reading -/

/-- The list carries `w` from position `k` on. -/
def Carries (xs : List α) (k : Nat) (w : List α) : Prop :=
  ∃ p q, p.length = k ∧ xs = p ++ (w ++ q)

namespace Carries

variable {xs v w : List α} {k : Nat}

theorem whole (w : List α) : Carries w 0 w := ⟨[], [], rfl, by simp⟩

theorem left (h : Carries xs k (v ++ w)) : Carries xs k v := by
  obtain ⟨p, q, hp, rfl⟩ := h
  exact ⟨p, w ++ q, hp, by simp⟩

theorem right (h : Carries xs k (v ++ w)) : Carries xs (k + v.length) w := by
  obtain ⟨p, q, rfl, rfl⟩ := h
  exact ⟨p ++ v, q, by simp, by simp⟩

theorem le (h : Carries xs k w) : k + w.length ≤ xs.length := by
  obtain ⟨p, q, rfl, rfl⟩ := h
  simp only [List.length_append]
  omega

theorem get (h : Carries xs k w) {i : Nat} (hi : i < w.length) : xs[k + i]? = some w[i] := by
  obtain ⟨p, q, rfl, rfl⟩ := h
  rw [List.getElem?_append_right (by omega), Nat.add_sub_cancel_left,
    List.getElem?_append_left hi, List.getElem?_eq_getElem hi]

theorem take_drop (h : Carries xs k w) {n : Nat} (hn : n ≤ w.length) :
    (xs.drop k).take n = w.take n := by
  obtain ⟨p, q, rfl, rfl⟩ := h
  rw [List.drop_left, List.take_append_of_le_length hn]

end Carries

/-! ## Counted sections -/

variable {β γ : Type}

/-- Read `n` items one after the other from a position on. -/
def readMany (item : Nat → Option (β × Nat)) : Nat → Nat → Option (List β × Nat)
  | 0, pos => some ([], pos)
  | n + 1, pos =>
    (item pos).bind fun (x, pos) => (readMany item n pos).map fun (xs, pos) => (x :: xs, pos)

/-- If each item of a list is read off its own bytes, the list is read off all of them. -/
theorem readMany_of_carries {xs : List α} (item : Nat → Option (β × Nat)) {wire : γ → List α}
    {view : γ → β} (cs : List γ)
    (hitem : ∀ c ∈ cs, ∀ pos, Carries xs pos (wire c) →
      item pos = some (view c, pos + (wire c).length)) :
    ∀ {pos : Nat}, Carries xs pos (cs.flatMap wire) →
      readMany item cs.length pos = some (cs.map view, pos + (cs.flatMap wire).length) := by
  induction cs with
  | nil =>
    intro pos _
    rfl
  | cons c cs ih =>
    intro pos h
    rw [List.flatMap_cons] at h ⊢
    have hfirst := hitem c (List.mem_cons_self ..) pos h.left
    have hrest := ih (fun d hd => hitem d (List.mem_cons_of_mem _ hd)) h.right
    rw [List.length_cons, readMany, hfirst]
    simp only [Option.bind_some, hrest, Option.map_some, List.map_cons, List.length_append,
      Nat.add_assoc]

variable {item : Nat → Option (β × Nat)}

theorem readMany_map {item' : Nat → Option (γ × Nat)}
    {f : γ → β} (h : ∀ pos, item pos = (item' pos).map fun p => (f p.1, p.2)) (n pos : Nat) :
    readMany item n pos = (readMany item' n pos).map fun p => (p.1.map f, p.2) := by
  induction n generalizing pos with
  | zero => rfl
  | succ n ih =>
    rw [readMany, readMany, h]
    cases item' pos with
    | none => rfl
    | some p =>
      simp only [Option.map_some, Option.bind_some, ih]
      cases readMany item' n p.2 with
      | none => rfl
      | some q => rfl

/-- The item at an index was read where the items before it end. -/
theorem readMany_get {n pos stop k : Nat} {xs : List β} {x : β}
    (h : readMany item n pos = some (xs, stop)) (hx : xs[k]? = some x) :
    ∃ ys mid next, readMany item k pos = some (ys, mid) ∧ item mid = some (x, next) := by
  induction n generalizing pos xs k with
  | zero =>
    obtain ⟨rfl, -⟩ := Prod.mk.inj (Option.some.inj h)
    cases hx
  | succ n ih =>
    obtain ⟨⟨y, next⟩, hitem, hrest⟩ := Option.bind_eq_some_iff.mp h
    obtain ⟨⟨ys, last⟩, hmany, heq⟩ := Option.map_eq_some_iff.mp hrest
    cases heq
    cases k with
    | zero =>
      cases hx
      exact ⟨[], pos, next, rfl, hitem⟩
    | succ k =>
      obtain ⟨zs, mid, after, hz, hread⟩ := ih hmany hx
      refine ⟨y :: zs, mid, after, ?_, hread⟩
      rw [readMany, hitem]
      simp only [Option.bind_some, hz, Option.map_some]
