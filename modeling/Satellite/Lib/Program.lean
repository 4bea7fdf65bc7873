import Mathlib

/-!
# Effectful programs and their weakest preconditions

A program is a tree of instructions with a constructor for unbounded loops. A
machine gives each instruction a precondition and a nondeterministic step, and
the weakest precondition of a program over a machine is defined by recursion on
the tree. Loops over lists come with one invariant rule each.
-/

/-- Programs over the instructions `ι`, where instruction `i` answers with a `ρ i`. -/
inductive Prog (ι : Type) (ρ : ι → Type) : Type → Type 1
  | ret {α : Type} (a : α) : Prog ι ρ α
  | op {α : Type} (i : ι) (k : ρ i → Prog ι ρ α) : Prog ι ρ α
  /-- Run `body` until it answers `some b`, then continue with `b`. -/
  | iter {α β : Type} (body : Prog ι ρ (Option β)) (k : β → Prog ι ρ α) : Prog ι ρ α

namespace Prog

variable {ι : Type} {ρ : ι → Type} {α β γ : Type}

/-- Sequential composition, pushed to the leaves of the tree. -/
def bind : Prog ι ρ α → (α → Prog ι ρ β) → Prog ι ρ β
  | ret a, f => f a
  | op i k, f => op i fun r => (k r).bind f
  | iter body k, f => iter body fun b => (k b).bind f

instance : Monad (Prog ι ρ) where
  pure := ret
  bind := bind

@[simp] theorem bind_eq (p : Prog ι ρ α) (f : α → Prog ι ρ β) : (p >>= f) = p.bind f := rfl

@[simp] theorem pure_eq (a : α) : (pure a : Prog ι ρ α) = ret a := rfl

@[simp] theorem ret_bind (a : α) (f : α → Prog ι ρ β) : (ret a).bind f = f a := rfl

@[simp] theorem op_bind (i : ι) (k : ρ i → Prog ι ρ α) (f : α → Prog ι ρ β) :
    (op i k).bind f = op i fun r => (k r).bind f := rfl

@[simp] theorem iter_bind (body : Prog ι ρ (Option γ)) (k : γ → Prog ι ρ α)
    (f : α → Prog ι ρ β) : (iter body k).bind f = iter body fun b => (k b).bind f := rfl

/-- Issue one instruction and answer its result. -/
def call (i : ι) : Prog ι ρ (ρ i) := op i ret

/-- Repeat `body` until it answers. -/
def loop (body : Prog ι ρ (Option β)) : Prog ι ρ β := iter body ret

/-! ## Loops over lists -/

/-- Run `f` on every element in order. -/
def forEach : List α → (α → Prog ι ρ Unit) → Prog ι ρ Unit
  | [], _ => ret ()
  | x :: xs, f => (f x).bind fun _ => forEach xs f

/-- Run `f` on every element in order and collect the answers. -/
def mapEach : List α → (α → Prog ι ρ β) → Prog ι ρ (List β)
  | [], _ => ret []
  | x :: xs, f => (f x).bind fun y => (mapEach xs f).bind fun ys => ret (y :: ys)

/-- Run `f` on the elements in order until it answers `some`. -/
def firstOf : List α → (α → Prog ι ρ (Option β)) → Prog ι ρ (Option β)
  | [], _ => ret none
  | x :: xs, f => (f x).bind fun
    | some y => ret (some y)
    | none => firstOf xs f

/-- Thread an accumulator through the elements in order. -/
def foldEach : List α → β → (β → α → Prog ι ρ β) → Prog ι ρ β
  | [], b, _ => ret b
  | x :: xs, b, f => (f b x).bind fun b' => foldEach xs b' f

end Prog

/-- What the instructions `ι` need and do over the states `S`. -/
structure Machine (ι : Type) (ρ : ι → Type) (S : Type) where
  /-- What has to hold where the instruction is issued. -/
  pre : ι → S → Prop
  /-- The instruction may answer `r` and move the state. -/
  step : (i : ι) → S → ρ i → S → Prop
  /-- Whether a loop has to be able to end wherever it starts over. -/
  ends : Prop := False

namespace Machine

variable {ι : Type} {ρ : ι → Type} {S : Type} {α β γ : Type} (M : Machine ι ρ S)

/-- `p` may run from `s` to its end in `s'`, answering `a`. -/
inductive Exec : {α : Type} → Prog ι ρ α → S → α → S → Prop
  | ret {α : Type} (a : α) (s : S) : Exec (.ret a) s a s
  | op {α : Type} {i : ι} {k : ρ i → Prog ι ρ α} {s t u : S} {r : ρ i} {a : α} :
      M.step i s r t → Exec (k r) t a u → Exec (.op i k) s a u
  | again {α β : Type} {body : Prog ι ρ (Option β)} {k : β → Prog ι ρ α} {s t u : S} {a : α} :
      Exec body s none t → Exec (.iter body k) t a u → Exec (.iter body k) s a u
  | stop {α β : Type} {body : Prog ι ρ (Option β)} {k : β → Prog ι ρ α} {s t u : S} {b : β}
      {a : α} : Exec body s (some b) t → Exec (k b) t a u → Exec (.iter body k) s a u

/-- Running `p` from `s`, the instruction `j` may be issued in the state `u`. -/
inductive Issues : {α : Type} → Prog ι ρ α → S → ι → S → Prop
  | here {α : Type} {i : ι} {k : ρ i → Prog ι ρ α} {s : S} : Issues (.op i k) s i s
  | op {α : Type} {i j : ι} {k : ρ i → Prog ι ρ α} {s t u : S} {r : ρ i} :
      M.step i s r t → Issues (k r) t j u → Issues (.op i k) s j u
  | body {α β : Type} {body : Prog ι ρ (Option β)} {k : β → Prog ι ρ α} {s u : S} {j : ι} :
      Issues body s j u → Issues (.iter body k) s j u
  | again {α β : Type} {body : Prog ι ρ (Option β)} {k : β → Prog ι ρ α} {s t u : S} {j : ι} :
      M.Exec body s none t → Issues (.iter body k) t j u → Issues (.iter body k) s j u
  | stop {α β : Type} {body : Prog ι ρ (Option β)} {k : β → Prog ι ρ α} {s t u : S} {b : β}
      {j : ι} : M.Exec body s (some b) t → Issues (k b) t j u → Issues (.iter body k) s j u

/-- Every instruction `p` issues from `s` is issued where it may be, and `Q` holds at the end. -/
def wp : {α : Type} → Prog ι ρ α → (α → S → Prop) → S → Prop
  | _, .ret a, Q, s => Q a s
  | _, .op i k, Q, s => M.pre i s ∧ ∀ r s', M.step i s r s' → wp (k r) Q s'
  | _, .iter body k, Q, s => ∃ I : S → Prop, I s ∧ ∀ t, I t →
      (M.ends → ∃ b u, M.Exec body t (some b) u) ∧
      wp body (fun o t' => o.elim (I t') fun b => wp (k b) Q t') t

variable {M}

variable {Q : α → S → Prop} {s : S}

@[simp] theorem wp_ret {a : α} : M.wp (.ret a) Q s = Q a s := rfl

@[simp] theorem wp_op {i : ι} {k : ρ i → Prog ι ρ α} :
    M.wp (.op i k) Q s = (M.pre i s ∧ ∀ r s', M.step i s r s' → M.wp (k r) Q s') := rfl

@[simp] theorem wp_call {i : ι} {Q : ρ i → S → Prop} :
    M.wp (Prog.call i) Q s = (M.pre i s ∧ ∀ r s', M.step i s r s' → Q r s') := rfl

variable {p : Prog ι ρ α}

variable {f : α → Prog ι ρ β}

theorem Exec.bind {t u : S} {a : α} {b : β}
    (hp : M.Exec p s a t) (hf : M.Exec (f a) t b u) : M.Exec (p.bind f) s b u := by
  induction hp with
  | ret a s => exact hf
  | op hstep _ ih => exact .op hstep (ih hf)
  | again hbody _ _ ih => exact .again hbody (ih hf)
  | stop hbody _ _ ih => exact .stop hbody (ih hf)

theorem wp_mono {R : α → S → Prop} (h : M.wp p Q s)
    (hQR : ∀ a t, Q a t → R a t) : M.wp p R s := by
  induction p generalizing s with
  | ret a => exact hQR a s h
  | op i k ih => exact ⟨h.1, fun r t ht => ih r (h.2 r t ht) hQR⟩
  | iter body k ihb ihk =>
    obtain ⟨I, hI, hbody⟩ := h
    refine ⟨I, hI, fun t ht => ⟨(hbody t ht).1, ihb (hbody t ht).2 ?_⟩⟩
    intro o t' ho
    cases o with
    | none => exact ho
    | some b => exact ihk b ho hQR

@[simp] theorem wp_bind {Q : β → S → Prop} :
    M.wp (p.bind f) Q s = M.wp p (fun a t => M.wp (f a) Q t) s := by
  induction p generalizing s with
  | ret a => rfl
  | op i k ih => simp only [Prog.op_bind, wp_op, ih]
  | iter body k _ ihk => simp only [Prog.iter_bind, wp, ihk]

/-- The loop rule: an invariant of the body that ends in the postcondition. -/
theorem wp_loop {body : Prog ι ρ (Option β)} {Q : β → S → Prop} (I : S → Prop)
    (hs : I s) (hends : M.ends → ∀ t, I t → ∃ b u, M.Exec body t (some b) u)
    (hbody : ∀ t, I t → M.wp body (fun o t' => o.elim (I t') fun b => Q b t') t) :
    M.wp (Prog.loop body) Q s :=
  ⟨I, hs, fun t ht => ⟨fun he => hends he t ht, hbody t ht⟩⟩

/-- What the weakest precondition promises holds at the end of every execution. -/
theorem wp_sound {u : S} {a : α}
    (hrun : M.Exec p s a u) (h : M.wp p Q s) : Q a u := by
  induction hrun with
  | ret a s => exact h
  | op hstep _ ih => exact ih (h.2 _ _ hstep)
  | again _ _ ihbody ih =>
    obtain ⟨I, hI, hbody⟩ := h
    exact ih ⟨I, ihbody (hbody _ hI).2, hbody⟩
  | stop _ _ ihbody ih =>
    obtain ⟨I, hI, hbody⟩ := h
    exact ih (ihbody (hbody _ hI).2)

/-- What an instruction needs holds wherever it is issued. -/
theorem wp_issues {u : S} {j : ι}
    (hissue : M.Issues p s j u) (h : M.wp p Q s) : M.pre j u := by
  induction hissue with
  | here => exact h.1
  | op hstep _ ih => exact ih (h.2 _ _ hstep)
  | body _ ih =>
    obtain ⟨I, hI, hbody⟩ := h
    exact ih (hbody _ hI).2
  | again hexec _ ih =>
    obtain ⟨I, hI, hbody⟩ := h
    exact ih ⟨I, wp_sound hexec (hbody _ hI).2, hbody⟩
  | stop hexec _ ih =>
    obtain ⟨I, hI, hbody⟩ := h
    have hend := wp_sound hexec (hbody _ hI).2
    exact ih hend

/-- A preorder that every step respects relates the start of a program to its end. -/
theorem wp_rel {R : S → S → Prop} (hrefl : ∀ s, R s s) (htrans : ∀ s t u, R s t → R t u → R s u)
    (hstep : ∀ i s r t, M.step i s r t → R s t)
    (h : M.wp p Q s) : M.wp p (fun a t => Q a t ∧ R s t) s := by
  induction p generalizing s with
  | ret a => exact ⟨h, hrefl s⟩
  | op i k ih =>
    refine ⟨h.1, fun r t ht => wp_mono (ih r (h.2 r t ht)) fun a u hu => ?_⟩
    exact ⟨hu.1, htrans s t u (hstep i s r t ht) hu.2⟩
  | iter body k ihb ihk =>
    obtain ⟨I, hI, hbody⟩ := h
    refine ⟨fun t => I t ∧ R s t, ⟨hI, hrefl s⟩, fun t ht => ⟨(hbody t ht.1).1, ?_⟩⟩
    refine wp_mono (ihb (hbody t ht.1).2) fun o t' ho => ?_
    have hst' := htrans s t t' ht.2 ho.2
    cases o with
    | none => exact ⟨ho.1, hst'⟩
    | some b =>
      exact wp_mono (ihk b ho.1) fun a u hu => ⟨hu.1, htrans s t' u hst' hu.2⟩

/-- If every instruction answers where it may be issued and every loop can end, `p` can. -/
theorem wp_exec (hends : M.ends) (htotal : ∀ i s, M.pre i s → ∃ r t, M.step i s r t)
    (h : M.wp p Q s) : ∃ a u, M.Exec p s a u := by
  induction p generalizing s with
  | ret a => exact ⟨a, s, .ret a s⟩
  | op i k ih =>
    obtain ⟨r, t, hstep⟩ := htotal i s h.1
    obtain ⟨a, u, hrun⟩ := ih r (h.2 r t hstep)
    exact ⟨a, u, .op hstep hrun⟩
  | iter body k _ ihk =>
    obtain ⟨I, hI, hbody⟩ := h
    obtain ⟨b, t, hstop⟩ := (hbody s hI).1 hends
    have hend := wp_sound hstop (hbody s hI).2
    obtain ⟨a, u, hrun⟩ := ihk b hend
    exact ⟨a, u, .stop hstop hrun⟩

/-- A machine that sees only `f` of the state decides for the one that sees all of it. -/
theorem wp_project {A : Type} {N : Machine ι ρ A} {f : S → A} (hends : ¬ M.ends)
    (hpre : ∀ i s, N.pre i (f s) → M.pre i s)
    (hstep : ∀ i s r t, M.step i s r t → N.step i (f s) r (f t))
    {Q : α → A → Prop} (h : N.wp p Q (f s)) :
    M.wp p (fun a t => Q a (f t)) s := by
  induction p generalizing s with
  | ret a => exact h
  | op i k ih => exact ⟨hpre i s h.1, fun r t ht => ih r (h.2 r (f t) (hstep i s r t ht))⟩
  | iter body k ihb ihk =>
    obtain ⟨I, hI, hbody⟩ := h
    refine ⟨fun t => I (f t), hI, fun t ht => ⟨fun he => absurd he hends, ?_⟩⟩
    refine wp_mono (ihb (hbody (f t) ht).2) fun o t' ho => ?_
    cases o with
    | none => exact ho
    | some b => exact ihk b ho

/-! ## Invariant rules for loops over lists

`I done s` holds when the elements `done` have been visited.
-/

variable {xs : List α}

/-- What holds at the end of a list, and before each element if behind it, holds at its start. -/
theorem of_splits {P : List α → List α → Prop} (hnil : P xs [])
    (hcons : ∀ done x rest, xs = done ++ x :: rest → P (done ++ [x]) rest → P done (x :: rest)) :
    P [] xs := by
  suffices h : ∀ rest done, xs = done ++ rest → P done rest from h xs [] rfl
  intro rest
  induction rest with
  | nil =>
    intro done hxs
    rw [List.append_nil] at hxs
    exact hxs ▸ hnil
  | cons x rest ih =>
    intro done hxs
    exact hcons done x rest hxs (ih (done ++ [x]) (by simpa using hxs))

theorem wp_forEach {f : α → Prog ι ρ Unit} (I : List α → S → Prop)
    (hs : I [] s)
    (hf : ∀ done x rest t, xs = done ++ x :: rest → I done t →
      M.wp (f x) (fun _ t' => I (done ++ [x]) t') t) :
    M.wp (Prog.forEach xs f) (fun _ t => I xs t) s := by
  refine of_splits (P := fun done rest => ∀ t, I done t →
    M.wp (Prog.forEach rest f) (fun _ t => I xs t) t) (fun _ ht => ht) ?_ s hs
  intro done x rest hxs ih t ht
  simp only [Prog.forEach, wp_bind]
  exact wp_mono (hf done x rest t hxs ht) fun _ t' ht' => ih t' ht'

theorem wp_foldEach {b : β} {f : β → α → Prog ι ρ β}
    (I : List α → β → S → Prop) (hs : I [] b s)
    (hf : ∀ done x rest c t, xs = done ++ x :: rest → I done c t →
      M.wp (f c x) (fun c' t' => I (done ++ [x]) c' t') t) :
    M.wp (Prog.foldEach xs b f) (fun c t => I xs c t) s := by
  refine of_splits (P := fun done rest => ∀ c t, I done c t →
    M.wp (Prog.foldEach rest c f) (fun c t => I xs c t) t) (fun _ _ ht => ht) ?_ b s hs
  intro done x rest hxs ih c t ht
  simp only [Prog.foldEach, wp_bind]
  exact wp_mono (hf done x rest c t hxs ht) fun c' t' ht' => ih c' t' ht'

theorem wp_mapEach
    (I : List α → List β → S → Prop) (hs : I [] [] s)
    (hf : ∀ done out x rest t, xs = done ++ x :: rest → I done out t →
      M.wp (f x) (fun y t' => I (done ++ [x]) (out ++ [y]) t') t) :
    M.wp (Prog.mapEach xs f) (fun out t => I xs out t) s := by
  refine of_splits (P := fun done rest => ∀ out t, I done out t →
    M.wp (Prog.mapEach rest f) (fun ys t => I xs (out ++ ys) t) t) ?_ ?_ [] s hs
  · intro out t ht
    simpa [Prog.mapEach] using ht
  · intro done x rest hxs ih out t ht
    simp only [Prog.mapEach, wp_bind, wp_ret]
    refine wp_mono (hf done out x rest t hxs ht) fun y t' ht' => ?_
    refine wp_mono (ih (out ++ [y]) t' ht') fun ys u hu => ?_
    simpa using hu

theorem wp_firstOf {f : α → Prog ι ρ (Option β)}
    (I : List α → S → Prop) (Q : Option β → S → Prop) (hs : I [] s)
    (hf : ∀ done x rest t, xs = done ++ x :: rest → I done t →
      M.wp (f x) (fun o t' => o.elim (I (done ++ [x]) t') fun y => Q (some y) t') t)
    (hend : ∀ t, I xs t → Q none t) :
    M.wp (Prog.firstOf xs f) Q s := by
  refine of_splits (P := fun done rest => ∀ t, I done t → M.wp (Prog.firstOf rest f) Q t)
    hend ?_ s hs
  intro done x rest hxs ih t ht
  simp only [Prog.firstOf, wp_bind]
  refine wp_mono (hf done x rest t hxs ht) fun o t' ht' => ?_
  cases o with
  | none => exact ih t' ht'
  | some y => exact ht'

end Machine
