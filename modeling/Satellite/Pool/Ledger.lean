import Satellite.Model.Topology

/-!
# The serial ledger

An abstract account of the sixteen serials: who holds each of them, and what the
backend has been told about it. A running operation carries serials that no pad
holds, each at a stage; between two operations nothing is carried. Every phase of
a topology change is one of the moves below, and each move keeps the account.
-/

namespace Satellite

open List

/-! ## The ledger -/

/-- How far a serial that the running operation carries has got. -/
inductive Stage
  /-- Reserved; no device exists on it. -/
  | empty
  /-- A device exists on it that no pad holds. -/
  | plugged
  /-- Its device was told to go and may still be there. -/
  | zombie
  deriving DecidableEq

/-- The serials a running operation carries. -/
abbrev Carried := List (Nat × Stage)

namespace Carried

/-- The carried serials without their stages. -/
def serials (carried : Carried) : List Nat := carried.map Prod.fst

@[simp] theorem serials_nil : serials [] = [] := rfl

@[simp] theorem serials_cons (s : Nat) (st : Stage) (carried : Carried) :
    serials ((s, st) :: carried) = s :: carried.serials := rfl

@[simp] theorem serials_append (a b : Carried) : serials (a ++ b) = a.serials ++ b.serials :=
  map_append

theorem mem_serials_of_mem {carried : Carried} {s : Nat} {st : Stage} (h : (s, st) ∈ carried) :
    s ∈ carried.serials :=
  mem_map_of_mem h

end Carried

structure Ledger where
  /-- The serial that the controller at a row and index is active with. -/
  pad : Nat → Nat → Option Nat
  inUse : Nat → Bool
  quarantined : Nat → Bool
  calls : List Call
  bus : Bool

namespace Ledger

def setPad (p : Ledger) (r i : Nat) (x : Option Nat) : Ledger :=
  { p with pad := fun r' i' => if r' = r ∧ i' = i then x else p.pad r' i' }

def setInUse (p : Ledger) (s : Nat) (b : Bool) : Ledger :=
  { p with inUse := Function.update p.inUse s b }

def quarantine (p : Ledger) (s : Nat) : Ledger :=
  { p with inUse := Function.update p.inUse s false
           quarantined := Function.update p.quarantined s true }

def clearQuarantine (p : Ledger) : Ledger := { p with quarantined := fun _ => false }

def record (p : Ledger) (call : Call) : Ledger := { p with calls := call :: p.calls }

/-- Some pad is active with the serial. -/
def Holds (p : Ledger) (s : Nat) : Prop := ∃ r i, p.pad r i = some s

/-- The account balances. What rests on the bus reporting its own state needs `steady`. -/
structure Balanced (steady : Prop) (p : Ledger) (carried : Carried) : Prop where
  nodup : (carried.serials).Nodup
  inUse_iff : ∀ s, p.inUse s = true ↔ p.Holds s ∨ s ∈ carried.serials
  apart : ∀ s, p.Holds s → s ∉ carried.serials
  single : ∀ r i r' i' s, p.pad r i = some s → p.pad r' i' = some s → r = r' ∧ i = i'
  range : ∀ s, p.inUse s = true → 1 ≤ s ∧ s ≤ 16
  disjoint : ∀ s, p.quarantined s = true → p.inUse s = false
  outstanding_iff : ∀ s, outstanding p.calls s = true ↔ p.Holds s ∨ (s, Stage.plugged) ∈ carried
  zombie : ∀ s, (s, Stage.zombie) ∈ carried → unconfirmed p.calls s = true
  unconfirmed : steady → ∀ s, unconfirmed p.calls s = true →
    p.quarantined s = true ∨ (s, Stage.zombie) ∈ carried
  closed : steady → p.bus = false → ∀ s, outstanding p.calls s = false ∧
    Satellite.unconfirmed p.calls s = false ∧ p.quarantined s = false

variable {steady : Prop} {p : Ledger} {carried : Carried} {s : Nat}

@[simp] theorem setInUse_quarantined (b : Bool) :
    (p.setInUse s b).quarantined = p.quarantined := rfl

@[simp] theorem setInUse_calls (b : Bool) : (p.setInUse s b).calls = p.calls := rfl

@[simp] theorem quarantine_calls : (p.quarantine s).calls = p.calls := rfl

@[simp] theorem record_inUse (call : Call) : (p.record call).inUse = p.inUse := rfl

@[simp] theorem record_quarantined (call : Call) :
    (p.record call).quarantined = p.quarantined := rfl

@[simp] theorem record_calls (call : Call) : (p.record call).calls = call :: p.calls := rfl

theorem setPad_self (r i : Nat) : p.setPad r i (p.pad r i) = p := by
  have hpad : (fun r' i' => if r' = r ∧ i' = i then p.pad r i else p.pad r' i') = p.pad := by
    funext r' i'
    by_cases h : r' = r ∧ i' = i
    · rw [if_pos h, h.1, h.2]
    · rw [if_neg h]
  rw [setPad, hpad]

theorem setPad_setPad (r i : Nat) (x y : Option Nat) :
    (p.setPad r i x).setPad r i y = p.setPad r i y := by
  simp only [setPad]
  congr 1
  funext r' i'
  by_cases h : r' = r ∧ i' = i <;> simp [h]

@[simp] theorem setPad_inUse (r i : Nat) (x : Option Nat) :
    (p.setPad r i x).inUse = p.inUse := rfl

@[simp] theorem setPad_calls (r i : Nat) (x : Option Nat) :
    (p.setPad r i x).calls = p.calls := rfl

@[simp] theorem setPad_quarantined (r i : Nat) (x : Option Nat) :
    (p.setPad r i x).quarantined = p.quarantined := rfl

@[simp] theorem holds_setInUse (b : Bool) (t : Nat) : (p.setInUse s b).Holds t ↔ p.Holds t :=
  Iff.rfl

@[simp] theorem holds_quarantine (t : Nat) : (p.quarantine s).Holds t ↔ p.Holds t := Iff.rfl

@[simp] theorem holds_record (call : Call) (t : Nat) : (p.record call).Holds t ↔ p.Holds t :=
  Iff.rfl

@[simp] theorem inUse_setInUse_self (b : Bool) : (p.setInUse s b).inUse s = b := by
  simp [setInUse]

theorem inUse_setInUse_ne (b : Bool) {t : Nat} (h : t ≠ s) :
    (p.setInUse s b).inUse t = p.inUse t := by
  simp [setInUse, h]

theorem holds_setPad_some {r i : Nat} (hnone : p.pad r i = none) (t : Nat) :
    (p.setPad r i (some s)).Holds t ↔ p.Holds t ∨ t = s := by
  constructor
  · rintro ⟨r', i', h⟩
    by_cases hri : r' = r ∧ i' = i
    · simp only [setPad, hri, and_self, if_true, Option.some.injEq] at h
      exact .inr h.symm
    · simp only [setPad, hri, if_false] at h
      exact .inl ⟨r', i', h⟩
  · rintro (⟨r', i', h⟩ | rfl)
    · refine ⟨r', i', ?_⟩
      have hri : ¬ (r' = r ∧ i' = i) := by
        rintro ⟨rfl, rfl⟩
        rw [hnone] at h
        cases h
      simp only [setPad, hri, if_false, h]
    · exact ⟨r, i, by simp [setPad]⟩

theorem holds_setPad_none {r i : Nat} (hs : p.pad r i = some s)
    (hsingle : ∀ r i r' i' s, p.pad r i = some s → p.pad r' i' = some s → r = r' ∧ i = i')
    (t : Nat) : (p.setPad r i none).Holds t ↔ p.Holds t ∧ t ≠ s := by
  constructor
  · rintro ⟨r', i', h⟩
    by_cases hri : r' = r ∧ i' = i
    · simp [setPad, hri] at h
    · simp only [setPad, hri, if_false] at h
      refine ⟨⟨r', i', h⟩, ?_⟩
      rintro rfl
      exact hri (hsingle r' i' r i t h hs)
  · rintro ⟨⟨r', i', h⟩, hts⟩
    refine ⟨r', i', ?_⟩
    have hri : ¬ (r' = r ∧ i' = i) := by
      rintro ⟨rfl, rfl⟩
      rw [hs] at h
      exact hts (Option.some.inj h).symm
    simp only [setPad, hri, if_false, h]

namespace Balanced

/-- A serial that is neither held nor carried. -/
theorem not_inUse (h : p.Balanced steady carried) :
    p.inUse s = false ↔ ¬ p.Holds s ∧ s ∉ carried.serials := by
  rw [← Bool.not_eq_true, h.inUse_iff, not_or]

theorem perm (h : p.Balanced steady carried) {carried' : Carried} (hp : carried.Perm carried') :
    p.Balanced steady carried' := by
  have hfst : carried.serials.Perm carried'.serials := hp.map Prod.fst
  constructor
  · exact hfst.nodup_iff.1 h.nodup
  · intro s
    rw [h.inUse_iff, hfst.mem_iff]
  · intro s hs
    rw [← hfst.mem_iff]
    exact h.apart s hs
  · exact h.single
  · exact h.range
  · exact h.disjoint
  · intro s
    rw [h.outstanding_iff, hp.mem_iff]
  · intro s hs
    exact h.zombie s (hp.mem_iff.2 hs)
  · intro hst s hs
    rw [← hp.mem_iff]
    exact h.unconfirmed hst s hs
  · exact h.closed

/-- A free serial is reserved. -/
theorem take (h : p.Balanced steady carried) (hfree : p.inUse s = false)
    (hquar : p.quarantined s = false) (hrange : 1 ≤ s ∧ s ≤ 16) :
    (p.setInUse s true).Balanced steady ((s, .empty) :: carried) := by
  obtain ⟨hpad, hcar⟩ := h.not_inUse.1 hfree
  constructor
  · exact nodup_cons.2 ⟨hcar, h.nodup⟩
  · intro t
    by_cases hts : t = s
    · simp [hts]
    · simpa [inUse_setInUse_ne, hts] using h.inUse_iff t
  · intro t ht
    have hts : t ≠ s := fun e => hpad (e ▸ ht)
    simpa [hts] using h.apart t ht
  · exact h.single
  · intro t ht
    by_cases hts : t = s
    · exact hts ▸ hrange
    · exact h.range t (inUse_setInUse_ne true hts ▸ ht)
  · intro t ht
    have hts : t ≠ s := by
      rintro rfl
      exact Bool.false_ne_true (hquar.symm.trans ht)
    rw [inUse_setInUse_ne true hts]
    exact h.disjoint t ht
  · intro t
    simpa using h.outstanding_iff t
  · intro t ht
    exact h.zombie t (by simpa using ht)
  · intro hst t ht
    simpa using h.unconfirmed hst t ht
  · exact h.closed

/-- A reserved serial without a device is given back. -/
theorem release (h : p.Balanced steady ((s, .empty) :: carried)) :
    (p.setInUse s false).Balanced steady carried := by
  obtain ⟨hcar, hnd⟩ := nodup_cons.1 h.nodup
  have hpad : ¬ p.Holds s := fun hs => h.apart s hs (by simp)
  constructor
  · exact hnd
  · intro t
    by_cases hts : t = s
    · subst hts
      simpa using ⟨hpad, hcar⟩
    · simpa [inUse_setInUse_ne, hts] using h.inUse_iff t
  · intro t ht hc
    exact h.apart t ht (mem_cons_of_mem _ hc)
  · exact h.single
  · intro t ht
    have hts : t ≠ s := by
      rintro rfl
      simp at ht
    exact h.range t (inUse_setInUse_ne false hts ▸ ht)
  · intro t ht
    by_cases hts : t = s
    · simp [hts]
    · rw [inUse_setInUse_ne false hts]
      exact h.disjoint t ht
  · intro t
    simpa using h.outstanding_iff t
  · intro t ht
    exact h.zombie t (mem_cons_of_mem _ ht)
  · intro hst t ht
    simpa using h.unconfirmed hst t ht
  · exact h.closed

/-- A serial whose device may still be there is set aside. -/
theorem setAside (h : p.Balanced steady ((s, .zombie) :: carried)) :
    (p.quarantine s).Balanced steady carried := by
  obtain ⟨hcar, hnd⟩ := nodup_cons.1 h.nodup
  have hpad : ¬ p.Holds s := fun hs => h.apart s hs (by simp)
  have hzombie := h.zombie s (by simp)
  have hne : ∀ t, t ≠ s → (p.quarantine s).inUse t = p.inUse t ∧
      (p.quarantine s).quarantined t = p.quarantined t := by
    intro t ht
    simp [quarantine, ht]
  constructor
  · exact hnd
  · intro t
    by_cases hts : t = s
    · subst hts
      simpa [quarantine] using ⟨hpad, hcar⟩
    · simpa [hne t hts, hts] using h.inUse_iff t
  · intro t ht hc
    exact h.apart t ht (mem_cons_of_mem _ hc)
  · exact h.single
  · intro t ht
    by_cases hts : t = s
    · simp [quarantine, hts] at ht
    · exact h.range t ((hne t hts).1 ▸ ht)
  · intro t ht
    by_cases hts : t = s
    · simp [quarantine, hts]
    · rw [(hne t hts).1]
      exact h.disjoint t ((hne t hts).2 ▸ ht)
  · intro t
    simpa using h.outstanding_iff t
  · intro t ht
    exact h.zombie t (mem_cons_of_mem _ ht)
  · intro hst t ht
    by_cases hts : t = s
    · exact .inl (by simp [quarantine, hts])
    · rw [(hne t hts).2]
      simpa [hts] using h.unconfirmed hst t ht
  · intro hst hbus t
    have hopen := (h.closed hst hbus s).2.1
    rw [hzombie] at hopen
    cases hopen

/-- A reserved serial has no device, and none that may still be there. -/
theorem fresh (h : p.Balanced steady ((s, .empty) :: carried)) :
    outstanding p.calls s = false ∧ (steady → Satellite.unconfirmed p.calls s = false) := by
  obtain ⟨hcar, -⟩ := nodup_cons.1 h.nodup
  have hcars : ∀ st, (s, st) ∉ carried := fun st hc => hcar (Carried.mem_serials_of_mem hc)
  have huse : p.inUse s = true := (h.inUse_iff s).2 (.inr (by simp))
  constructor
  · rw [Bool.eq_false_iff]
    intro hout
    rcases (h.outstanding_iff s).1 hout with hheld | hmem
    · exact h.apart s hheld (by simp)
    · exact hcars .plugged (by simpa using hmem)
  · intro hst
    rw [Bool.eq_false_iff]
    intro hu
    rcases h.unconfirmed hst s hu with hquar | hmem
    · rw [h.disjoint s hquar] at huse
      cases huse
    · exact hcars .zombie (by simpa using hmem)

/-- A device is asked for on a reserved serial. -/
theorem plug (h : p.Balanced steady ((s, .empty) :: carried)) (hbus : steady → p.bus = true)
    (answer : Bool) : (p.record (.pluginDevice s answer)).Balanced steady
      ((s, if answer then .plugged else .empty) :: carried) := by
  obtain ⟨hcar, hnd⟩ := nodup_cons.1 h.nodup
  constructor
  · exact nodup_cons.2 ⟨hcar, hnd⟩
  · intro t
    simpa using h.inUse_iff t
  · intro t ht
    simpa using h.apart t ht
  · exact h.single
  · exact h.range
  · exact h.disjoint
  · intro t
    have ht := h.outstanding_iff t
    cases answer with
    | false => simpa [outstanding] using ht
    | true =>
      by_cases hts : t = s
      · simp [outstanding, hts]
      · simpa [outstanding, hts, Ne.symm hts] using ht
  · intro t ht
    have htc : (t, Stage.zombie) ∈ carried := by
      cases answer <;> simpa using ht
    cases answer <;> exact h.zombie t (mem_cons_of_mem _ htc)
  · intro hst t ht
    have hu : Satellite.unconfirmed p.calls t = true := by
      cases answer <;> exact ht
    have := h.unconfirmed hst t hu
    cases answer <;> simpa using this
  · intro hst hclosed
    have hopen := hbus hst
    rw [show p.bus = false from hclosed] at hopen
    cases hopen

/-- The device of a carried serial is told to go. -/
theorem unplug (h : p.Balanced steady ((s, .plugged) :: carried)) (answer : Bool) :
    (p.record (.unplugDevice s answer)).Balanced steady
      ((s, if answer then .empty else .zombie) :: carried) := by
  obtain ⟨hcar, hnd⟩ := nodup_cons.1 h.nodup
  have hpad : ¬ p.Holds s := fun hs => h.apart s hs (by simp)
  have hcars : ∀ st, (s, st) ∉ carried := fun st hc => hcar (Carried.mem_serials_of_mem hc)
  have hout : outstanding p.calls s = true := (h.outstanding_iff s).2 (.inr (by simp))
  constructor
  · exact nodup_cons.2 ⟨hcar, hnd⟩
  · intro t
    simpa using h.inUse_iff t
  · intro t ht
    simpa using h.apart t ht
  · exact h.single
  · exact h.range
  · exact h.disjoint
  · intro t
    have ht := h.outstanding_iff t
    by_cases hts : t = s
    · subst hts
      cases answer <;> simpa [outstanding] using ⟨hpad, hcars _⟩
    · cases answer <;> simpa [outstanding, hts, Ne.symm hts] using ht
  · intro t ht
    cases answer with
    | true => exact h.zombie t (by simpa using ht)
    | false =>
      by_cases hts : t = s
      · simp [Satellite.unconfirmed, hts]
      · have htc := h.zombie t (by simpa [hts] using ht)
        simp [Satellite.unconfirmed, htc]
  · intro hst t ht
    cases answer with
    | true => simpa using h.unconfirmed hst t ht
    | false =>
      by_cases hts : t = s
      · exact .inr (by simp [hts])
      · have hu : Satellite.unconfirmed p.calls t = true := by
          simpa [Satellite.unconfirmed, Ne.symm hts] using ht
        simpa [hts] using h.unconfirmed hst t hu
  · intro hst hclosed
    have hopen := (h.closed hst hclosed s).1
    rw [hout] at hopen
    cases hopen

/-- A pad takes a carried serial with a device. -/
theorem bind {r i : Nat} (h : p.Balanced steady ((s, .plugged) :: carried))
    (hnone : p.pad r i = none) : (p.setPad r i (some s)).Balanced steady carried := by
  obtain ⟨hcar, hnd⟩ := nodup_cons.1 h.nodup
  have hpad : ¬ p.Holds s := fun hs => h.apart s hs (by simp)
  have hholds := holds_setPad_some (s := s) hnone
  constructor
  · exact hnd
  · intro t
    have ht := h.inUse_iff t
    rw [Carried.serials_cons, mem_cons] at ht
    rw [hholds, or_assoc]
    exact ht
  · intro t ht
    rcases (hholds t).1 ht with ht | rfl
    · exact fun hc => h.apart t ht (mem_cons_of_mem _ hc)
    · exact hcar
  · intro r₁ i₁ r₂ i₂ t h₁ h₂
    by_cases e₁ : r₁ = r ∧ i₁ = i <;> by_cases e₂ : r₂ = r ∧ i₂ = i <;>
      simp only [setPad, e₁, e₂, and_self, if_true, if_false, Option.some.injEq] at h₁ h₂
    · exact ⟨e₁.1.trans e₂.1.symm, e₁.2.trans e₂.2.symm⟩
    · exact absurd ⟨r₂, i₂, h₁ ▸ h₂⟩ hpad
    · exact absurd ⟨r₁, i₁, h₂ ▸ h₁⟩ hpad
    · exact h.single r₁ i₁ r₂ i₂ t h₁ h₂
  · exact h.range
  · exact h.disjoint
  · intro t
    have ht := h.outstanding_iff t
    have hmem : (t, Stage.plugged) ∈ (s, Stage.plugged) :: carried ↔
        t = s ∨ (t, Stage.plugged) ∈ carried := by simp
    rw [hmem] at ht
    rw [hholds, or_assoc]
    exact ht
  · intro t ht
    exact h.zombie t (mem_cons_of_mem _ ht)
  · intro hst t ht
    simpa using h.unconfirmed hst t ht
  · exact h.closed

/-- A pad gives up its serial, whose device still exists. -/
theorem retire {r i : Nat} (h : p.Balanced steady carried) (hs : p.pad r i = some s) :
    (p.setPad r i none).Balanced steady ((s, .plugged) :: carried) := by
  have hcar := h.apart s ⟨r, i, hs⟩
  have hholds := holds_setPad_none hs h.single
  have hheld : p.Holds s := ⟨r, i, hs⟩
  constructor
  · exact nodup_cons.2 ⟨hcar, h.nodup⟩
  · intro t
    rw [hholds, Carried.serials_cons, mem_cons]
    have ht := h.inUse_iff t
    by_cases hts : t = s
    · subst hts
      simpa [hheld] using ht
    · simpa [hts] using ht
  · intro t ht
    obtain ⟨ht, hts⟩ := (hholds t).1 ht
    simpa [hts] using h.apart t ht
  · intro r₁ i₁ r₂ i₂ t h₁ h₂
    by_cases e₁ : r₁ = r ∧ i₁ = i <;> by_cases e₂ : r₂ = r ∧ i₂ = i <;>
      simp only [setPad, e₁, e₂, and_self, if_true, if_false, reduceCtorEq] at h₁ h₂
    exact h.single r₁ i₁ r₂ i₂ t h₁ h₂
  · exact h.range
  · exact h.disjoint
  · intro t
    have ht := h.outstanding_iff t
    rw [hholds]
    by_cases hts : t = s
    · subst hts
      simpa [hheld] using ht
    · simpa [hts] using ht
  · intro t ht
    exact h.zombie t (by simpa using ht)
  · intro hst t ht
    simpa using h.unconfirmed hst t ht
  · exact h.closed

/-- A closed bus is asked to open. -/
theorem ensure (h : p.Balanced steady carried) (hbus : steady → p.bus = false) (answer bus : Bool) :
    ({ p.record (.ensureBusOpen answer) with bus := bus } : Ledger).Balanced steady carried :=
  { h with
    closed hst _ := h.closed hst (hbus hst) }

/-- The quarantine is lifted when no unplug is in doubt. -/
theorem lift (h : p.Balanced steady carried)
    (hsure : steady → ∀ s, Satellite.unconfirmed p.calls s = false) :
    p.clearQuarantine.Balanced steady carried :=
  { h with
    disjoint s hs := by cases hs
    unconfirmed hst s hs := by
      rw [show (p.clearQuarantine).calls = p.calls from rfl, hsure hst s] at hs
      cases hs
    closed hst hbus s :=
      ⟨(h.closed hst hbus s).1, (h.closed hst hbus s).2.1, rfl⟩ }

/-- The bus is closed with no pad left, and the quarantine is lifted. -/
theorem close (h : p.Balanced steady []) (hnone : ∀ s, ¬ p.Holds s) (bus : Bool) :
    ({ (p.record .closeBus).clearQuarantine with bus := bus } : Ledger).Balanced steady [] :=
  { h with
    disjoint s hs := by cases hs
    zombie s hs := by cases hs
    unconfirmed _ s hs := by cases hs
    closed _ _ s := by
      have hs := h.outstanding_iff s
      simp only [not_mem_nil, or_false] at hs
      refine ⟨?_, rfl, rfl⟩
      rw [← Bool.not_eq_true]
      exact fun ho => hnone s (hs.1 ho) }

end Balanced

end Ledger

end Satellite
