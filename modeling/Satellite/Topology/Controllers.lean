import Satellite.Topology.Upsert

/-!
# Changing one controller

`applyController` and `removeController`: a plan of one pad, or of none, that
converges like the change of a PUT.
-/

namespace Satellite

open List

namespace SessionService

variable {B : Backend} {v : Topo} {k : Connection} {connectionId deviceId : String}

theorem findOwned_some {c : Cold} (h : findOwned c connectionId deviceId = some k) :
    k ∈ c.connections ∧ k.connectionId = connectionId ∧ k.deviceId = deviceId := by
  obtain ⟨hfind, hdev⟩ := Option.filter_eq_some_iff.1 h
  exact ⟨mem_of_find?_eq_some hfind, by simpa using find?_some hfind,
    by simpa using hdev⟩

/-- What a change of one controller leaves behind, with the epoch it answers. -/
structure Changed (B : Backend) (v v' : Topo) (connectionId deviceId : String) (epoch : Nat)
    (k' : Connection) : Prop where
  completed : Completed B v v'
  mem : k' ∈ v'.cold.connections
  id : k'.connectionId = connectionId
  device : k'.deviceId = deviceId
  seen : k'.held ∈ v'.held
  epoch : epoch = k'.epoch % 2 ^ 16

/-- A plan of one descriptor. -/
theorem PadPlan.plan {v' : Topo} {desc : ControllerDescriptor} {pad : PadChange}
    (h : PadPlan B v v' (k.controllers desc.ctrlIdx) desc pad) :
    Plan k (deferUnservedAdds [pad]) ∧
      padsCarried false (deferUnservedAdds [pad]) = padsCarried false [pad] := by
  apply Plan.defer
  refine ⟨?_, nodup_singleton _, ?_⟩
  · intro q hq
    rw [mem_singleton.1 hq, h.desc]
    exact h.planned
  · intro q hq
    rw [mem_singleton.1 hq]
    exact h.plugged

theorem wp_applyController {desc : ControllerDescriptor} (h : Settled B v)
    {Q : Option (ControllerApplyResult × Nat) → Topo → Prop}
    (hnone : ∀ v', Completed B v v' → Q none v')
    (hQ : ∀ v' out epoch k', Changed B v v' connectionId deviceId epoch k' →
      out.Agrees k'.types → Q (some (out, epoch)) v') :
    (topoMachine B).wp (applyController connectionId deviceId desc) Q v := by
  rw [applyController, wp_bind']
  refine wp_locked h.unlocked ?_
  rw [wp_bind', wp_cold h.acquire.locked]
  cases hfind : findOwned v.cold connectionId deviceId with
  | none => exact ⟨⟨[], h.acquire⟩, hnone _ (Completed.unchanged h)⟩
  | some k =>
    obtain ⟨hk, hid, hdev⟩ := findOwned_some hfind
    rw [wp_bind']
    refine wp_planPad h.acquire fun v₁ pad h₁ hres hpad => ?_
    obtain ⟨hplan, hcarried⟩ := PadPlan.plan hpad
    have hsum : pad.carried false ++ [] = padsCarried false (deferUnservedAdds [pad]) := by
      rw [hcarried]
      simp [padsCarried]
    rw [hsum] at h₁
    have hk₁ : v₁.release.cold.conn? k.row = some k := by
      apply Cold.conn?_of_mem h₁.sound.rows
      rw [hres.pool.connections]
      exact hk
    refine ⟨⟨_, h₁⟩, ?_⟩
    rw [wp_bind']
    refine wp_convergePads h₁.release hk₁ hplan (by rfl) (by rfl)
      fun v₂ k₂ change₂ h₂ hk₂ hsame hmatch hends => ?_
    rw [wp_bind']
    refine wp_locked h₂.unlocked ?_
    have hpads : ∃ pad', change₂.pads = [pad'] ∧
      Ends (deferPad ([pad].any PadChange.retires) pad) pad' := by
      obtain ⟨pad', rest, hend, hrest, heq⟩ := forall₂_cons_left_iff.1 hends
      rw [forall₂_nil_left_iff.1 hrest] at heq
      exact ⟨pad', heq, hend⟩
    obtain ⟨pad', hpad', hend⟩ := hpads
    rw [wp_bind', wp_conn h₂.acquire.locked, Cold.conn_eq hk₂, wp_bind', hpad']
    refine wp_applyResult fun out hreport => ?_
    rw [wp_bind']
    refine wp_busIdle h₂.acquire fun idle hidle hbusy => ⟨⟨_, h₂.acquire⟩, ?_⟩
    rw [wp_bind']
    refine wp_closeAfterResponse h₂ hidle hbusy fun v' hs hrec hconn hseen => ?_
    have hk₂mem := Cold.mem_of_conn? hk₂
    refine hQ v' out _ k₂ ⟨⟨hs, .inr hrec⟩, hconn ▸ hk₂mem, ?_, ?_, hseen k₂ hk₂mem, rfl⟩ ?_
    · rw [hsame]
      exact hid
    · rw [hsame]
      exact hdev
    · refine hreport.agrees hend (hplan.planned _ ?_) ?_ (hmatch pad' (by simp [hpad']))
      · rw [deferUnservedAdds_eq]
        exact mem_singleton.2 rfl
      · rw [deferPad_kind]
        exact hpad.kind

/-- A plan that removes the controller, if it is there. -/
theorem plan_removal {i : Nat} {present : Bool}
    (hpresent : present = true → i < 16 ∧ (k.controllers i).active = true) :
    Plan k (if present then [planRemoval i] else []) ∧
      padsCarried false (if present then [planRemoval i] else []) = [] := by
  cases present with
  | false => exact ⟨⟨nofun, nodup_nil, nofun⟩, rfl⟩
  | true =>
    obtain ⟨hi, ha⟩ := hpresent rfl
    refine ⟨⟨?_, nodup_singleton _, ?_⟩, rfl⟩
    · intro q hq
      rw [mem_singleton.1 hq]
      exact ⟨rfl, hi, rfl, ha⟩
    · intro q hq
      rw [mem_singleton.1 hq]
      rfl

theorem wp_removeController {ctrlIdx : Nat} (h : Settled B v) {Q : Option Nat → Topo → Prop}
    (hnone : ∀ v', Completed B v v' → Q none v')
    (hQ : ∀ v' epoch k', Changed B v v' connectionId deviceId epoch k' → Q (some epoch) v') :
    (topoMachine B).wp (removeController connectionId deviceId ctrlIdx) Q v := by
  rw [removeController, wp_bind']
  refine wp_locked h.unlocked ?_
  rw [wp_bind', wp_cold h.acquire.locked]
  cases hfind : findOwned v.cold connectionId deviceId with
  | none => exact ⟨⟨[], h.acquire⟩, hnone _ (Completed.unchanged h)⟩
  | some k =>
    obtain ⟨hk, hid, hdev⟩ := findOwned_some hfind
    have hpresent : (decide (ctrlIdx < maxControllersPerConn) && (k.controllers ctrlIdx).active) =
        true → ctrlIdx < 16 ∧ (k.controllers ctrlIdx).active = true := by
      intro hp
      obtain ⟨hi, ha⟩ := Bool.and_eq_true_iff.1 hp
      exact ⟨of_decide_eq_true hi, ha⟩
    obtain ⟨hplan, hcarried⟩ := plan_removal hpresent
    have h₁ : Running B ({ v with locked := true } : Topo).release (padsCarried false
        (if decide (ctrlIdx < maxControllersPerConn) && (k.controllers ctrlIdx).active
          then [planRemoval ctrlIdx] else [])) := by
      rw [hcarried]
      exact h.acquire.release
    refine ⟨⟨[], h.acquire⟩, ?_⟩
    rw [wp_bind']
    refine wp_convergePads h₁ (by exact Cold.conn?_of_mem h.sound.rows hk)
      hplan (by rfl) (by rfl) fun v₂ k₂ change₂ h₂ hk₂ hsame _ _ => ?_
    rw [wp_bind']
    refine wp_locked h₂.unlocked ?_
    rw [wp_bind', wp_conn h₂.acquire.locked, Cold.conn_eq hk₂, wp_bind']
    refine wp_busIdle h₂.acquire fun idle hidle hbusy => ⟨⟨_, h₂.acquire⟩, ?_⟩
    rw [wp_bind']
    refine wp_closeAfterResponse h₂ hidle hbusy fun v' hs hrec hconn hseen => ?_
    have hk₂mem := Cold.mem_of_conn? hk₂
    refine hQ v' _ k₂ ⟨⟨hs, .inr hrec⟩, hconn ▸ hk₂mem, ?_, ?_, hseen k₂ hk₂mem, rfl⟩
    · rw [hsame]
      exact hid
    · rw [hsame]
      exact hdev

end SessionService

end Satellite
