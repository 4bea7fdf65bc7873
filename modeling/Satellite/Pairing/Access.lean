import Satellite.Pairing.Order

/-!
# Sessions against the paired devices

Whether every live session belongs to a paired device, and whether it was keyed from
the key that is stored for the device now. The routes close sessions and change the
paired devices in separate steps, so both depend on what an authenticated PUT does in
between.
-/

namespace Satellite.Pairing

open List Option Act

variable {κ : Type} {proves : κ → String → String → Bool}

/-! ## What a step leaves alone -/

inductive Table
  | paired
  | sessions
  | pins
  | requests

/-- The table a step may write to. -/
def Instr.writes : Instr κ → Option Table
  | .upsertPairedDevice _ | .rotatePairedDeviceKey .. | .refreshPairedDeviceIdentity ..
  | .forgetPairedDevice _ => some .paired
  | .upsertSession .. | .closeSessionsForDevice .. | .closeSessionById .. | .reapTimedOut
  | .closeAllSessions => some .sessions
  | .verifyPin _ | .pinSnapshot => some .pins
  | .submitPairRequest .. | .denyPairRequest _ | .pollPairRequest _ | .pendingPairRequests
  | .pairRequestSnapshot _ | .acceptPairRequestConfirmed .. => some .requests
  | _ => none

theorem Server.step_frame {s s' : Server κ} {i : Instr κ} {r : i.Answer} (h : s.step i r s') :
    (i.writes ≠ some .paired → s'.paired = s.paired) ∧
    (i.writes ≠ some .sessions → s'.sessions = s.sessions) ∧
    (i.writes ≠ some .pins → s'.pinCalls = s.pinCalls) ∧
    (i.writes ≠ some .requests → s'.pending = s.pending) := by
  cases i with
  | receive | reply | appRunning | mintPairingKeyHex | findSession | upsertSession
  | closeSessionById | closeAllSessions | upsertPairedDevice | refreshPairedDeviceIdentity =>
    simp [show s' = _ from h, Instr.writes]
  | findPairedDevice | pairedDevices | resolvePairingSharedKey | denyPairRequest
  | closeSessionsForDevice | reapTimedOut | rotatePairedDeviceKey | forgetPairedDevice =>
    rw [show s' = _ from h.2]
    simp [Instr.writes]
  | submitPairRequest =>
    obtain ⟨now, -, rfl⟩ := h
    simp [Instr.writes]
  | pollPairRequest | pendingPairRequests | pairRequestSnapshot | acceptPairRequestConfirmed =>
    obtain ⟨now, -, -, rfl⟩ := h
    simp [Instr.writes]
  | verifyPin | pinSnapshot =>
    obtain ⟨now, rotated, burnt, -, -, rfl⟩ := h
    simp [Instr.writes]

/-! ## What a step does to the paired devices -/

/-- The key the step leaves stored for a device it writes to; nothing for the others. -/
def Act.stores (d : String) : Act κ → Option (Option κ)
  | ⟨.upsertPairedDevice dev, _⟩ => if dev.id = d then some (some dev.sharedKey) else none
  | ⟨.rotatePairedDeviceKey d' _, r⟩ => if d' = d then r.map some else none
  | ⟨.forgetPairedDevice d', _⟩ => if d' = d then some none else none
  | _ => none

theorem findDevice_remove (devs : List (PairedDevice κ)) (d' d : String) :
    findDevice (removeDevice devs d') d = if d' = d then none else findDevice devs d := by
  rw [findDevice, removeDevice, find?_filter]
  by_cases hd : d' = d
  · rw [if_pos hd, find?_eq_none]
    intro a _
    simp [hd]
  · rw [if_neg hd, findDevice]
    congr 1
    funext a
    by_cases ha : a.id = d
    · have hne : d ≠ d' := fun h => hd h.symm
      simp [ha, hne]
    · simp [ha]

theorem findDevice_replace (devs : List (PairedDevice κ)) (dev : PairedDevice κ) (d : String) :
    findDevice (replaceDevice devs dev) d = if dev.id = d then some dev else findDevice devs d := by
  have hsplit : findDevice (replaceDevice devs dev) d =
      (findDevice (removeDevice devs dev.id) d).or (findDevice [dev] d) := find?_append
  rw [hsplit, findDevice_remove]
  by_cases hd : dev.id = d <;> simp [hd, findDevice]

theorem findDevice_write {f : PairedDevice κ → PairedDevice κ} (hf : ∀ dev, (f dev).id = dev.id)
    (devs : List (PairedDevice κ)) (d' d : String) :
    findDevice (writeDevice d' f devs) d =
      if d' = d then (findDevice devs d).map f else findDevice devs d := by
  induction devs with
  | nil => simp [writeDevice, findDevice]
  | cons a devs ih =>
    rw [findDevice] at ih
    by_cases ha : a.id = d'
    · by_cases hd : d' = d
      · simp [writeDevice, findDevice, hf, ha, hd]
      · simp [writeDevice, findDevice, hf, ha, hd]
    · by_cases hd : a.id = d
      · have hne : d' ≠ d := fun h => ha (hd.trans h.symm)
        simp [writeDevice, findDevice, hd, hne, Ne.symm hne]
      · simp [writeDevice, findDevice, ha, hd, ih]

theorem storedKey_refresh (devs : List (PairedDevice κ)) (d' ip name d : String) :
    storedKey (refreshDevice d' ip name devs) d = storedKey devs d := by
  rw [storedKey, refreshDevice,
    findDevice_write (f := fun dev => { dev with lastIP := ip, name := name }) (fun _ => rfl)]
  split
  · rw [Option.map_map]
    rfl
  · rfl

variable {i : Instr κ}

/-- What is stored for a device changes only as `Act.stores` says. -/
theorem storedKey_step {s s' : Server κ} {r : i.Answer} (h : s.step i r s')
    (d : String) :
    storedKey s'.paired d = ((⟨i, r⟩ : Act κ).stores d).getD (storedKey s.paired d) := by
  cases i with
  | upsertPairedDevice dev =>
    rw [show s' = _ from h, storedKey, findDevice_replace, stores]
    split <;> rfl
  | rotatePairedDeviceKey d' ip =>
    obtain ⟨hfound, rfl⟩ := h
    cases r with
    | none => simp [stores]
    | some key =>
      have hsome : (findDevice s.paired d').isSome = true := hfound
      rw [elim_some, storedKey, rekeyDevice, findDevice_write (f := fun dev =>
        { dev with sharedKey := key, lastIP := ip }) (fun _ => rfl), stores]
      by_cases hd : d' = d
      · subst hd
        obtain ⟨dev, hdev⟩ := isSome_iff_exists.1 hsome
        simp [hdev]
      · simp [hd, storedKey]
  | refreshPairedDeviceIdentity d' ip name =>
    rw [show s' = _ from h, storedKey_refresh]
    rfl
  | forgetPairedDevice d' =>
    rw [show s' = _ from h.2, storedKey, findDevice_remove, stores]
    split <;> rfl
  | _ =>
    rw [storedKey, (Server.step_frame h).1 nofun]
    rfl

/-! ## What a step does to the sessions -/

/-- A session is new only by an upsert. -/
theorem session_step {s s' : Server κ} {r : i.Answer} (h : s.step i r s')
    {x : Session κ} (hx : x ∈ s'.sessions) :
    x ∈ s.sessions ∨ i = .upsertSession x.deviceId x.pairingKey := by
  cases i with
  | upsertSession d k =>
    rw [show s' = _ from h] at hx
    cases r with
    | error e => exact .inl hx
    | ok connectionId =>
      rcases mem_append.1 hx with hx | hx
      · exact .inl (mem_filter.1 hx).1
      · rw [mem_singleton.1 hx]
        exact .inr rfl
  | closeSessionsForDevice d reason =>
    rw [show s' = _ from h.2] at hx
    exact .inl (mem_filter.1 hx).1
  | closeSessionById connectionId d =>
    rw [show s' = _ from h] at hx
    simp only at hx
    split at hx
    · exact .inl (mem_filter.1 hx).1
    · exact .inl hx
  | reapTimedOut => exact .inl (h.1.subset hx)
  | closeAllSessions =>
    rw [show s' = _ from h] at hx
    exact absurd hx not_mem_nil
  | _ => exact .inl ((Server.step_frame h).2.1 nofun ▸ hx)

theorem session_close {s s' : Server κ} {d : String} {reason : CloseReason} {n : Nat}
    (h : s.step (.closeSessionsForDevice d reason) n s') {x : Session κ} (hx : x ∈ s'.sessions) :
    x.deviceId ≠ d := by
  rw [show s' = _ from h.2] at hx
  simpa using (mem_filter.1 hx).2

/-! ## Stages along a run -/

theorem push_eq {a b : Act κ} {acts rest : List (Act κ)} (h : push a acts = b :: rest) : a = b := by
  obtain ⟨i, r⟩ := a
  cases i with
  | reply => cases h
  | _ => exact (List.cons.inj h).1

variable {t : Nat} {log : List (Event κ)}

theorem not_authed_nil {o : Nat} {d : String} {k : κ} :
    ¬ Authed proves (trace o ([] : List (Event κ))) d k := by
  rintro ⟨auth, body, dev, rest, heq, -⟩
  cases heq

/-- A PUT becomes authenticated by its own lookup and stays so while others move. -/
theorem authed_step {o : Nat} {a : Act κ} {d : String} {k : κ}
    (h : Authed proves (trace o (⟨t, a⟩ :: log)) d k) :
    Authed proves (trace o log) d k ∨
      ∃ dev, a = ⟨.findPairedDevice d, some dev⟩ ∧ dev.sharedKey = k := by
  by_cases ho : o = t
  · subst ho
    rw [trace_own] at h
    obtain ⟨auth, body, dev, rest, heq, -, -, -, hk⟩ := h
    exact .inr ⟨dev, push_eq heq, hk⟩
  · rw [trace_other ho] at h
    exact .inl h

theorem unpairing_step {o : Nat} {a : Act κ} {d : String}
    (h : Unpairing (trace o (⟨t, a⟩ :: log)) d) :
    Unpairing (trace o log) d ∨ ∃ n, a = ⟨.closeSessionsForDevice d .unpaired, n⟩ := by
  by_cases ho : o = t
  · subst ho
    rw [trace_own] at h
    obtain ⟨n, rest, heq⟩ := h
    exact .inr ⟨n, push_eq heq⟩
  · rw [trace_other ho] at h
    exact .inl h

/-! ## Unpaired devices -/

/-- When the step is taken, no PUT of a device is between its authentication and its upsert while
an unpair of that device is between its close and its forget. -/
def NoPutDuringUnpair (proves : κ → String → String → Bool) (s : Run κ) : Prop :=
  ∀ t o d k, Unpairing (trace t s.log) d → ¬ Authed proves (trace o s.log) d k

/-- What keeps the sessions of unpaired devices away. -/
structure Unpaired (proves : κ → String → String → Bool) (s : Run κ) : Prop where
  sessions : ∀ x ∈ s.server.sessions, (storedKey s.server.paired x.deviceId).isSome = true
  authed : ∀ o d k, Authed proves (trace o s.log) d k → (storedKey s.server.paired d).isSome = true
  unpairing : ∀ t d, Unpairing (trace t s.log) d → ∀ x ∈ s.server.sessions, x.deviceId ≠ d

/-- Only forgetting a device takes its key away. -/
theorem storedKey_kept {s s' : Server κ} {r : i.Answer} (h : s.step i r s')
    {d : String} (hd : (storedKey s.paired d).isSome = true) (hi : i ≠ .forgetPairedDevice d) :
    (storedKey s'.paired d).isSome = true := by
  rw [storedKey_step h]
  cases i with
  | upsertPairedDevice dev =>
    simp only [stores]
    split
    · rfl
    · exact hd
  | rotatePairedDeviceKey d' ip =>
    cases r with
    | none => simpa [stores] using hd
    | some k =>
      simp only [stores]
      split
      · rfl
      · exact hd
  | forgetPairedDevice d' =>
    have hne : d' ≠ d := fun heq => hi (heq ▸ rfl)
    simpa [stores, hne] using hd
  | _ => exact hd

variable {s u : Run κ} {r : i.Answer}

/-- An unpair between its close and its forget finds no session of the device, if no
authenticated PUT of it moves. -/
theorem unpairing_closed
    (h : ∀ o d, Unpairing (trace o s.log) d → ∀ x ∈ s.server.sessions, x.deviceId ≠ d)
    (hmove : Moves proves s t i r u)
    (hexcl : ∀ o d k, Unpairing (trace o s.log) d → ¬ Authed proves (trace t s.log) d k) :
    ∀ o d, Unpairing (trace o u.log) d → ∀ x ∈ u.server.sessions, x.deviceId ≠ d := by
  intro o d hun x hx hd
  rw [hmove.log] at hun
  rcases unpairing_step hun with hold | ⟨n, heq⟩
  · rcases session_step hmove.step hx with hx | rfl
    · exact h o d hold x hx hd
    · exact hexcl o d _ hold (hd ▸ hmove.allowed.needs)
  · cases heq
    exact session_close hmove.step hx hd

theorem Unpaired.step (h : Unpaired proves s) (hmove : Moves proves s t i r u)
    (hexcl : NoPutDuringUnpair proves s) : Unpaired proves u := by
  have ⟨hallowed, hstep, hlog⟩ := hmove
  constructor
  · intro x hx
    rcases session_step hstep hx with hold | rfl
    · refine storedKey_kept hstep (h.sessions x hold) ?_
      -- The unpair has closed the device's sessions before it forgets the device.
      rintro rfl
      exact h.unpairing t _ hallowed.needs x hold rfl
    · exact storedKey_kept hstep (h.authed t _ _ hallowed.needs) (by simp)
  · intro o d k hauthed
    rw [hlog] at hauthed
    rcases authed_step hauthed with hold | ⟨dev, heq, -⟩
    · refine storedKey_kept hstep (h.authed o d k hold) ?_
      rintro rfl
      exact hexcl t o d k hallowed.needs hold
    · cases heq
      obtain ⟨hfound, hsame⟩ := hstep
      rw [hsame, storedKey, ← hfound]
      rfl
  · exact unpairing_closed h.unpairing hmove fun o d k hun => hexcl o t d k hun

/-- Where no PUT of a device is between its authentication and its upsert while an unpair of it is
between its close and its forget, every live session belongs to a paired device. -/
theorem session_device_paired
    {c : System.Config Nat (Instr κ) Instr.Answer (Run κ)}
    (hc : ((pairing proves).restrict fun s _ => NoPutDuringUnpair proves s).Reach c) :
    ∀ x ∈ c.shared.server.sessions, ∃ dev ∈ c.shared.server.paired, dev.id = x.deviceId := by
  have hinv : Unpaired proves c.shared := by
    refine run_induction (fun s hs => ?_) (fun s u t i r hs => hs.step) hc
    obtain ⟨hsessions, -, -, hlog⟩ := hs
    exact ⟨by simp [hsessions], fun o d k h => absurd (hlog ▸ h) not_authed_nil, by simp [hsessions]⟩
  intro x hx
  have hstored := hinv.sessions x hx
  rw [storedKey, isSome_map] at hstored
  obtain ⟨dev, hdev⟩ := isSome_iff_exists.1 hstored
  exact ⟨dev, mem_of_find?_eq_some hdev, by simpa using find?_some hdev⟩

/-! Runs of one dish. A proof is good here if it names the key. -/

def provesByName (key _deviceId proof : String) : Bool := key == proof

def dish : PairedDevice String := newDevice "dish" "Dish" "10.0.0.2" "old"

/-- The dish asks for a session. -/
def dishPut : Request := .upsertConnection ⟨"dish", "old"⟩ ⟨true, 3, "Dish", true, "10.0.0.2"⟩

/-- Between the close of an unpair and its forget the close is in the log. -/
theorem Unpairing.mem {d : String}
    (h : Unpairing (trace t log) d) :
    ∃ e ∈ log, ∃ n, e.act = ⟨.closeSessionsForDevice d .unpaired, n⟩ := by
  induction log with
  | nil =>
    obtain ⟨n, rest, heq⟩ := h
    cases heq
  | cons e log ih =>
    rcases unpairing_step h with hold | ⟨n, heq⟩
    · obtain ⟨e', he', hact⟩ := ih hold
      exact ⟨e', mem_cons_of_mem e he', hact⟩
    · exact ⟨e, mem_cons_self, n, heq⟩

/-- A PUT with no unpair in sight: the session that comes of it belongs to a paired device. -/
theorem session_device_paired_run :
    ∃ s : Server String, s.sessions = [⟨"dish", "id", "old"⟩] ∧
      ∀ x ∈ s.sessions, ∃ dev ∈ s.paired, dev.id = x.deviceId := by
  have hno : ∀ {s : Run String},
      (∀ e ∈ s.log, ∀ d n, e.act ≠ ⟨.closeSessionsForDevice d .unpaired, n⟩) →
      NoPutDuringUnpair provesByName s := by
    intro s hs t o d k hun
    obtain ⟨e, he, n, hact⟩ := hun.mem
    exact absurd hact (hs e he d n)
  have h : ((pairing provesByName).restrict fun s _ => NoPutDuringUnpair provesByName s).Reach
      ⟨⟨{ paired := [dish] }, []⟩, fun _ => .ret ()⟩ := .init ⟨rfl, rfl, rfl, rfl⟩
  have h := reach_request h 0 dishPut (g := hno (by simp))
  have h := reach_act h 0 .appRunning true (g := hno (by simp))
  have h := reach_act h 0 (.findPairedDevice "dish") (some dish) (g := hno (by simp))
  have h := reach_act h 0 (.upsertSession "dish" "old") (.ok "id") (g := hno (by simp))
  exact ⟨_, rfl, session_device_paired h⟩

theorem trace_of_threads (hlog : ∀ e ∈ log, e.thread = 0 ∨ e.thread = 1)
    (ht : ¬ (t = 0 ∨ t = 1)) : trace t log = [] := by
  induction log with
  | nil => rfl
  | cons e log ih =>
    rw [forall_mem_cons] at hlog
    have hother : e.thread ≠ t := by
      intro heq
      exact ht (heq ▸ hlog.1)
    rw [trace, if_neg hother]
    exact ih hlog.2

theorem quiet_of_threads (hlog : ∀ e ∈ log, e.thread = 0 ∨ e.thread = 1)
    (h0 : trace 0 log = []) (h1 : trace 1 log = []) : Quiet log := by
  intro t
  by_cases ht : t = 0 ∨ t = 1
  · rcases ht with rfl | rfl
    · exact h0
    · exact h1
  · exact trace_of_threads hlog ht

/-- A PUT is authenticated, the operator unpairs the device, and the PUT goes on: once both are
answered, the device has a live session and is not paired. -/
theorem unpaired_device_keeps_session :
    ∃ c, (pairing provesByName).Reach c ∧ Quiet c.shared.log ∧
      ∃ x ∈ c.shared.server.sessions, ∀ dev ∈ c.shared.server.paired, dev.id ≠ x.deviceId := by
  have h : ((pairing provesByName).restrict fun _ _ => True).Reach
      ⟨⟨{ paired := [dish] }, []⟩, fun _ => .ret ()⟩ := .init ⟨rfl, rfl, rfl, rfl⟩
  have h := reach_request h 0 dishPut
  have h := reach_act h 0 .appRunning true
  have h := reach_act h 0 (.findPairedDevice "dish") (some dish)
  have h := reach_request h 1 (.unpairDevice "dish")
  have h := reach_act h 1 (.closeSessionsForDevice "dish" .unpaired) (0 : Nat)
  have h := reach_act h 1 (.forgetPairedDevice "dish") true
  have h := reach_act h 1 (.reply (.unpaired 0)) ()
  have h := reach_act h 0 (.upsertSession "dish" "old") (.ok "id")
  have h := reach_act h 0 (.refreshPairedDeviceIdentity "dish" "10.0.0.2" "Dish") ()
  have h := reach_act h 0 (.reply (.session "id")) ()
  refine ⟨_, h.of_restrict, ?_, ⟨"dish", "id", "old"⟩, mem_singleton_self _, ?_⟩
  · exact quiet_of_threads (by simp) rfl rfl
  · simp [removeDevice, refreshDevice, writeDevice, dish, newDevice]

/-! ## Replaced keys -/

/-- When the step is taken, no PUT of a device is between its authentication and its upsert while
an unpair, a re-pairing or a rotation of that device is between its two halves; and an approval
that stores its key finds neither a session nor an authenticated PUT of the device. -/
structure NoPutDuringChange (proves : κ → String → String → Bool) (s u : Run κ) : Prop where
  exclusive : ∀ t o d k, Unpairing (trace t s.log) d ∨ Replacing (trace t s.log) d →
    ¬ Authed proves (trace o s.log) d k
  approval : ∀ t dev, u.log = ⟨t, .upsertPairedDevice dev, ()⟩ :: s.log →
    Approving (trace t s.log) dev.id dev.sharedKey →
    (∀ x ∈ s.server.sessions, x.deviceId ≠ dev.id) ∧
      ∀ o k, ¬ Authed proves (trace o s.log) dev.id k

/-- Sessions and authenticated PUTs go with the stored key, or the device's sessions are about to
be closed. -/
structure Keyed (proves : κ → String → String → Bool) (s : Run κ) : Prop where
  sessions : ∀ x ∈ s.server.sessions, storedKey s.server.paired x.deviceId = some x.pairingKey ∨
    ∃ t, Replacing (trace t s.log) x.deviceId
  authed : ∀ o d k, Authed proves (trace o s.log) d k → storedKey s.server.paired d = some k ∨
    ∃ t, Replacing (trace t s.log) d
  unpairing : ∀ t d, Unpairing (trace t s.log) d → ∀ x ∈ s.server.sessions, x.deviceId ≠ d

/-- The three ways a device's stored key changes: the device is forgotten, an approval stores its
key, or a pairing does that has yet to close the device's sessions. -/
theorem storedKey_changes (hmove : Moves proves s t i r u) (d : String) :
    storedKey u.server.paired d = storedKey s.server.paired d ∨
    Unpairing (trace t s.log) d ∨
    (∃ dev, u.log = ⟨t, .upsertPairedDevice dev, ()⟩ :: s.log ∧
      Approving (trace t s.log) dev.id dev.sharedKey ∧ dev.id = d) ∨
    Replacing (trace t u.log) d := by
  obtain ⟨hallowed, hstep, hlog⟩ := hmove
  rw [storedKey_step hstep]
  cases i with
  | upsertPairedDevice dev =>
    by_cases hd : dev.id = d
    · rcases hallowed.needs with happ | ⟨pin, rest, heq⟩
      · exact .inr (.inr (.inl ⟨dev, hlog, happ, hd⟩))
      · refine .inr (.inr (.inr (.inr ⟨dev, pin, rest, ?_, hd⟩)))
        rw [hlog, trace_own, heq]
        rfl
    · exact .inl (by simp [stores, hd])
  | rotatePairedDeviceKey d' ip =>
    cases r with
    | none => exact .inl (by simp [stores])
    | some k =>
      by_cases hd : d' = d
      · subst hd
        refine .inr (.inr (.inr (.inl ⟨ip, k, trace t s.log, ?_⟩)))
        rw [hlog, trace_own]
        rfl
      · exact .inl (by simp [stores, hd])
  | forgetPairedDevice d' =>
    by_cases hd : d' = d
    · subst hd
      exact .inr (.inl hallowed.needs)
    · exact .inl (by simp [stores, hd])
  | _ => exact .inl rfl

theorem Keyed.step (h : Keyed proves s) (hmove : Moves proves s t i r u)
    (hexcl : NoPutDuringChange proves s u) : Keyed proves u := by
  have ⟨hallowed, hstep, hlog⟩ := hmove
  have hauthed : ∀ o d k, Authed proves (trace o s.log) d k →
      storedKey s.server.paired d = some k := by
    intro o d k ho
    rcases h.authed o d k ho with hkey | ⟨w, hw⟩
    · exact hkey
    · exact absurd ho (hexcl.exclusive w o d k (.inr hw))
  constructor
  · intro x hx
    rcases session_step hstep hx with hold | rfl
    · rcases h.sessions x hold with hkey | ⟨w, hw⟩
      · rcases storedKey_changes hmove x.deviceId with hsame | hun | ⟨dev, hu, happ, hd⟩ | hrep
        · exact .inl (hsame.trans hkey)
        · exact absurd rfl (h.unpairing t _ hun x hold)
        · exact absurd hd.symm ((hexcl.approval t dev hu happ).1 x hold)
        · exact .inr ⟨t, hrep⟩
      · by_cases hwt : w = t
        · -- The replacing request itself moves: it closes the device's sessions.
          subst hwt
          have hi := hallowed.replacing _ hw
          subst hi
          exact absurd rfl (session_close hstep hx)
        · refine .inr ⟨w, ?_⟩
          rwa [hlog, trace_other hwt]
    · exact .inl ((storedKey_step hstep _).trans (hauthed t _ _ hallowed.needs))
  · intro o d k ho
    rw [hlog] at ho
    rcases authed_step ho with hold | ⟨dev, heq, hk⟩
    · rcases storedKey_changes hmove d with hsame | hun | ⟨dev, hu, happ, hd⟩ | hrep
      · exact .inl (hsame.trans (hauthed o d k hold))
      · exact absurd hold (hexcl.exclusive t o d k (.inl hun))
      · exact absurd hold (hd ▸ (hexcl.approval t dev hu happ).2 o k)
      · exact .inr ⟨t, hrep⟩
    · cases heq
      obtain ⟨hfound, hsame⟩ := hstep
      refine .inl ?_
      rw [hsame, storedKey, ← hfound, ← hk]
      rfl
  · exact unpairing_closed h.unpairing hmove fun o d k hun => hexcl.exclusive o t d k (.inl hun)

/-- Where no PUT of a device overlaps a change of its key and an approval finds no session of its
device, whenever no request is in progress every live session was keyed from the key stored now. -/
theorem session_keyed_from_stored_key
    {c : System.Config Nat (Instr κ) Instr.Answer (Run κ)}
    (hc : ((pairing proves).restrict (NoPutDuringChange proves)).Reach c)
    (hquiet : Quiet c.shared.log) :
    ∀ x ∈ c.shared.server.sessions,
      storedKey c.shared.server.paired x.deviceId = some x.pairingKey := by
  have hinv : Keyed proves c.shared := by
    refine run_induction (fun s hs => ?_) (fun s u t i r hs => hs.step) hc
    obtain ⟨hsessions, -, -, hlog⟩ := hs
    exact ⟨by simp [hsessions], fun o d k h => absurd (hlog ▸ h) not_authed_nil, by simp [hsessions]⟩
  intro x hx
  rcases hinv.sessions x hx with hkey | ⟨t, ht⟩
  · exact hkey
  · rw [hquiet t] at ht
    rcases ht with ⟨ip, k, rest, heq⟩ | ⟨dev, pin, rest, heq, -⟩ <;> cases heq

/-- While a key is being replaced the step that stored it is in the log. -/
theorem Replacing.mem {d : String}
    (h : Replacing (trace t log) d) : ∃ e ∈ log, e.act.stores d ≠ none := by
  induction log with
  | nil => rcases h with ⟨ip, k, rest, heq⟩ | ⟨dev, pin, rest, heq, -⟩ <;> cases heq
  | cons e log ih =>
    by_cases ht : e.thread = t
    · refine ⟨e, mem_cons_self, ?_⟩
      rw [trace, if_pos ht] at h
      rcases h with ⟨ip, k, rest, heq⟩ | ⟨dev, pin, rest, heq, hd⟩
      · simp [push_eq heq, stores]
      · simp [push_eq heq, stores, hd]
    · rw [trace, if_neg ht] at h
      obtain ⟨e', he', hact⟩ := ih h
      exact ⟨e', mem_cons_of_mem e he', hact⟩

/-- A PUT alone: its session goes with the stored key. -/
theorem session_keyed_from_stored_key_run :
    ∃ s : Server String, s.sessions = [⟨"dish", "id", "old"⟩] ∧
      ∀ x ∈ s.sessions, storedKey s.paired x.deviceId = some x.pairingKey := by
  have hno : ∀ {s u : Run String} {e : Event String}, u.log = e :: s.log →
      (∀ e ∈ u.log, ∀ d, e.act.stores d = none ∧
        ∀ n, e.act ≠ ⟨.closeSessionsForDevice d .unpaired, n⟩) →
      NoPutDuringChange provesByName s u := by
    intro s u e hu hlog
    constructor
    · rintro t o d k (hun | hrep)
      · obtain ⟨e', he', n, hact⟩ := hun.mem
        exact absurd hact ((hlog e' (hu ▸ mem_cons_of_mem e he') d).2 n)
      · obtain ⟨e', he', hact⟩ := hrep.mem
        exact absurd (hlog e' (hu ▸ mem_cons_of_mem e he') d).1 hact
    · intro t dev hdev
      have hstores := (hlog _ (hdev ▸ mem_cons_self) dev.id).1
      simp [stores] at hstores
  have h : ((pairing provesByName).restrict (NoPutDuringChange provesByName)).Reach
      ⟨⟨{ paired := [dish] }, []⟩, fun _ => .ret ()⟩ := .init ⟨rfl, rfl, rfl, rfl⟩
  have h := reach_request h 0 dishPut (g := hno rfl (by simp [stores]))
  have h := reach_act h 0 .appRunning true (g := hno rfl (by simp [stores]))
  have h := reach_act h 0 (.findPairedDevice "dish") (some dish)
    (g := hno rfl (by simp [stores]))
  have h := reach_act h 0 (.upsertSession "dish" "old") (.ok "id")
    (g := hno rfl (by simp [stores]))
  have h := reach_act h 0 (.refreshPairedDeviceIdentity "dish" "10.0.0.2" "Dish") ()
    (g := hno rfl (by simp [stores]))
  have h := reach_act h 0 (.reply (.session "id")) () (g := hno rfl (by simp [stores]))
  exact ⟨_, rfl, session_keyed_from_stored_key h (quiet_of_threads (by simp) rfl rfl)⟩

/-- The dish asks to be paired and shows a PIN of its own. -/
def dishPair : Request := .pair ⟨"dish", "Dish", "", "1234", "", "", "10.0.0.2", 3⟩

/-- The dish has a session, asks to be paired anew and is approved: its session stays, keyed from
the key that the approval replaced. -/
theorem approval_keeps_old_session :
    ∃ c, (pairing provesByName).Reach c ∧ Quiet c.shared.log ∧
      ∃ x ∈ c.shared.server.sessions, storedKey c.shared.server.paired x.deviceId = some "new" ∧
        x.pairingKey = "old" := by
  have h : ((pairing provesByName).restrict fun _ _ => True).Reach
      ⟨⟨{ paired := [dish] }, []⟩, fun _ => .ret ()⟩ := .init ⟨rfl, rfl, rfl, rfl⟩
  have h := reach_request h 0 dishPut
  have h := reach_act h 0 .appRunning true
  have h := reach_act h 0 (.findPairedDevice "dish") (some dish)
  have h := reach_act h 0 (.upsertSession "dish" "old") (.ok "id")
  have h := reach_act h 0 (.refreshPairedDeviceIdentity "dish" "10.0.0.2" "Dish") ()
  have h := reach_act h 0 (.reply (.session "id")) ()
  have h := reach_request h 0 dishPair
  have h := reach_act h 0 (.submitPairRequest "dish" "Dish" "10.0.0.2" "1234") ()
  have h := reach_act h 0 (.reply .awaitingApproval) ()
  have h := reach_request h 1 (.pairRespond "dish" true)
  have h := reach_act h 1 .mintPairingKeyHex "new"
  have h := reach_act h 1 (.acceptPairRequestConfirmed "dish" "new") (some ("Dish", "10.0.0.2"))
  have h := reach_act h 1 (.upsertPairedDevice (newDevice "dish" "Dish" "10.0.0.2" "new")) ()
  have h := reach_act h 1 (.reply (.responded true)) ()
  refine ⟨_, h.of_restrict, quiet_of_threads (by simp) rfl rfl, ⟨"dish", "id", "old"⟩,
    mem_singleton_self _, ?_, rfl⟩
  rfl

/-! ## Approved polls -/

/-- A poll of a device is not made while an approval of it is between its accept and its config
update. -/
def NoPollDuringApproval (s u : Run κ) : Prop :=
  ∀ t d r, u.log = ⟨t, .pollPairRequest d, r⟩ :: s.log → ∀ o k, ¬ Approving (trace o s.log) d k

/-- The step pairs the device with another key, or unpairs it. -/
def Changes (d : String) (k : κ) (a : Act κ) : Prop := ∃ o, a.stores d = some o ∧ o ≠ some k

/-- An accepted request's key is stored, or its approval is about to store it, until something
else is stored for the device. -/
def ApprovalStored (s : Run κ) : Prop :=
  ∀ later earlier t d k told,
    s.log = later ++ ⟨t, .acceptPairRequestConfirmed d k, some told⟩ :: earlier →
    (∀ e ∈ later, ¬ Changes d k e.act) →
    Approving (trace t s.log) d k ∨ storedKey s.server.paired d = some k

theorem ApprovalStored.step (h : ApprovalStored s) (hmove : Moves proves s t i r u) :
    ApprovalStored u := by
  obtain ⟨hallowed, hstep, hlog⟩ := hmove
  intro later earlier o d k told hsplit hunchanged
  rw [hlog] at hsplit
  cases later with
  | nil =>
    -- The step is the accept itself.
    cases hsplit
    refine .inl ⟨told, trace t s.log, ?_⟩
    rw [hlog, trace_own]
    rfl
  | cons e later =>
    obtain ⟨rfl, hrest⟩ := List.cons.inj hsplit
    rw [forall_mem_cons] at hunchanged
    obtain ⟨hnow, hunchanged⟩ := hunchanged
    have hkept : storedKey s.server.paired d = some k → storedKey u.server.paired d = some k := by
      intro hk
      rw [storedKey_step hstep]
      cases hstores : (⟨i, r⟩ : Act κ).stores d with
      | none => exact hk
      | some stored =>
        by_contra hne
        exact hnow ⟨stored, hstores, hne⟩
    rcases h later earlier o d k told hrest hunchanged with happ | hk
    · by_cases hot : o = t
      · subst hot
        obtain ⟨dev, rfl, hd, hkey⟩ := hallowed.approving d k happ
        refine .inr ?_
        rw [storedKey_step hstep, stores, if_pos hd, hkey]
        rfl
      · refine .inl ?_
        rwa [hlog, trace_other hot]
    · exact .inr (hkept hk)

/-- Where no poll of a device falls between an approval's accept and its config update: after a
poll that returned the key of an approval, with nothing else stored for the device since, the
device is paired with that key and a proof of it authenticates. -/
theorem approved_poll_means_paired
    {c : System.Config Nat (Instr κ) Instr.Answer (Run κ)}
    (hc : ((pairing proves).restrict NoPollDuringApproval).Reach c)
    {t a : Nat} {d : String} {k : κ} {told : String × String} {later earlier : List (Event κ)}
    (hlog : c.shared.log = ⟨t, .pollPairRequest d, (.approved, some k)⟩ :: later ++
      ⟨a, .acceptPairRequestConfirmed d k, some told⟩ :: earlier)
    (hunchanged : ∀ e ∈ later, ¬ Changes d k e.act) :
    storedKey c.shared.server.paired d = some k ∧
      ∀ proof, proves k d proof = true →
        ∃ dev, authenticate proves ⟨d, proof⟩ (findDevice c.shared.server.paired d) = .ok dev := by
  have hinv : ApprovalStored c.shared ∧ ∀ t d r log, c.shared.log = ⟨t, .pollPairRequest d, r⟩ :: log →
      ∀ o k, ¬ Approving (trace o log) d k := by
    refine run_induction ?_ ?_ hc (P := fun s => ApprovalStored s ∧ ∀ t d r log,
      s.log = ⟨t, .pollPairRequest d, r⟩ :: log → ∀ o k, ¬ Approving (trace o log) d k)
    · rintro s ⟨-, -, -, hnil⟩
      constructor
      · intro later earlier t d k told hsplit
        rw [hnil] at hsplit
        cases later <;> cases hsplit
      · intro t d r log hsplit
        rw [hnil] at hsplit
        cases hsplit
    · intro s u t i r hs hmove hno
      refine ⟨hs.1.step hmove, ?_⟩
      intro t' d' r' log hsplit
      have hsame : log = s.log := (List.cons.inj (hmove.log.symm.trans hsplit)).2.symm
      subst hsame
      exact hno t' d' r' hsplit
  have hstored : storedKey c.shared.server.paired d = some k := by
    have hpoll : ¬ Changes d k (⟨.pollPairRequest d, (.approved, some k)⟩ : Act κ) := by
      rintro ⟨o, ho, -⟩
      cases ho
    rcases hinv.1 _ earlier a d k told hlog (forall_mem_cons.2 ⟨hpoll, hunchanged⟩) with happ | hk
    · exfalso
      by_cases hat : a = t
      · rw [hlog, cons_append, hat, trace_own] at happ
        obtain ⟨told', rest, heq⟩ := happ
        cases heq
      · rw [hlog, cons_append, trace_other hat] at happ
        exact hinv.2 t d _ _ hlog a k happ
    · exact hk
  refine ⟨hstored, fun proof hproof => ?_⟩
  obtain ⟨dev, hdev, hkey⟩ := map_eq_some_iff.1 hstored
  refine ⟨dev, ?_⟩
  rw [hdev, authenticate, hkey]
  exact if_pos hproof

/-- The dish polls after the approval is complete. -/
theorem approved_poll_means_paired_run :
    ∃ s : Server String, storedKey s.paired "dish" = some "new" ∧
      ∀ proof, provesByName "new" "dish" proof = true →
        ∃ dev, authenticate provesByName ⟨"dish", proof⟩ (findDevice s.paired "dish") = .ok dev := by
  have h : ((pairing provesByName).restrict NoPollDuringApproval).Reach
      ⟨⟨{}, []⟩, fun _ => .ret ()⟩ := .init ⟨rfl, rfl, rfl, rfl⟩
  have h := reach_request h 0 dishPair (g := by simp [NoPollDuringApproval])
  have h := reach_act h 0 (.submitPairRequest "dish" "Dish" "10.0.0.2" "1234") ()
    (g := by simp [NoPollDuringApproval])
  have h := reach_act h 0 (.reply .awaitingApproval) () (g := by simp [NoPollDuringApproval])
  have h := reach_request h 1 (.pairRespond "dish" true) (g := by simp [NoPollDuringApproval])
  have h := reach_act h 1 .mintPairingKeyHex "new" (g := by simp [NoPollDuringApproval])
  have h := reach_act h 1 (.acceptPairRequestConfirmed "dish" "new") (some ("Dish", "10.0.0.2"))
    (g := by simp [NoPollDuringApproval])
  have h := reach_act h 1 (.upsertPairedDevice (newDevice "dish" "Dish" "10.0.0.2" "new")) ()
    (g := by simp [NoPollDuringApproval])
  have h := reach_act h 1 (.reply (.responded true)) () (g := by simp [NoPollDuringApproval])
  have h := reach_request h 0 (.pairStatus "dish") (g := by simp [NoPollDuringApproval])
  have h := reach_act h 0 (.pollPairRequest "dish") (.approved, some "new")
    (g := by
      rintro t d r - o k ⟨told, rest, heq⟩
      by_cases ho : o = 0 ∨ o = 1
      · rcases ho with rfl | rfl <;> cases heq
      · rw [trace_of_threads (by simp) ho] at heq
        cases heq)
  exact ⟨_, @approved_poll_means_paired _ _ _ h 0 1 "dish" "new" ("Dish", "10.0.0.2")
    [⟨0, .receive (.pairStatus "dish"), ()⟩, ⟨1, .reply (.responded true), ()⟩,
      ⟨1, .upsertPairedDevice (newDevice "dish" "Dish" "10.0.0.2" "new"), ()⟩]
    _ rfl (by simp [Changes, stores, newDevice])⟩

/-- The dish polls between the accept and the config update: it is told that it is approved and
given the key, and the config does not list it. -/
theorem approved_poll_before_paired :
    ∃ c t a later earlier told, (pairing provesByName).Reach c ∧
      c.shared.log = ⟨t, .pollPairRequest "dish", (.approved, some "new")⟩ :: later ++
        ⟨a, .acceptPairRequestConfirmed "dish" "new", some told⟩ :: earlier ∧
      (∀ e ∈ later, ¬ Changes "dish" "new" e.act) ∧
      storedKey c.shared.server.paired "dish" = none := by
  have h : ((pairing provesByName).restrict fun _ _ => True).Reach
      ⟨⟨{}, []⟩, fun _ => .ret ()⟩ := .init ⟨rfl, rfl, rfl, rfl⟩
  have h := reach_request h 0 dishPair
  have h := reach_act h 0 (.submitPairRequest "dish" "Dish" "10.0.0.2" "1234") ()
  have h := reach_act h 0 (.reply .awaitingApproval) ()
  have h := reach_request h 1 (.pairRespond "dish" true)
  have h := reach_act h 1 .mintPairingKeyHex "new"
  have h := reach_act h 1 (.acceptPairRequestConfirmed "dish" "new") (some ("Dish", "10.0.0.2"))
  have h := reach_request h 0 (.pairStatus "dish")
  have h := reach_act h 0 (.pollPairRequest "dish") (.approved, some "new")
  refine ⟨_, 0, 1, [⟨0, .receive (.pairStatus "dish"), ()⟩], _, ("Dish", "10.0.0.2"),
    h.of_restrict, rfl, ?_, rfl⟩
  simp [Changes, stores]

end Satellite.Pairing
