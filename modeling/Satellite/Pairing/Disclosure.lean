import Satellite.Pairing.Access

/-!
# Who is told a key

A response holds a key in three routes only. What the routes have done before they
answer is in the log; that an approval's key is handed out by one poll follows from
the registry, and that an accepted PIN is never accepted again from the rotation.
-/

namespace Satellite.Pairing

open List Option

variable {κ : Type} {proves : κ → String → String → Bool}

/-! ## Accepted PINs -/

/-- The PIN has been drawn and is not acceptable any more. -/
def Spent (h : List PinCall) (q : Pin) : Prop := Known h q ∧ ¬ (pinsAfter h).Acceptable q

variable {h : List PinCall}

theorem acceptable_known (hn : NeverRepeats h) {q : Pin}
    (hq : (pinsAfter h).Acceptable q) : Known h q := by
  have hkeep : EachCall (fun s c => s.Keeps c → s.failCount ≤ 4) h := by
    apply eachCall_of_forall
    intro h c _
    exact Nat.le_of_lt_succ (failCount_lt h)
  exact (guarded_after hn hkeep).drawn q hq

variable {c : PinCall}

/-- What is acceptable when a call compares was acceptable before, or the call has drawn it. -/
theorem acceptable_due {s : Pins} {q : Pin} (hq : (s.due c).Acceptable q) :
    s.Acceptable q ∨ s.Rotates c ∧ q = c.rotated := by
  by_cases hr : s.Rotates c
  · rcases hq with hq | hq
    · rw [(Pins.due_of_rotates hr).1, some_inj] at hq
      exact .inr ⟨hr, hq.symm⟩
    · exact .inl (.inl (Pins.previousPin_due hr hq).2)
  · rw [Pins.due_of_not_rotates hr] at hq
    exact .inl hq

theorem acceptable_call {s : Pins} {q : Pin} (hq : (s.call c).Acceptable q) :
    s.Burns c ∧ q = c.burnt ∨ ¬ s.Burns c ∧ (s.due c).Acceptable q := by
  obtain ⟨hburn, hcur, hprev, -⟩ | ⟨hburn, -, -, hcall⟩ | ⟨hburn, -, hcall⟩ := Pins.call_cases s c
  · rcases hq with hq | hq
    · rw [hcur, some_inj] at hq
      exact .inl ⟨hburn, hq.symm⟩
    · rw [hprev] at hq
      cases hq
  · rw [hcall] at hq
    exact .inr ⟨hburn, hq⟩
  · rw [hcall] at hq
    exact .inr ⟨hburn, hq⟩

/-- A spent PIN is refused and stays spent. -/
theorem Spent.call (hn : NeverRepeats (c :: h)) {q : Pin}
    (hq : Spent h q) : Spent (c :: h) q ∧ (c.guess = some q.val → ¬ (pinsAfter h).Accepted c) := by
  have hdue : ¬ ((pinsAfter h).due c).Acceptable q := by
    intro hacc
    rcases acceptable_due hacc with hold | ⟨hr, rfl⟩
    · exact hq.2 hold
    · exact hn.rotated hr hq.1
  refine ⟨⟨known_cons.2 (.inl (.inl hq.1)), ?_⟩, ?_⟩
  · intro hacc
    rcases acceptable_call hacc with ⟨hb, rfl⟩ | ⟨-, hold⟩
    · exact hn.burnt hb (.inl hq.1)
    · exact hdue hold
  · intro hg hacc
    exact hdue ((Pins.accepted_iff hg).1 hacc)

/-- An accepted PIN is spent. -/
theorem spent_of_accepted (hn : NeverRepeats (c :: h)) {guess : String}
    (hg : c.guess = some guess) (hacc : (pinsAfter h).Accepted c) :
    ∃ q : Pin, q.val = guess ∧ Spent (c :: h) q := by
  have hburns : (pinsAfter h).Burns c := Or.inl hacc
  rw [Pins.Accepted, hg, any_some, Pins.accepts_iff] at hacc
  obtain ⟨q, hq, rfl⟩ := hacc
  have hknown : Known h q ∨ (pinsAfter h).Rotates c ∧ q = c.rotated := by
    rcases acceptable_due hq with hold | hnew
    · exact .inl (acceptable_known hn.earlier hold)
    · exact .inr hnew
  refine ⟨q, rfl, known_cons.2 (.inl hknown), ?_⟩
  intro hlater
  rcases acceptable_call hlater with ⟨hb, rfl⟩ | ⟨hnb, -⟩
  · exact hn.burnt hb hknown
  · exact hnb hburns

/-- `verifyPin` returns true exactly for an accepted guess. -/
theorem verifyPin_fst (s : Pins) (now : Nat) (rotated burnt : Pin) (pin : String) :
    (s.verifyPin now rotated burnt pin).1 = true ↔ s.Accepted ⟨some pin, now, rotated, burnt⟩ := by
  simp only [Pins.verifyPin, Pins.Accepted, Pins.due, any_some]
  split
  · simp [*]
  · simp [*]

/-- Every PIN that a pair request was accepted with is spent, and has been refused since. -/
def AcceptedPinsSpent (s : Run κ) : Prop :=
  NeverRepeats s.server.pinCalls →
    ∀ later earlier t pin, s.log = later ++ ⟨t, .verifyPin pin, true⟩ :: earlier →
      (∀ e ∈ later, e.act ≠ ⟨.verifyPin pin, true⟩) ∧
        ∃ q : Pin, q.val = pin ∧ Spent s.server.pinCalls q

/-- How a step moves the PIN history: a comparison and a look at the PINs each add their call. -/
theorem pinCalls_step {s s' : Server κ} {i : Instr κ} {r : i.Answer} (h : s.step i r s') :
    (s'.pinCalls = s.pinCalls ∧ ∀ pin, (⟨i, r⟩ : Act κ) ≠ ⟨.verifyPin pin, true⟩) ∨
    ∃ c, s'.pinCalls = c :: s.pinCalls ∧ ∀ pin, (⟨i, r⟩ : Act κ) = ⟨.verifyPin pin, true⟩ →
      c.guess = some pin ∧ s.pins.Accepted c := by
  cases i with
  | verifyPin pin =>
    obtain ⟨now, rotated, burnt, -, hr, rfl⟩ := h
    refine .inr ⟨_, rfl, fun pin' heq => ?_⟩
    cases heq
    exact ⟨rfl, (verifyPin_fst _ _ _ _ _).1 hr.symm⟩
  | pinSnapshot =>
    obtain ⟨now, rotated, burnt, -, -, rfl⟩ := h
    exact .inr ⟨_, rfl, fun pin heq => by cases heq⟩
  | _ => exact .inl ⟨(Server.step_frame h).2.2.1 nofun, fun pin heq => by cases heq⟩

variable {s u : Run κ} {t : Nat} {i : Instr κ} {r : i.Answer}

theorem AcceptedPinsSpent.step (h : AcceptedPinsSpent s) (hmove : Moves proves s t i r u) :
    AcceptedPinsSpent u := by
  obtain ⟨-, hstep, hlog⟩ := hmove
  intro hn later earlier o pin hsplit
  rw [hlog] at hsplit
  obtain ⟨hsame, hother⟩ | ⟨c, hcalls, hact⟩ := pinCalls_step hstep
  · cases later with
    | nil =>
      cases hsplit
      exact absurd rfl (hother pin)
    | cons e later =>
      obtain ⟨rfl, hrest⟩ := List.cons.inj hsplit
      rw [hsame] at hn ⊢
      obtain ⟨hrefused, hspent⟩ := h hn later earlier o pin hrest
      exact ⟨forall_mem_cons.2 ⟨hother pin, hrefused⟩, hspent⟩
  · rw [hcalls] at hn ⊢
    cases later with
    | nil =>
      cases hsplit
      obtain ⟨hg, hacc⟩ := hact pin rfl
      exact ⟨fun e he => absurd he not_mem_nil, spent_of_accepted hn hg hacc⟩
    | cons e later =>
      obtain ⟨rfl, hrest⟩ := List.cons.inj hsplit
      obtain ⟨hrefused, q, rfl, hspent⟩ := h hn.earlier later earlier o pin hrest
      obtain ⟨hstill, hno⟩ := hspent.call hn
      refine ⟨forall_mem_cons.2 ⟨fun heq => ?_, hrefused⟩, q, rfl, hstill⟩
      obtain ⟨hg, hacc⟩ := hact q.val heq
      exact hno hg hacc

/-! ## Approvals -/

/-- The key of an approval that no poll of the device has followed yet. -/
def Awaits (log : List (Event κ)) (d : String) (k : κ) : Prop :=
  ∃ a told since before, log = since ++ ⟨a, .acceptPairRequestConfirmed d k, some told⟩ :: before ∧
    ∀ e ∈ since, e.act.instr ≠ .pollPairRequest d

theorem Awaits.cons {log : List (Event κ)} {d : String} {k : κ} (h : Awaits log d k) {e : Event κ}
    (he : e.act.instr ≠ .pollPairRequest d) : Awaits (e :: log) d k := by
  obtain ⟨a, told, since, before, rfl, hsince⟩ := h
  exact ⟨a, told, e :: since, before, rfl, forall_mem_cons.2 ⟨he, hsince⟩⟩

/-- Staged keys are keys of approvals that were not polled yet, and only such a key has been
handed out by a poll. -/
structure Staged (s : Run κ) : Prop where
  tidy : Tidy s.server.pending
  approved : ∀ d p, findLocked s.server.pending d = some p → p.state = .approved →
    ∃ k, p.keyHex = some k ∧ Awaits s.log d k
  polled : ∀ later earlier t d k,
    s.log = later ++ ⟨t, .pollPairRequest d, (.approved, some k)⟩ :: earlier → Awaits earlier d k

/-- What the two calls that matter answer. -/
def PairCall.Answers (c : PairCall κ) (rows : List (PendingPair κ)) (a : Act κ) : Prop :=
  match c.op with
  | .poll d => a = ⟨.pollPairRequest d, (pollPairRequest c.now d rows).1⟩
  | .accept d key =>
    a = ⟨.acceptPairRequestConfirmed d key, (acceptPairRequestConfirmed c.now d key rows).1⟩
  | _ => ∀ d r, a ≠ ⟨.pollPairRequest d, r⟩

theorem pending_step {s s' : Server κ} {i : Instr κ} {r : i.Answer} (h : s.step i r s') :
    (s'.pending = s.pending ∧ ∀ d r', (⟨i, r⟩ : Act κ) ≠ ⟨.pollPairRequest d, r'⟩) ∨
    ∃ c : PairCall κ, s'.pending = c.rows s.pending ∧ c.Answers s.pending ⟨i, r⟩ := by
  cases i with
  | submitPairRequest d name ip pin =>
    obtain ⟨now, -, rfl⟩ := h
    exact .inr ⟨⟨.submit d name ip pin, now⟩, rfl, fun d r heq => by cases heq⟩
  | denyPairRequest d =>
    obtain ⟨-, rfl⟩ := h
    exact .inr ⟨⟨.deny d, 0⟩, rfl, fun d r heq => by cases heq⟩
  | pollPairRequest d =>
    obtain ⟨now, -, rfl, rfl⟩ := h
    exact .inr ⟨⟨.poll d, now⟩, rfl, rfl⟩
  | pendingPairRequests =>
    obtain ⟨now, -, -, rfl⟩ := h
    exact .inr ⟨⟨.views, now⟩, rfl, fun d r heq => by cases heq⟩
  | pairRequestSnapshot d =>
    obtain ⟨now, -, -, rfl⟩ := h
    exact .inr ⟨⟨.snapshot d, now⟩, rfl, fun d r heq => by cases heq⟩
  | acceptPairRequestConfirmed d key =>
    obtain ⟨now, -, rfl, rfl⟩ := h
    exact .inr ⟨⟨.accept d key, now⟩, rfl, rfl⟩
  | _ => exact .inl ⟨(Server.step_frame h).2.2.2 nofun, fun d r heq => by cases heq⟩

theorem Staged.step (h : Staged s) (hmove : Moves proves s t i r u) : Staged u := by
  obtain ⟨-, hstep, hlog⟩ := hmove
  have hsplit : ∀ {later earlier o d k},
      u.log = later ++ ⟨o, .pollPairRequest d, (.approved, some k)⟩ :: earlier →
      ((⟨i, r⟩ : Act κ) = ⟨.pollPairRequest d, (.approved, some k)⟩ → Awaits s.log d k) →
      Awaits earlier d k := by
    intro later earlier o d k hu hnow
    rw [hlog] at hu
    cases later with
    | nil =>
      cases hu
      exact hnow rfl
    | cons e later => exact h.polled later earlier o d k (List.cons.inj hu).2
  obtain ⟨hsame, hother⟩ | ⟨c, hrows, hanswer⟩ := pending_step hstep
  · refine ⟨hsame ▸ h.tidy, ?_, ?_⟩
    · intro d p hp happroved
      rw [hsame] at hp
      obtain ⟨k, hk, hawaits⟩ := h.approved d p hp happroved
      refine ⟨k, hk, ?_⟩
      rw [hlog]
      apply hawaits.cons
      rintro rfl
      exact hother d r rfl
    · intro later earlier o d k hu
      exact hsplit hu fun heq => absurd heq (hother d _)
  · refine ⟨hrows ▸ h.tidy.call c, ?_, ?_⟩
    · intro d p hp happroved
      rw [hrows] at hp
      obtain ⟨hnotpoll, horigin⟩ := approved_origin h.tidy hp happroved
      rcases horigin with hold | ⟨key, hop, hkey, hok⟩
      · obtain ⟨k, hk, hawaits⟩ := h.approved d p hold happroved
        refine ⟨k, hk, ?_⟩
        rw [hlog]
        apply hawaits.cons
        rintro rfl
        -- A poll of the device would have taken the row with it.
        rw [PairCall.Answers] at hanswer
        split at hanswer
        next d' hop =>
          cases hanswer
          exact hnotpoll hop
        · cases hanswer
        · exact hanswer d r rfl
      · refine ⟨key, hkey, ?_⟩
        obtain ⟨told, htold⟩ := isSome_iff_exists.1 hok
        simp only [PairCall.Answers, hop] at hanswer
        rw [htold] at hanswer
        refine ⟨t, told, [], s.log, ?_, fun e he => absurd he not_mem_nil⟩
        rw [hlog, hanswer]
        rfl
    · intro later earlier o d k hu
      refine hsplit hu fun heq => ?_
      rw [PairCall.Answers, heq] at hanswer
      split at hanswer
      · obtain ⟨hinstr, hpoll⟩ := Act.mk.inj hanswer
        cases hinstr
        obtain ⟨p, hp, happroved, hkey⟩ := findLocked_of_poll h.tidy (eq_of_heq hpoll).symm
        obtain ⟨k', hk', hawaits⟩ := h.approved d p hp happroved
        rw [hkey, some_inj] at hk'
        rwa [hk']
      · cases hanswer
      · exact absurd rfl (hanswer d _)

/-! ## The responses -/

/-- Every response with a key was sent on the grounds its request had established. -/
def Grounded (proves : κ → String → String → Bool) (s : Run κ) : Prop :=
  ∀ later earlier t res, s.log = later ++ ⟨t, .reply res, ()⟩ :: earlier →
    ∀ k ∈ res.keys, Grounds proves (trace t earlier) k

theorem Grounded.step (h : Grounded proves s) (hmove : Moves proves s t i r u) :
    Grounded proves u := by
  intro later earlier o res hu k hk
  rw [hmove.log] at hu
  cases later with
  | nil =>
    cases hu
    exact hmove.allowed.needs k hk
  | cons e later => exact h later earlier o res (List.cons.inj hu).2 k hk

/-- Assuming that no PIN is drawn twice, in every run: a response holds a key only if the request
has just stored it for its device, on the grounds of an accepted PIN or of a proof of the key stored
till then, or if its poll returned the key; a poll returns a key only as the first poll of the
device after an approval of its request with that key, so that between two such polls there is
another approval; and an accepted PIN is refused on every later attempt. -/
theorem key_disclosure {c : System.Config Nat (Instr κ) Instr.Answer (Run κ)}
    (hc : (pairing proves).Reach c) (hpins : NeverRepeats c.shared.server.pinCalls) :
    (∀ later earlier t res, c.shared.log = later ++ ⟨t, .reply res, ()⟩ :: earlier →
      ∀ k ∈ res.keys, Grounds proves (trace t earlier) k) ∧
    (∀ later earlier t d k,
      c.shared.log = later ++ ⟨t, .pollPairRequest d, (.approved, some k)⟩ :: earlier →
      Awaits earlier d k) ∧
    (∀ later between earlier t o d k k',
      c.shared.log = later ++ ⟨t, .pollPairRequest d, (.approved, some k)⟩ :: between ++
        ⟨o, .pollPairRequest d, (.approved, some k')⟩ :: earlier →
      ∃ e ∈ between, ∃ told, e.act = ⟨.acceptPairRequestConfirmed d k, some told⟩) ∧
    (∀ later earlier t pin, c.shared.log = later ++ ⟨t, .verifyPin pin, true⟩ :: earlier →
      ∀ e ∈ later, e.act ≠ ⟨.verifyPin pin, true⟩) := by
  have hinv : Grounded proves c.shared ∧ Staged c.shared ∧ AcceptedPinsSpent c.shared := by
    have hall : ((pairing proves).restrict fun _ _ => True).Reach c :=
      hc.restrict fun _ _ => trivial
    refine run_induction ?_ ?_ hall (P := fun s => Grounded proves s ∧ Staged s ∧ AcceptedPinsSpent s)
    · rintro s ⟨-, hpending, -, hlog⟩
      refine ⟨?_, ⟨hpending ▸ tidy_nil, ?_, ?_⟩, ?_⟩
      · intro later earlier t res hu
        rw [hlog] at hu
        cases later <;> cases hu
      · intro d p hp
        rw [hpending] at hp
        cases hp
      · intro later earlier t d k hu
        rw [hlog] at hu
        cases later <;> cases hu
      · intro _ later earlier t pin hu
        rw [hlog] at hu
        cases later <;> cases hu
    · intro s u t i r hs hmove _
      exact ⟨hs.1.step hmove, hs.2.1.step hmove, hs.2.2.step hmove⟩
  obtain ⟨hgrounded, hstaged, hspent⟩ := hinv
  refine ⟨hgrounded, hstaged.polled, ?_, fun later earlier t pin hu => (hspent hpins _ _ t pin hu).1⟩
  intro later between earlier t o d k k' hu
  rw [append_assoc, cons_append] at hu
  obtain ⟨a, told, since, before, hsplit, hsince⟩ := hstaged.polled later _ t d k hu
  -- No poll lies between the approval and the later poll, so the approval came after the earlier one.
  rcases append_eq_append_iff.1 hsplit with ⟨mid, hmid, hrest⟩ | ⟨mid, hmid, hrest⟩
  · cases mid with
    | nil => cases hrest
    | cons e mid =>
      obtain ⟨he, -⟩ := List.cons.inj hrest
      have hmem : e ∈ since := hmid ▸ mem_append_right _ mem_cons_self
      exact absurd (by rw [← he]) (hsince e hmem)
  · cases mid with
    | nil => cases hrest
    | cons e mid =>
      obtain ⟨he, -⟩ := List.cons.inj hrest
      have hmem : e ∈ between := hmid ▸ mem_append_right _ mem_cons_self
      exact ⟨e, hmem, told, by rw [← he]⟩

/-- The dish is approved, polls and is told the key. -/
theorem key_disclosure_run :
    ∃ log : List (Event String), Grounds provesByName (trace 0 log) "new" ∧
      Awaits (log.drop 1) "dish" "new" := by
  have h : ((pairing provesByName).restrict fun _ _ => True).Reach
      ⟨⟨{}, []⟩, fun _ => .ret ()⟩ := .init ⟨rfl, rfl, rfl, rfl⟩
  have h := reach_request h 0 dishPair
  have h := reach_act h 0 (.submitPairRequest "dish" "Dish" "10.0.0.2" "1234") ()
  have h := reach_act h 0 (.reply .awaitingApproval) ()
  have h := reach_request h 1 (.confirmPairing "dish")
  have h := reach_act h 1 .mintPairingKeyHex "new"
  have h := reach_act h 1 (.acceptPairRequestConfirmed "dish" "new") (some ("Dish", "10.0.0.2"))
  have h := reach_act h 1 (.upsertPairedDevice (newDevice "dish" "Dish" "10.0.0.2" "new")) ()
  have h := reach_request h 0 (.pairStatus "dish")
  have h := reach_act h 0 (.pollPairRequest "dish") (.approved, some "new")
  have h := reach_act h 0 (.reply (.approved "new")) ()
  obtain ⟨hreply, hpoll, -⟩ := key_disclosure h.of_restrict nodup_nil
  exact ⟨_, hreply [] _ 0 _ rfl "new" (mem_singleton_self _), hpoll [_] _ 0 "dish" "new" rfl⟩

end Satellite.Pairing
