import Satellite.Pairing.Server

/-!
# What a request has done before each of its steps

A run is known by its log: every step with the thread that took it. The events of
the request a thread is serving say what its next step may be, and that is all the
invariants of the server need to know about the routes.
-/

namespace Satellite.Pairing

open List Machine

variable {κ : Type}

/-- An instruction with its answer. -/
structure Act (κ : Type) where
  instr : Instr κ
  answer : instr.Answer

/-- A step of a run. -/
structure Event (κ : Type) where
  thread : Nat
  act : Act κ

/-- The server and the steps so far, the latest first. -/
structure Run (κ : Type) where
  server : Server κ
  log : List (Event κ)

/-- What a request has done, after one more step of it. -/
def push (a : Act κ) (acts : List (Act κ)) : List (Act κ) :=
  match a.instr with
  | .receive _ => [a]
  | .reply _ => []
  | _ => a :: acts

/-- What the request served by a thread has done so far; nothing where it serves none. -/
def trace (t : Nat) : List (Event κ) → List (Act κ)
  | [] => []
  | e :: log => if e.thread = t then push e.act (trace t log) else trace t log

/-- No request is in progress. -/
def Quiet (log : List (Event κ)) : Prop := ∀ t, trace t log = []

/-- Any number of threads serving requests, from any paired devices and no session. -/
def pairing (proves : κ → String → String → Bool) : System Nat (Instr κ) Instr.Answer (Run κ) where
  init s := s.server.sessions = [] ∧ s.server.pending = [] ∧ s.server.pinCalls = [] ∧ s.log = []
  step t i s r u := s.server.step i r u.server ∧ u.log = ⟨t, i, r⟩ :: s.log
  menu _ p := ∃ req, p = serve proves req

/-! ## The stages of a request -/

section Stages

variable (proves : κ → String → String → Bool)

/-- A PUT that has been authenticated with a key and has not yet upserted its session. -/
def Authed (acts : List (Act κ)) (d : String) (k : κ) : Prop :=
  ∃ auth body dev rest, acts = ⟨.findPairedDevice d, some dev⟩ :: rest ∧
    ⟨.receive (.upsertConnection auth body), ()⟩ ∈ rest ∧ auth.deviceId = d ∧
    proves dev.sharedKey d auth.hmacProof = true ∧ dev.sharedKey = k

/-- An unpair that has closed the device's sessions and has not yet forgotten the device. -/
def Unpairing (acts : List (Act κ)) (d : String) : Prop :=
  ∃ n rest, acts = ⟨.closeSessionsForDevice d .unpaired, n⟩ :: rest

/-- A pairing or rotation that has stored a new key and has not yet closed the old sessions. -/
def Replacing (acts : List (Act κ)) (d : String) : Prop :=
  (∃ ip k rest, acts = ⟨.rotatePairedDeviceKey d ip, some k⟩ :: rest) ∨
    ∃ dev pin rest, acts = ⟨.upsertPairedDevice dev, ()⟩ :: ⟨.verifyPin pin, true⟩ :: rest ∧ dev.id = d

/-- An approval that has accepted the request and has not yet stored the key. -/
def Approving (acts : List (Act κ)) (d : String) (k : κ) : Prop :=
  ∃ told rest, acts = ⟨.acceptPairRequestConfirmed d k, some told⟩ :: rest

/-- Why a request may be answered with a key: its PIN was accepted and the key is the one it has
stored for its device, its proof held for the key stored for the device and the key is the one it
has put in its place, or its poll found the key of an approval. -/
def Grounds (acts : List (Act κ)) (k : κ) : Prop :=
  (∃ pr dev, ⟨.receive (.pair pr), ()⟩ ∈ acts ∧ ⟨.verifyPin pr.pin, true⟩ ∈ acts ∧
    ⟨.upsertPairedDevice dev, ()⟩ ∈ acts ∧ dev.id = pr.deviceId ∧ dev.sharedKey = k) ∨
  (∃ pr dev, ⟨.receive (.pair pr), ()⟩ ∈ acts ∧ ⟨.findPairedDevice pr.deviceId, some dev⟩ ∈ acts ∧
    proves dev.sharedKey pr.deviceId pr.hmacProof = true ∧
    ⟨.rotatePairedDeviceKey pr.deviceId pr.clientIP, some k⟩ ∈ acts) ∨
  ∃ d, ⟨.receive (.pairStatus d), ()⟩ ∈ acts ∧ ⟨.pollPairRequest d, (.approved, some k)⟩ ∈ acts

/-- What a step needs its request to have done. -/
def Needs (acts : List (Act κ)) : Instr κ → Prop
  | .receive _ => acts = []
  | .reply res => ∀ k ∈ res.keys, Grounds proves acts k
  | .upsertSession d k => Authed proves acts d k
  | .forgetPairedDevice d => Unpairing acts d
  | .upsertPairedDevice dev =>
    Approving acts dev.id dev.sharedKey ∨ ∃ pin rest, acts = ⟨.verifyPin pin, true⟩ :: rest
  | _ => True

/-- The steps a request may take next. -/
structure Allowed (acts : List (Act κ)) (i : Instr κ) : Prop where
  needs : Needs proves acts i
  unpairing : ∀ d, Unpairing acts d → i = .forgetPairedDevice d
  replacing : ∀ d, Replacing acts d → i = .closeSessionsForDevice d .replaced
  approving : ∀ d k, Approving acts d k →
    ∃ dev, i = .upsertPairedDevice dev ∧ dev.id = d ∧ dev.sharedKey = k

/-- One request alone, seen through what it has done. -/
def requestMachine : Machine (Instr κ) Instr.Answer (List (Act κ)) where
  pre i acts := Allowed proves acts i
  step i acts r acts' := acts' = push ⟨i, r⟩ acts

end Stages

/-! ## The routes keep to it -/

/-- No stage is open that forces the next step. -/
structure Free (acts : List (Act κ)) : Prop where
  unpairing : ∀ d, ¬ Unpairing acts d
  replacing : ∀ d, ¬ Replacing acts d
  approving : ∀ d k, ¬ Approving acts d k

section Routes

variable {proves : κ → String → String → Bool} {acts : List (Act κ)}

variable {i : Instr κ}

theorem Free.allowed (h : Free acts) (hneeds : Needs proves acts i) :
    Allowed proves acts i :=
  ⟨hneeds, fun d hd => absurd hd (h.unpairing d), fun d hd => absurd hd (h.replacing d),
    fun d k hd => absurd hd (h.approving d k)⟩

variable {α : Type}

theorem wp_ask {k : i.Answer → Route κ α}
    {Q : α → List (Act κ) → Prop} :
    (requestMachine proves).wp (ask i >>= k) Q acts ↔
      Allowed proves acts i ∧ ∀ r, (requestMachine proves).wp (k r) Q (push ⟨i, r⟩ acts) := by
  simp [requestMachine]

/-- Steps that open no stage. -/
def Plain : Instr κ → Prop
  | .receive _ | .reply _ | .rotatePairedDeviceKey _ _ | .upsertPairedDevice _
  | .acceptPairRequestConfirmed _ _ | .closeSessionsForDevice _ .unpaired => False
  | _ => True

theorem Plain.push (h : Plain i) (r : i.Answer) (acts : List (Act κ)) :
    push ⟨i, r⟩ acts = ⟨i, r⟩ :: acts := by
  cases i with
  | receive | reply => exact h.elim
  | _ => rfl

theorem Plain.free (h : Plain i) (r : i.Answer) (acts : List (Act κ)) :
    Free (⟨i, r⟩ :: acts) := by
  constructor
  · rintro d ⟨n, rest, heq⟩
    cases heq
    exact h
  · rintro d (⟨ip, k, rest, heq⟩ | ⟨dev, pin, rest, heq, -⟩) <;> cases heq <;> exact h
  · rintro d k ⟨told, rest, heq⟩
    cases heq
    exact h

/-- The rule for a plain step. -/
theorem wp_plain {k : i.Answer → Route κ α} {Q : α → List (Act κ) → Prop}
    (hi : Plain i) (h : Free acts) (hneeds : Needs proves acts i)
    (hk : ∀ r, Free (⟨i, r⟩ :: acts) → (requestMachine proves).wp (k r) Q (⟨i, r⟩ :: acts)) :
    (requestMachine proves).wp (ask i >>= k) Q acts := by
  rw [wp_ask]
  refine ⟨h.allowed hneeds, fun r => ?_⟩
  rw [hi.push]
  exact hk r (hi.free r acts)

/-- A response that may be sent now. -/
structure Answers (proves : κ → String → String → Bool) (acts : List (Act κ)) (res : Response κ) :
    Prop where
  free : Free acts
  grounds : ∀ k ∈ res.keys, Grounds proves acts k

theorem Free.answers {res : Response κ} (h : Free acts) (hkeys : res.keys = []) :
    Answers proves acts res :=
  ⟨h, fun k hk => by rw [hkeys] at hk; cases hk⟩

/-- What the dashboard is told of the paired devices holds no key. -/
theorem flatMap_view_keys (devs : List (PairedDevice κ)) :
    (devs.map PairedDevice.view).flatMap Object.keys = [] := by
  induction devs with
  | nil => rfl
  | cons dev devs ih => rw [map_cons, flatMap_cons, ih, append_nil]; rfl

theorem free_nil : Free ([] : List (Act κ)) := by
  constructor <;> simp [Unpairing, Replacing, Approving]

theorem free_receive (req : Request) : Free [(⟨.receive req, ()⟩ : Act κ)] := by
  constructor <;> simp [Unpairing, Replacing, Approving]

theorem wp_clientAuthed {auth : ClientAuth} {k : PairedDevice κ → Route κ (Response κ)}
    (h : Free acts)
    (hk : ∀ dev, proves dev.sharedKey auth.deviceId auth.hmacProof = true →
      Free (⟨.findPairedDevice auth.deviceId, some dev⟩ :: acts) →
      (requestMachine proves).wp (k dev) (fun res acts => Answers proves acts res)
        (⟨.findPairedDevice auth.deviceId, some dev⟩ :: acts)) :
    (requestMachine proves).wp (clientAuthed proves auth k)
      (fun res acts => Answers proves acts res) acts := by
  rw [clientAuthed]
  split
  · exact h.answers rfl
  · refine wp_plain trivial h trivial fun found hfree => ?_
    cases found with
    | none => exact hfree.answers rfl
    | some dev =>
      by_cases hproof : proves dev.sharedKey auth.deviceId auth.hmacProof = true
      · simp only [authenticate, hproof, if_true]
        exact hk dev hproof hfree
      · simp only [authenticate, hproof]
        exact hfree.answers rfl

theorem wp_upsertConnectionRoute (auth : ClientAuth) (body : UpsertBody) :
    (requestMachine proves).wp (upsertConnectionRoute proves auth body)
      (fun res acts => Answers proves acts res)
      [⟨.receive (.upsertConnection auth body), ()⟩] := by
  refine wp_plain trivial (free_receive _) trivial fun running hrunning => ?_
  split
  · exact hrunning.answers rfl
  · refine wp_clientAuthed hrunning fun dev hproof hfound => ?_
    split
    · exact hfound.answers rfl
    · split
      · exact hfound.answers rfl
      · split
        · exact hfound.answers rfl
        · have hauthed : Authed proves (⟨.findPairedDevice auth.deviceId, some dev⟩ ::
              [⟨.appRunning, running⟩, ⟨.receive (.upsertConnection auth body), ()⟩])
              auth.deviceId dev.sharedKey :=
            ⟨auth, body, dev, _, rfl, by simp, rfl, hproof, rfl⟩
          refine wp_plain trivial hfound hauthed fun result hresult => ?_
          cases result with
          | error error => exact hresult.answers rfl
          | ok connectionId =>
            exact wp_plain trivial hresult trivial fun _ hrefreshed => hrefreshed.answers rfl

/-- Both unpair routes close first and forget right after. -/
theorem wp_closeThenForget {d : String} {k : Nat → Bool → Route κ α}
    {Q : α → List (Act κ) → Prop} (h : Free acts)
    (hk : ∀ n r acts', Free acts' → (requestMachine proves).wp (k n r) Q acts') :
    (requestMachine proves).wp (do
      let n ← ask (.closeSessionsForDevice d .unpaired)
      let r ← ask (.forgetPairedDevice d)
      k n r) Q acts := by
  rw [wp_ask]
  refine ⟨h.allowed trivial, fun n => ?_⟩
  rw [wp_ask]
  constructor
  · refine ⟨⟨n, acts, rfl⟩, ?_, ?_, ?_⟩
    · rintro d' ⟨n', rest, heq⟩
      cases heq
      rfl
    · rintro d' (⟨ip, k', rest, heq⟩ | ⟨dev, pin, rest, heq, -⟩) <;> cases heq
    · rintro d' k' ⟨told, rest, heq⟩
      cases heq
  · intro r
    have hplain : Plain (.forgetPairedDevice d : Instr κ) := trivial
    exact hk n r _ (hplain.free r _)

/-- What follows a stored key: the old sessions are closed and the request may be answered. -/
theorem wp_closeReplaced {d : String} {k : Route κ α} {Q : α → List (Act κ) → Prop}
    (hone : ∀ d', Replacing acts d' → d' = d)
    (hun : ∀ d', ¬ Unpairing acts d') (hap : ∀ d' k', ¬ Approving acts d' k')
    (hk : ∀ n, Free (⟨.closeSessionsForDevice d .replaced, n⟩ :: acts) →
      (requestMachine proves).wp k Q (⟨.closeSessionsForDevice d .replaced, n⟩ :: acts)) :
    (requestMachine proves).wp (do
      let _ ← ask (.closeSessionsForDevice d .replaced)
      k) Q acts := by
  rw [wp_ask]
  constructor
  · refine ⟨trivial, fun d' hd => absurd hd (hun d'), ?_, fun d' k' hd => absurd hd (hap d' k')⟩
    intro d' hd
    rw [hone d' hd]
  · intro n
    have hplain : Plain (.closeSessionsForDevice d .replaced : Instr κ) := trivial
    exact hk n (hplain.free n _)

/-- One way to pair: it answers the request, or leaves it to the next one. -/
def Attempts (proves : κ → String → String → Bool) (pr : PairRequest) (o : Option (Response κ))
    (acts : List (Act κ)) : Prop :=
  o.elim (Free acts ∧ ⟨.receive (.pair pr), ()⟩ ∈ acts) fun res => Answers proves acts res

variable {pr : PairRequest}

theorem wp_tryRotateKey (h : Free acts)
    (hpr : ⟨.receive (.pair pr), ()⟩ ∈ acts) :
    (requestMachine proves).wp (tryRotateKey proves pr) (Attempts proves pr) acts := by
  refine wp_plain trivial h trivial fun found hfound => ?_
  have hpr := mem_cons_of_mem (⟨.findPairedDevice pr.deviceId, found⟩ : Act κ) hpr
  cases found with
  | none => exact ⟨hfound, hpr⟩
  | some dev =>
    by_cases hproof : proves dev.sharedKey pr.deviceId pr.hmacProof = true
    · simp only [hproof, if_true]
      rw [wp_ask]
      refine ⟨hfound.allowed trivial, fun rotated => ?_⟩
      cases rotated with
      | none =>
        have hfree : Free (⟨.rotatePairedDeviceKey pr.deviceId pr.clientIP, none⟩ ::
            ⟨.findPairedDevice pr.deviceId, some dev⟩ :: acts) := by
          constructor <;> simp [Unpairing, Replacing, Approving]
        exact ⟨hfree, mem_cons_of_mem _ hpr⟩
      | some newKey =>
        refine wp_closeReplaced ?_ (by simp [push, Unpairing]) (by simp [push, Approving])
          fun n hclosed => ⟨hclosed, fun k hk => ?_⟩
        · rintro d (⟨ip, k, rest, heq⟩ | ⟨dev, pin, rest, heq, -⟩)
          · cases heq
            rfl
          · cases heq
        · obtain rfl : k = newKey := mem_singleton.1 hk
          exact .inr (.inl ⟨pr, dev, by simp [push, hpr], by simp [push], hproof, by simp [push]⟩)
    · simp only [hproof]
      exact ⟨hfound, hpr⟩

theorem wp_pairIfPinHolds {key : κ} {res : Response κ} (hres : ∀ k ∈ res.keys, k = key)
    (h : Free acts) (hpr : ⟨.receive (.pair pr), ()⟩ ∈ acts) :
    (requestMachine proves).wp (pairIfPinHolds pr key res) (Attempts proves pr) acts := by
  refine wp_plain trivial h trivial fun held hheld => ?_
  have hpr := mem_cons_of_mem (⟨.verifyPin pr.pin, held⟩ : Act κ) hpr
  cases held with
  | false => exact ⟨hheld, hpr⟩
  | true =>
    rw [if_pos rfl, wp_ask]
    refine ⟨hheld.allowed (.inr ⟨_, _, rfl⟩), fun _ => ?_⟩
    refine wp_closeReplaced ?_ (by simp [push, Unpairing]) (by simp [push, Approving])
      fun n hclosed => ⟨hclosed, fun k hk => ?_⟩
    · rintro d (⟨ip, k, rest, heq⟩ | ⟨dev, pin, rest, heq, rfl⟩)
      · cases heq
      · cases heq
        rfl
    · obtain rfl := hres k hk
      exact .inl ⟨pr, _, by simp [push, hpr], by simp [push], mem_cons_of_mem _ mem_cons_self, rfl, rfl⟩

theorem wp_pairWithServerPin (h : Free acts)
    (hpr : ⟨.receive (.pair pr), ()⟩ ∈ acts) :
    (requestMachine proves).wp (pairWithServerPin pr) (Attempts proves pr) acts := by
  refine wp_plain trivial h trivial fun outcome houtcome => ?_
  have hpr := mem_cons_of_mem (⟨.resolvePairingSharedKey pr.clientPkHex, outcome⟩ : Act κ) hpr
  cases outcome with
  | invalidClientKey => exact houtcome.answers rfl
  | derived serverPkHex sharedKey =>
    exact wp_pairIfPinHolds (fun k hk => absurd hk not_mem_nil) houtcome hpr
  | random sharedKey => exact wp_pairIfPinHolds (fun k hk => mem_singleton.1 hk) houtcome hpr

theorem wp_orElse (pr : PairRequest) {first : Route κ (Option (Response κ))}
    {second : Route κ (Response κ)}
    (hfirst : (requestMachine proves).wp first (Attempts proves pr) acts)
    (hsecond : ∀ acts', Free acts' → ⟨.receive (.pair pr), ()⟩ ∈ acts' →
      (requestMachine proves).wp second (fun res acts => Answers proves acts res) acts') :
    (requestMachine proves).wp (orElse first second)
      (fun res acts => Answers proves acts res) acts := by
  rw [orElse, Prog.bind_eq, wp_bind]
  refine wp_mono hfirst fun o acts' ho => ?_
  cases o with
  | none => exact hsecond acts' ho.1 ho.2
  | some res => exact ho

theorem wp_pairRoute (pr : PairRequest) :
    (requestMachine proves).wp (pairRoute proves pr) (fun res acts => Answers proves acts res)
      [⟨.receive (.pair pr), ()⟩] := by
  have hfree : Free [(⟨.receive (.pair pr), ()⟩ : Act κ)] := free_receive _
  rw [pairRoute]
  split
  · exact hfree.answers rfl
  · split
    · exact hfree.answers rfl
    · refine wp_orElse pr ?_ fun acts hacts hpr => wp_orElse pr ?_ fun acts hacts hpr => ?_
      · split
        · exact ⟨hfree, mem_singleton_self _⟩
        · exact wp_tryRotateKey hfree (mem_singleton_self _)
      · split
        · exact ⟨hacts, hpr⟩
        · exact wp_pairWithServerPin hacts hpr
      · rw [pairWithClientPin]
        split
        · exact hacts.answers rfl
        · exact wp_plain trivial hacts trivial fun _ hsubmitted => hsubmitted.answers rfl

theorem wp_pairStatusRoute (d : String) :
    (requestMachine proves).wp (pairStatusRoute d) (fun res acts => Answers proves acts res)
      [⟨.receive (.pairStatus d), ()⟩] := by
  have hfree : Free [(⟨.receive (.pairStatus d), ()⟩ : Act κ)] := free_receive _
  rw [pairStatusRoute]
  split
  · exact hfree.answers rfl
  · refine wp_plain trivial hfree trivial fun polled hpolled => ?_
    split
    next key =>
      refine ⟨hpolled, fun k hk => .inr (.inr ⟨d, by simp, ?_⟩)⟩
      obtain rfl : k = key := mem_singleton.1 hk
      exact mem_cons_self
    · exact hpolled.answers rfl

theorem wp_confirmPairing {d : String} {Q : Bool → List (Act κ) → Prop} (h : Free acts)
    (hQ : ∀ b acts', Free acts' → Q b acts') :
    (requestMachine proves).wp (confirmPairing d) Q acts := by
  refine wp_plain trivial h trivial fun key hkey => ?_
  rw [wp_ask]
  refine ⟨hkey.allowed trivial, fun accepted => ?_⟩
  cases accepted with
  | none =>
    apply hQ
    constructor <;> simp [push, Unpairing, Replacing, Approving]
  | some told =>
    obtain ⟨name, ip⟩ := told
    rw [wp_ask]
    constructor
    · refine ⟨.inl ⟨(name, ip), _, rfl⟩, ?_, ?_, ?_⟩
      · rintro d' ⟨n, rest, heq⟩
        cases heq
      · rintro d' (⟨ip', k, rest, heq⟩ | ⟨dev, pin, rest, heq, -⟩) <;> cases heq
      · rintro d' k ⟨told, rest, heq⟩
        cases heq
        exact ⟨_, rfl, rfl, rfl⟩
    · intro _
      apply hQ
      constructor <;> simp [push, Unpairing, Replacing, Approving]

theorem wp_route (req : Request) :
    (requestMachine proves).wp (route proves req) (fun res acts => Answers proves acts res)
      [⟨.receive req, ()⟩] := by
  have hfree : Free [(⟨.receive req, ()⟩ : Act κ)] := free_receive _
  cases req with
  | upsertConnection auth body => exact wp_upsertConnectionRoute auth body
  | pair pr => exact wp_pairRoute pr
  | pairStatus d => exact wp_pairStatusRoute d
  | selfUnpair auth =>
    refine wp_clientAuthed hfree fun dev _ hfound => ?_
    exact wp_closeThenForget hfound fun _ _ _ hforgot => hforgot.answers rfl
  | ownSession auth connectionId =>
    refine wp_clientAuthed hfree fun dev _ hfound => ?_
    refine wp_plain trivial hfound trivial fun found hsession => ?_
    cases found <;> exact hsession.answers rfl
  | closeSession auth connectionId =>
    refine wp_clientAuthed hfree fun dev _ hfound => ?_
    refine wp_plain trivial hfound trivial fun removed hremoved => ?_
    cases removed <;> exact hremoved.answers rfl
  | pairRequests => exact wp_plain trivial hfree trivial fun _ hviews => hviews.answers rfl
  | pairRespond d accept =>
    simp only [route, pairRespondRoute]
    split
    · exact hfree.answers rfl
    · split
      · exact wp_plain trivial hfree trivial fun _ hdenied => hdenied.answers rfl
      · rw [Prog.bind_eq, wp_bind]
        refine wp_confirmPairing hfree fun confirmed acts hacts => ?_
        cases confirmed <;> exact hacts.answers rfl
  | confirmPairing d =>
    simp only [route]
    rw [Prog.bind_eq, wp_bind]
    exact wp_confirmPairing hfree fun confirmed acts hacts => hacts.answers rfl
  | declinePairing d => exact wp_plain trivial hfree trivial fun _ hdenied => hdenied.answers rfl
  | promptSnapshot d => exact wp_plain trivial hfree trivial fun _ hview => hview.answers rfl
  | pinStatus => exact wp_plain trivial hfree trivial fun _ hpin => hpin.answers rfl
  | devices =>
    exact wp_plain trivial hfree trivial fun devs hdevs => hdevs.answers (flatMap_view_keys devs)
  | events =>
    refine wp_plain trivial hfree trivial fun devs hdevs => ?_
    refine wp_plain trivial hdevs trivial fun _ hpin => ?_
    exact wp_plain trivial hpin trivial fun _ hviews => hviews.answers (flatMap_view_keys devs)
  | other route => exact hfree.answers rfl
  | unpairDevice d =>
    refine wp_closeThenForget hfree fun n removed acts hacts => ?_
    cases removed <;> exact hacts.answers rfl
  | kickConnection connectionId =>
    refine wp_plain trivial hfree trivial fun removed hremoved => ?_
    cases removed <;> exact hremoved.answers rfl
  | reapTimedOut => exact wp_plain trivial hfree trivial fun _ hreaped => hreaped.answers rfl
  | closeAllSessions => exact wp_plain trivial hfree trivial fun _ hclosed => hclosed.answers rfl

theorem wp_serve (req : Request) :
    (requestMachine proves).wp (serve proves req) (fun _ acts => acts = []) [] := by
  rw [serve, wp_ask]
  refine ⟨free_nil.allowed rfl, fun _ => ?_⟩
  rw [Prog.bind_eq, wp_bind]
  refine wp_mono (wp_route req) fun res acts hres => ?_
  rw [wp_call]
  exact ⟨hres.free.allowed hres.grounds, fun _ _ hdone => hdone⟩

end Routes

/-! ## Every run -/

section Runs

variable {proves : κ → String → String → Bool}

theorem trace_own (t : Nat) (a : Act κ) (log : List (Event κ)) :
    trace t (⟨t, a⟩ :: log) = push a (trace t log) := by
  rw [trace, if_pos rfl]

theorem trace_other {t o : Nat} (h : o ≠ t) (a : Act κ) (log : List (Event κ)) :
    trace o (⟨t, a⟩ :: log) = trace o log := by
  rw [trace, if_neg (Ne.symm h)]

/-- A thread relies on nobody else touching its own request. -/
def requestProtocol (proves : κ → String → String → Bool) : (pairing proves).Protocol where
  inv _ := True
  rely t s u := trace t u.log = trace t s.log
  pre t i s := Allowed proves (trace t s.log) i
  idle t s := trace t s.log = []
  rely_refl _ _ := rfl
  rely_trans _ _ _ _ hsu huv := huv.trans hsu
  init s hs := by
    refine ⟨trivial, fun t u hu => ?_⟩
    rw [hu, hs.2.2.2]
    rfl
  guarantee t i s r u _ _ hstep := by
    refine ⟨trivial, fun o ho => ?_⟩
    rw [hstep.2, trace_other ho]

variable {c : System.Config Nat (Instr κ) Instr.Answer (Run κ)}

/-- Every step of a run is one its request may take. -/
theorem allowed_of_ask
    (hc : (pairing proves).Reach c) {t : Nat} {i : Instr κ} {k : i.Answer → Route κ Unit}
    (hask : (c.prog t).view = .ask i k) : Allowed proves (trace t c.shared.log) i := by
  have hmenu : ∀ t p s, (pairing proves).menu t p → (requestProtocol proves).inv s →
      (requestProtocol proves).idle t s →
      ((requestProtocol proves).machine t).wp p (fun _ v => (requestProtocol proves).idle t v) s := by
    rintro t p s ⟨req, rfl⟩ - hidle
    refine wp_project (N := requestMachine proves) (f := fun s : Run κ => trace t s.log)
      (Q := fun _ acts => acts = []) (fun h => h) (fun _ _ h => h) ?_ ?_
    · rintro i s r u ⟨-, -, m, hstep, -, hrely⟩
      change trace t u.log = push ⟨i, r⟩ (trace t s.log)
      rw [show trace t u.log = trace t m.log from hrely, hstep.2, trace_own]
    · rw [show trace t s.log = [] from hidle]
      exact wp_serve req
  obtain ⟨hinv, hsafe⟩ := System.Protocol.reach_safe hmenu hc
  exact System.Protocol.pre_of_ask hinv hsafe hask

variable {G : Run κ → Run κ → Prop}

/-- A step of a run: one the request may take, recorded. -/
structure Moves (proves : κ → String → String → Bool) (s : Run κ) (t : Nat) (i : Instr κ)
    (r : i.Answer) (u : Run κ) : Prop where
  allowed : Allowed proves (trace t s.log) i
  step : s.server.step i r u.server
  log : u.log = ⟨t, i, r⟩ :: s.log

/-- To prove something of every run whose steps satisfy `G`: it holds at the start, and each
allowed step keeps it. -/
theorem run_induction {P : Run κ → Prop}
    (hinit : ∀ s, (pairing proves).init s → P s)
    (hstep : ∀ s u t i r, P s → Moves proves s t i r u → G s u → P u)
    (hc : ((pairing proves).restrict G).Reach c) : P c.shared := by
  induction hc with
  | init hs => exact hinit _ hs
  | @step c d hc hmove ih =>
    cases hmove with
    | start t p hdone hp => exact ih
    | act t i k r s hask hact =>
      exact hstep c.shared s t i r ih
        ⟨allowed_of_ask hc.of_restrict hask, hact.1.1, hact.1.2⟩ hact.2

/-- A thread takes the next step of its request. What a concrete run does is evaluated; the
clock stands still in it. -/
theorem reach_act
    (hc : ((pairing proves).restrict G).Reach c) (t : Nat) (i : Instr κ) (r : i.Answer)
    {s : Server κ} {k : i.Answer → Route κ Unit} (hask : (c.prog t).view = .ask i k := by rfl)
    (hstep : c.shared.server.step i r s := by
      first
        | exact rfl
        | exact ⟨rfl, rfl⟩
        | exact ⟨0, Nat.le_refl 0, rfl⟩
        | exact ⟨0, Nat.le_refl 0, rfl, rfl⟩)
    (g : G c.shared ⟨s, ⟨t, i, r⟩ :: c.shared.log⟩ := by trivial) :
    ((pairing proves).restrict G).Reach
      ⟨⟨s, ⟨t, i, r⟩ :: c.shared.log⟩, Function.update c.prog t (k r)⟩ :=
  .step hc (.act t i k r _ hask ⟨⟨hstep, rfl⟩, g⟩)

/-- A thread that is idle takes up a request. -/
theorem reach_request
    (hc : ((pairing proves).restrict G).Reach c) (t : Nat) (req : Request)
    (hidle : (c.prog t).view = .done () := by rfl)
    (g : G c.shared ⟨c.shared.server, ⟨t, .receive req, ()⟩ :: c.shared.log⟩ := by trivial) :
    ((pairing proves).restrict G).Reach ⟨⟨c.shared.server, ⟨t, .receive req, ()⟩ :: c.shared.log⟩,
      Function.update (Function.update c.prog t (serve proves req)) t
        (route proves req >>= fun res => ask (.reply res))⟩ := by
  have hask : (Function.update c.prog t (serve proves req) t).view =
      .ask (.receive req) fun _ => route proves req >>= fun res => ask (.reply res) := by
    rw [Function.update_self]
    rfl
  have hc := System.Reach.step hc (.start t _ hidle ⟨req, rfl⟩)
  exact reach_act hc t (.receive req) () hask rfl g

end Runs

end Satellite.Pairing
