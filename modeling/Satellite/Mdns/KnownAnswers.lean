import Satellite.Mdns.Codec

/-!
# Answers the querier already has

A query may list answers its sender already holds, and a record that is listed with enough
time to live is left out of the reply. The list is read without its rdata, so a PTR record
for the service type counts whichever instance it points to.
-/

namespace Satellite.Mdns

open Option

def isKnownAnswerSuppressed (knownAnswers : List Answer) (recordName : Bytes)
    (recordType : UInt16) (ourTtl : UInt32) : Bool :=
  knownAnswers.any fun a =>
    a.type == recordType && nameEqCi a.name recordName && decide (ourTtl / 2 ≤ a.ttl)

def questionMatchesService (q : Question) : Bool :=
  (q.type == typePtr || q.type == typeAny) && nameEqCi q.name serviceTypeDomain

structure QueryMatch where
  matched : Bool
  wantUnicast : Bool

/-- Does the question ask for something this host owns? -/
def questionMatches (instanceFqdn hostFqdn : Bytes) (q : Question) : Bool :=
  questionMatchesService q ||
    (nameEqCi q.name instanceFqdn && (q.type == typeAny || q.type == typeSrv || q.type == typeTxt)) ||
    (nameEqCi q.name hostFqdn && (q.type == typeAny || q.type == typeA))

def classifyQuestions (questions : List Question) (instanceFqdn hostFqdn : Bytes) : QueryMatch where
  matched := questions.any (questionMatches instanceFqdn hostFqdn)
  wantUnicast := questions.any fun q => questionMatches instanceFqdn hostFqdn q && q.unicastResponse

/-- What the responder advertises, as `fillServiceInputs` takes it from the configuration. -/
structure Service where
  instanceName : Bytes
  hostName : Bytes
  udpPort : UInt16
  txtPairs : List (Bytes × Bytes)
  ipv4 : Option (Vector UInt8 4)

namespace Service

variable (service : Service)

def fillServiceInputs : ResponseInputs where
  instanceName := service.instanceName
  hostName := service.hostName
  udpPort := service.udpPort
  txtPairs := service.txtPairs
  ipv4 := service.ipv4

def replyInputs (knownAnswers : List Answer) : ResponseInputs :=
  { service.fillServiceInputs with
    suppressPtr := isKnownAnswerSuppressed knownAnswers serviceTypeDomain typePtr ttlService
    suppressSrv := isKnownAnswerSuppressed knownAnswers (instanceFqdnOf service.instanceName)
      typeSrv ttlHost
    suppressTxt := isKnownAnswerSuppressed knownAnswers (instanceFqdnOf service.instanceName)
      typeTxt ttlHost
    suppressA := isKnownAnswerSuppressed knownAnswers (hostFqdnOf service.hostName) typeA ttlHost }

/-- The part of `answerQuery` before the encoder: the id, the inputs and whether the reply is
unicast, for a query that asks for something this host owns. -/
def decideReply (packet : Bytes) : Option (UInt16 × ResponseInputs × Bool) :=
  (parseQuery packet).bind fun (header, questions, knownAnswers) =>
    if header.flags &&& 0x8000 ≠ 0 then none
    else
      let q := classifyQuestions questions (instanceFqdnOf service.instanceName)
        (hostFqdnOf service.hostName)
      if q.matched then some (header.id, service.replyInputs knownAnswers, q.wantUnicast) else none

/-- The reply and whether it is unicast. Nothing is sent when every record is suppressed or
the 1024 bytes do not hold the rest. -/
def answerQuery (m : Nat → UInt8) (packet : Bytes) : Option (Bytes × Bool) :=
  (service.decideReply packet).bind fun (id, inputs, wantUnicast) =>
    (encodeResponse 1024 m id inputs).map fun b => (b.contents, wantUnicast)

end Service

/-! ## What the reply lacks -/

/-- A reply that is sent reads back as the records its inputs ask for. -/
theorem answerQuery_recovered {service : Service} {m : Nat → UInt8} {packet reply : Bytes}
    {wantUnicast : Bool} (hi : IsLabel service.instanceName) (hh : IsLabel service.hostName)
    {txt : Bytes} (htxt : txtRdata service.txtPairs = some txt)
    (hreply : service.answerQuery m packet = some (reply, wantUnicast)) :
    ∃ id inputs, service.decideReply packet = some (id, inputs, wantUnicast) ∧
      (parsePacket reply).map Packet.knownAnswers = some (emittedAnswers inputs) := by
  obtain ⟨⟨id, inputs, unicast⟩, hdecide, hmap⟩ := bind_eq_some_iff.mp hreply
  obtain ⟨out, hout, hpair⟩ := map_eq_some_iff.mp hmap
  cases hpair
  obtain ⟨⟨header, questions, known⟩, -, hdec⟩ := bind_eq_some_iff.mp hdecide
  have hinputs : inputs = service.replyInputs known := by
    dsimp only at hdec
    split at hdec
    · cases hdec
    · split at hdec
      · exact (congrArg (fun r => r.2.1) (Option.some.inj hdec)).symm
      · cases hdec
  subst hinputs
  have hl : Labelled (service.replyInputs known) ⟨_, hi⟩ ⟨_, hh⟩ := ⟨rfl, rfl⟩
  refine ⟨id, _, hdecide, ?_⟩
  -- the 1024 bytes of the reply hold the TXT rdata, if it is sent
  have hshort : (service.replyInputs known).emitTxt = true → txt.length < 65536 := by
    intro hemit
    have := length_txt_of_response hl htxt hemit hout
    omega
  rw [(encodeResponse_recovered hl htxt hshort hout).parsed, map_some]

/-- A query, well formed as far as it is read, with a question for the service type. -/
def asksService (packet : Bytes) : Bool :=
  match parseQuery packet with
  | none => false
  | some (header, questions, _) =>
    header.flags &&& 0x8000 == 0 && questions.any questionMatchesService

/-- The reply to the packet goes without our PTR record. -/
def ptrLeftOut (service : Service) (packet : Bytes) : Bool :=
  match service.decideReply packet with
  | none => false
  | some (_, inputs, _) => (emittedAnswers inputs).all fun a => a.type != typePtr

/-- An answer with the name its rdata holds, for a record that is a name. -/
def parseKnownRecord (packet : Bytes) (pos : Nat) : Option ((Answer × Option Bytes) × Nat) :=
  (parseRr packet pos).map fun (a, start, rdlen) =>
    ((a, (readDnsName packet start).map Prod.fst), start + rdlen)

/-- The answers a query lists, each with the name it points to. -/
def knownRecords (packet : Bytes) : List (Answer × Option Bytes) :=
  match parseHeaderAndQuestions packet with
  | none => []
  | some (header, _, pos) =>
    ((readMany (parseKnownRecord packet) header.anCount.toNat pos).map Prod.fst).getD []

/-- A PTR record for the service type with at least half of our time to live. -/
def freshPtr (r : Answer × Option Bytes) : Bool :=
  r.1.type == typePtr && nameEqCi r.1.name serviceTypeDomain && decide (ttlService / 2 ≤ r.1.ttl)

def namesInstance (service : Service) (r : Answer × Option Bytes) : Bool :=
  match r.2 with
  | none => false
  | some target => nameEqCi target (instanceFqdnOf service.instanceName)

/-- What the parser keeps of the known answers is what the list says without its rdata. -/
theorem knownRecords_map {packet : Bytes} {header : Header} {questions : List Question}
    {known : List Answer} (h : parseQuery packet = some (header, questions, known)) :
    (knownRecords packet).map Prod.fst = known := by
  obtain ⟨⟨header', questions', pos⟩, hhead, hmap⟩ := bind_eq_some_iff.mp h
  obtain ⟨⟨answers, pos'⟩, hanswers, hpair⟩ := map_eq_some_iff.mp hmap
  obtain ⟨rfl, rfl, rfl⟩ : header' = header ∧ questions' = questions ∧ answers = known := by
    simpa using hpair
  have hitem : ∀ pos, parseAnswer packet pos =
      (parseKnownRecord packet pos).map fun p => (p.1.1, p.2) := by
    intro pos
    rw [parseAnswer, parseKnownRecord, map_map]
    rfl
  rw [parseAnswerSection, readMany_map hitem] at hanswers
  obtain ⟨⟨records, pos''⟩, hrecords, hpair'⟩ := map_eq_some_iff.mp hanswers
  rw [knownRecords, hhead]
  simp only [hrecords, map_some, getD_some]
  exact congrArg Prod.fst hpair'

theorem isKnownAnswerSuppressed_ptr (records : List (Answer × Option Bytes)) :
    isKnownAnswerSuppressed (records.map Prod.fst) serviceTypeDomain typePtr ttlService =
      records.any freshPtr := by
  rw [isKnownAnswerSuppressed, List.any_map]
  rfl

/-- The PTR record is missing exactly when it is suppressed. -/
theorem emittedAnswers_ptr (inputs : ResponseInputs) :
    (emittedAnswers inputs).all (fun a => a.type != typePtr) = inputs.suppressPtr := by
  have hsrv : (typeSrv != typePtr) = true := by decide
  have htxt : (typeTxt != typePtr) = true := by decide
  have ha : (typeA != typePtr) = true := by decide
  unfold emittedAnswers
  cases hp : inputs.suppressPtr <;> cases inputs.emitSrv <;> cases inputs.emitTxt <;>
    cases inputs.emitA <;> simp [ResponseInputs.emitPtr, hp, hsrv, htxt, ha]

/-- A query that asks for the service is decided on. -/
theorem decideReply_of_asks {packet : Bytes} (service : Service) (h : asksService packet = true) :
    ∃ header questions known wantUnicast,
      parseQuery packet = some (header, questions, known) ∧
      service.decideReply packet = some (header.id, service.replyInputs known, wantUnicast) := by
  unfold asksService at h
  split at h
  · cases h
  next header questions known hquery =>
    obtain ⟨hflags, hany⟩ := Bool.and_eq_true_iff.mp h
    have hflags := beq_iff_eq.mp hflags
    have hmatched : questions.any (questionMatches (instanceFqdnOf service.instanceName)
        (hostFqdnOf service.hostName)) = true := by
      obtain ⟨q, hq, hservice⟩ := List.any_eq_true.mp hany
      exact List.any_eq_true.mpr ⟨q, hq, by simp [questionMatches, hservice]⟩
    refine ⟨header, questions, known, (classifyQuestions questions
      (instanceFqdnOf service.instanceName) (hostFqdnOf service.hostName)).wantUnicast, hquery, ?_⟩
    rw [Service.decideReply, hquery, bind_some]
    dsimp only
    rw [if_neg (not_not.mpr hflags), classifyQuestions, if_pos hmatched]

/-- The PTR record is left out whenever some PTR record for the service type is known. -/
theorem ptrLeftOut_iff (service : Service) {packet : Bytes} (h : asksService packet = true) :
    ptrLeftOut service packet = true ↔ ∃ r ∈ knownRecords packet, freshPtr r = true := by
  obtain ⟨header, questions, known, wantUnicast, hquery, hdecide⟩ := decideReply_of_asks service h
  rw [ptrLeftOut, hdecide]
  dsimp only
  rw [emittedAnswers_ptr, Service.replyInputs, ← knownRecords_map hquery]
  rw [isKnownAnswerSuppressed_ptr, List.any_eq_true]

/-- Our PTR record is left out only for a known answer that points to our own instance,
exactly if some known answer points there or none is fresh. -/
theorem ptr_left_out_for_ours (service : Service) (packet : Bytes)
    (h : asksService packet = true) :
    (ptrLeftOut service packet = true →
      ∃ r ∈ knownRecords packet, freshPtr r = true ∧ namesInstance service r = true) ↔
    ((∃ r ∈ knownRecords packet, freshPtr r = true) →
      ∃ r ∈ knownRecords packet, freshPtr r = true ∧ namesInstance service r = true) := by
  rw [ptrLeftOut_iff service h]

/-- A query for the service type whose sender knows of one instance. -/
def queryKnowing (i : Label) (ttl : UInt32) : Message where
  header := { id := 0, flags := 0, qdCount := 1, anCount := 1, nsCount := 0, arCount := 0 }
  asked := [⟨serviceLabels, (ptrRr i ttl).shallow, typePtr, classIn⟩]
  answers := [ptrRr i ttl]
  authority := []

def desktop : Service where
  instanceName := ascii "desktop"
  hostName := ascii "desktop"
  udpPort := 9876
  txtPairs := [(ascii "udp", ascii "9876")]
  ipv4 := none

theorem answerQuery_recovered_desktop : ∃ query reply inputs,
    desktop.answerQuery (fun _ => 0) query = some reply ∧
      (parsePacket reply.1).map Packet.knownAnswers = some (emittedAnswers inputs) := by
  have hsome : (desktop.answerQuery (fun _ => 0)
      (queryKnowing ⟨ascii "laptop", by decide⟩ 0).wire).isSome = true := by decide +kernel
  obtain ⟨reply, hreply⟩ := isSome_iff_exists.mp hsome
  obtain ⟨_, inputs, -, hread⟩ := answerQuery_recovered (by decide) (by decide)
    (rfl : txtRdata desktop.txtPairs = some _) hreply
  exact ⟨_, reply, inputs, hreply, hread⟩

theorem ptr_left_out_for_desktop :
    ptrLeftOut desktop (queryKnowing ⟨ascii "desktop", by decide⟩ 120).wire = true ∧
    ∃ r ∈ knownRecords (queryKnowing ⟨ascii "desktop", by decide⟩ 120).wire,
      freshPtr r = true ∧ namesInstance desktop r = true := by
  have hleft : ptrLeftOut desktop (queryKnowing ⟨ascii "desktop", by decide⟩ 120).wire = true := by
    decide +kernel
  have hours := ptr_left_out_for_ours desktop
    (queryKnowing ⟨ascii "desktop", by decide⟩ 120).wire (by decide +kernel)
  exact ⟨hleft, hours.mpr (fun _ => by decide +kernel) hleft⟩

/-- The only known answer points to another host, and our record is left out for it. -/
theorem ptr_left_out_for_laptop :
    asksService (queryKnowing ⟨ascii "laptop", by decide⟩ 120).wire = true ∧
    ptrLeftOut desktop (queryKnowing ⟨ascii "laptop", by decide⟩ 120).wire = true ∧
    ¬ ∃ r ∈ knownRecords (queryKnowing ⟨ascii "laptop", by decide⟩ 120).wire,
      namesInstance desktop r = true := by
  refine ⟨?_, ?_, ?_⟩
  · decide +kernel
  · decide +kernel
  · decide +kernel

end Satellite.Mdns
