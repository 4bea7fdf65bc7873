import Satellite.Mdns.RoundTrip
import Satellite.Mdns.Probing

/-!
# The encoders against the reader

For labels that a name can hold, each encoder writes the bytes of one message where they fit
and nothing otherwise; reading the bytes gives the message back as long as the TXT rdata is
short enough for its length field. A host that hears its own probe has not lost to it.
-/

namespace Satellite.Mdns

open Buffer Option ResponseInputs

/-! ## The names -/

def localLabel : Label := ⟨ascii "local", by decide⟩

def serviceLabels : List Label :=
  [⟨ascii "_satellite", by decide⟩, ⟨ascii "_udp", by decide⟩, localLabel]

def instanceLabels (i : Label) : List Label := i :: serviceLabels

def hostLabels (h : Label) : List Label := [h, localLabel]

theorem dotted_serviceLabels : dotted serviceLabels = serviceTypeDomain := by decide

theorem dotted_instanceLabels (i : Label) : dotted (instanceLabels i) = instanceFqdnOf i.1 := by
  have hdot : ascii "." = [dot] := by decide
  rw [instanceLabels, dotted_cons, dotted_serviceLabels, instanceFqdnOf, hdot]
  simp

theorem dotted_hostLabels (h : Label) : dotted (hostLabels h) = hostFqdnOf h.1 := by
  have hlocal : ascii ".local." = dot :: dotted [localLabel] := by decide
  rw [hostLabels, dotted_cons, hostFqdnOf, hlocal]

theorem length_wireName_host (h : Label) : (wireName (hostLabels h)).length = h.1.length + 8 := by
  have hlocal : localLabel.1.length = 5 := by decide
  simp [wireName, prefixed, hostLabels, hlocal]

theorem length_wireName_instance (i : Label) :
    (wireName (instanceLabels i)).length = i.1.length + 24 := by
  have hservice : (prefixed serviceLabels).length = 22 := by decide
  rw [wireName, instanceLabels, prefixed_cons]
  simp only [List.length_append, List.length_cons, List.length_nil, hservice]

theorem nameBytes_host (h : Label) :
    nameBytes (hostFqdnOf h.1) = some (wireName (hostLabels h)) := by
  have hshort := h.2.short
  rw [← dotted_hostLabels]
  apply nameBytes_dotted
  rw [length_wireName_host]
  omega

/-! ## The records -/

section Records

variable (i h : Label) (inputs : ResponseInputs) (cls : UInt16) (ttl : UInt32)

def ptrRr : Rr where
  labels := serviceLabels
  shallow := by decide
  type := typePtr
  cls := classIn
  ttl := ttl
  rdata := wireName (instanceLabels i)

def srvRr : Rr where
  labels := instanceLabels i
  shallow := (by decide : 4 < 64)
  type := typeSrv
  cls := cls
  ttl := ttl
  rdata := inputs.srvFixedRdata ++ wireName (hostLabels h)

def txtRr (txt : Bytes) : Rr where
  labels := instanceLabels i
  shallow := (by decide : 4 < 64)
  type := typeTxt
  cls := cls
  ttl := ttl
  rdata := txt

def aRr (ip : Vector UInt8 4) : Rr where
  labels := hostLabels h
  shallow := (by decide : 2 < 64)
  type := typeA
  cls := cls
  ttl := ttl
  rdata := ip.toList

end Records

open List

/-- The labels of the two names a host claims. -/
structure Labelled (inputs : ResponseInputs) (i h : Label) : Prop where
  instance_eq : i.1 = inputs.instanceName
  host_eq : h.1 = inputs.hostName

namespace Labelled

variable {inputs : ResponseInputs} {i h : Label} (hl : Labelled inputs i h)
include hl

theorem instanceFqdn : inputs.instanceFqdn = dotted (instanceLabels i) := by
  rw [dotted_instanceLabels, hl.instance_eq]
  rfl

theorem hostFqdn : inputs.hostFqdn = dotted (hostLabels h) := by
  rw [dotted_hostLabels, hl.host_eq]
  rfl

variable {cap : Nat} {b : Buffer UInt8} (hb : b.pos ≤ cap) (ttl : UInt32)
include hb

theorem writePtrRecord : writePtrRecord cap inputs ttl b = b.emit cap (ptrRr i ttl).wire := by
  rw [Mdns.writePtrRecord, hl.instanceFqdn, ← dotted_serviceLabels]
  exact writeRr_eq_emit (ptrRr i ttl) (fun c hc => writeDnsName_dotted _ hc) hb

theorem writeSrvRecord : writeSrvRecord cap inputs ttl b =
    b.emit cap (srvRr i h inputs (classIn ||| cacheFlushBit) ttl).wire := by
  rw [Mdns.writeSrvRecord, hl.instanceFqdn, hl.hostFqdn]
  apply writeRr_eq_emit (srvRr i h inputs (classIn ||| cacheFlushBit) ttl) _ hb
  intro c _
  exact emit_bind c _ fun d hd => writeDnsName_dotted _ hd

theorem writeTxtRecord {txt : Bytes} (htxt : txtRdata inputs.txtPairs = some txt) :
    writeTxtRecord cap inputs ttl b =
      b.emit cap (txtRr i (classIn ||| cacheFlushBit) ttl txt).wire := by
  rw [Mdns.writeTxtRecord, hl.instanceFqdn, htxt]
  exact writeRr_eq_emit (txtRr i (classIn ||| cacheFlushBit) ttl txt) (fun _ _ => rfl) hb

theorem writeARecord (ip) : writeARecord cap inputs ip ttl b =
    b.emit cap (aRr h (classIn ||| cacheFlushBit) ttl ip).wire := by
  rw [Mdns.writeARecord, hl.hostFqdn]
  exact writeRr_eq_emit (aRr h (classIn ||| cacheFlushBit) ttl ip) (fun _ _ => rfl) hb

end Labelled

/-! ## Responses -/

section Responses

variable (inputs : ResponseInputs) (i h : Label) (txt : Bytes)

/-- The records of a response, in the order in which they are written. -/
def responseRrs : List Rr :=
  (if inputs.emitPtr then [ptrRr i (inputs.recordTtl ttlService)] else []) ++
  ((if inputs.emitSrv then
      [srvRr i h inputs (classIn ||| cacheFlushBit) (inputs.recordTtl ttlHost)] else []) ++
  ((if inputs.emitTxt then
      [txtRr i (classIn ||| cacheFlushBit) (inputs.recordTtl ttlHost) txt] else []) ++
  (inputs.emitA.map (aRr h (classIn ||| cacheFlushBit) (inputs.recordTtl ttlHost))).toList))

def responseMessage (txId : UInt16) : Message where
  header := responseHeader txId inputs
  asked := []
  answers := responseRrs inputs i h txt
  authority := []

theorem length_responseRrs : (responseRrs inputs i h txt).length = inputs.answerCount := by
  unfold responseRrs answerCount
  cases inputs.emitPtr <;> cases inputs.emitSrv <;> cases inputs.emitTxt <;>
    cases inputs.emitA <;> rfl

theorem answerCount_le : inputs.answerCount ≤ 4 := by
  have hptr := inputs.emitPtr.toNat_le
  have hsrv := inputs.emitSrv.toNat_le
  have htxt := inputs.emitTxt.toNat_le
  have ha := inputs.emitA.isSome.toNat_le
  unfold answerCount
  omega

theorem toNat_answerCount : (UInt16.ofNat inputs.answerCount).toNat = inputs.answerCount := by
  have := answerCount_le inputs
  rw [UInt16.toNat_ofNat']
  omega

end Responses

variable {cap : Nat}

theorem writeIf_eq_emit {b : Buffer UInt8} {wanted : Bool} {r : Rr}
    {write : Buffer UInt8 → Option (Buffer UInt8)} (hb : b.pos ≤ cap)
    (hw : write b = b.emit cap r.wire) :
    writeIf wanted write b = b.emit cap ((if wanted then [r] else []).flatMap Rr.wire) := by
  cases wanted with
  | false => exact (emit_nil hb).symm
  | true => simpa [writeIf] using hw

section Encoders

variable {inputs : ResponseInputs} {i h : Label} (hl : Labelled inputs i h) {txt : Bytes}
  (cap : Nat) (m : Nat → UInt8)
include hl

/-- A response is its message, unless nothing is left to say or it does not fit. -/
theorem encodeResponse_eq (txId : UInt16) (htxt : txtRdata inputs.txtPairs = some txt) :
    encodeResponse cap m txId inputs =
      if responseRrs inputs i h txt = [] then none
      else (⟨m, 0⟩ : Buffer UInt8).emit cap (responseMessage inputs i h txt txId).wire := by
  have hcount : UInt16.ofNat inputs.answerCount = 0 ↔ responseRrs inputs i h txt = [] := by
    rw [← length_eq_zero_iff, length_responseRrs, ← UInt16.toNat_inj, toNat_answerCount]
    rfl
  have hwire : (responseMessage inputs i h txt txId).wire =
      writeHeader (responseHeader txId inputs) ++ (responseRrs inputs i h txt).flatMap Rr.wire := by
    simp [Message.wire, responseMessage]
  unfold encodeResponse
  by_cases hnone : responseRrs inputs i h txt = []
  · rw [if_pos (hcount.mpr hnone), if_pos hnone, ite_self]
  rw [if_neg (fun hz => hnone (hcount.mp hz)), if_neg hnone, hwire]
  by_cases hcap : cap < 12
  · rw [if_pos hcap, emit_of_gt]
    simp only [length_append, length_writeHeader]
    omega
  rw [if_neg hcap]
  have hheader : (⟨m, 0⟩ : Buffer UInt8).emit cap (writeHeader (responseHeader txId inputs)) =
      some ((⟨m, 0⟩ : Buffer UInt8).put (writeHeader (responseHeader txId inputs))) :=
    emit_of_le _ (by simp only [length_writeHeader]; omega)
  have hbuffer : ((⟨m, 0⟩ : Buffer UInt8).put
      (writeHeader (responseHeader txId inputs))).pos ≤ cap := by
    simp only [put_pos, length_writeHeader]
    omega
  rw [← emit_bind (⟨m, 0⟩ : Buffer UInt8) _ (fun c _ => rfl), hheader, bind_some]
  simp only [responseRrs, flatMap_append]
  -- record after record, each written with the position still in bounds
  rw [writeIf_eq_emit hbuffer (hl.writePtrRecord hbuffer _)]
  apply emit_bind
  intro c hc
  rw [writeIf_eq_emit hc (hl.writeSrvRecord hc _)]
  apply emit_bind
  intro d hd
  rw [writeIf_eq_emit hd (hl.writeTxtRecord hd _ htxt)]
  apply emit_bind
  intro e he
  cases hA : inputs.emitA with
  | none => exact (emit_nil he).symm
  | some ip =>
    have := hl.writeARecord he (inputs.recordTtl ttlHost) ip
    simpa using this

end Encoders

/-- The identities of the records a response carries, in order. -/
def emittedAnswers (inputs : ResponseInputs) : List Answer :=
  (if inputs.emitPtr then
      [⟨serviceTypeDomain, typePtr, classIn, inputs.recordTtl ttlService⟩] else []) ++
  ((if inputs.emitSrv then
      [⟨inputs.instanceFqdn, typeSrv, classIn, inputs.recordTtl ttlHost⟩] else []) ++
  ((if inputs.emitTxt then
      [⟨inputs.instanceFqdn, typeTxt, classIn, inputs.recordTtl ttlHost⟩] else []) ++
  (inputs.emitA.map fun _ =>
      (⟨inputs.hostFqdn, typeA, classIn, inputs.recordTtl ttlHost⟩ : Answer)).toList))

theorem class_masked : (classIn ||| cacheFlushBit) &&& ~~~cacheFlushBit = classIn := by decide

section Responses

variable {inputs : ResponseInputs} {i h : Label} (hl : Labelled inputs i h) {txt : Bytes}

include hl in
theorem answers_responseRrs :
    (responseRrs inputs i h txt).map Rr.answer = emittedAnswers inputs := by
  have hin : classIn &&& ~~~cacheFlushBit = classIn := by decide
  rw [emittedAnswers, hl.instanceFqdn, hl.hostFqdn, ← dotted_serviceLabels]
  simp only [responseRrs, map_append, apply_ite (List.map Rr.answer), map_cons,
    map_nil, Rr.answer, ptrRr, srvRr, txtRr, class_masked, hin]
  cases inputs.emitA with
  | none => rfl
  | some ip => simp [Rr.answer, aRr, class_masked]

theorem length_srvRdata : (inputs.srvFixedRdata ++ wireName (hostLabels h)).length < 65536 := by
  have hshort := h.2.short
  have hsix : inputs.srvFixedRdata.length = 6 := rfl
  rw [length_append, length_wireName_host, hsix]
  omega

theorem responseMessage_sound (txId : UInt16)
    (hlen : inputs.emitTxt = true → txt.length < 65536) :
    (responseMessage inputs i h txt txId).Sound where
  asked := rfl
  answers := by
    change (UInt16.ofNat inputs.answerCount).toNat = (responseRrs inputs i h txt).length
    rw [toNat_answerCount, length_responseRrs]
  authority := rfl
  fits := by
    have hptr : (wireName (instanceLabels i)).length < 65536 := by
      have hshort := i.2.short
      rw [length_wireName_instance]
      omega
    intro r hr
    simp only [responseMessage, append_nil, responseRrs, mem_append,
      mem_toList, map_eq_some_iff] at hr
    rcases hr with hr | hr | hr | ⟨ip, -, rfl⟩
    · split at hr
      · rw [mem_singleton.mp hr]
        exact hptr
      · exact absurd hr not_mem_nil
    · split at hr
      · rw [mem_singleton.mp hr]
        exact length_srvRdata
      · exact absurd hr not_mem_nil
    · split at hr
      next hemit =>
        rw [mem_singleton.mp hr]
        exact hlen hemit
      · exact absurd hr not_mem_nil
    · simp [aRr]
  canonical := fun r hr => absurd hr not_mem_nil

end Responses

/-! ## Probes -/

def proposedRrs (inputs : ResponseInputs) (i h : Label) : List Rr :=
  srvRr i h inputs classIn ttlHost ::
    (((txtRdata inputs.txtPairs).map (txtRr i classIn ttlHost)).toList ++
      (inputs.ipv4.map (aRr h classIn ttlHost)).toList)

def probeMessage (inputs : ResponseInputs) (i h : Label) : Message where
  header := probeHeader (buildProposedRecords inputs)
  asked := [⟨instanceLabels i, (by decide : 4 < 64), typeAny, classIn ||| cacheFlushBit⟩]
  answers := []
  authority := proposedRrs inputs i h

/-- Proposed records go out as they are, class and all. -/
theorem writeAuthority_eq_emit (rs : List Rr) (hrs : ∀ r ∈ rs, r.cls = classIn) :
    ∀ {b : Buffer UInt8}, b.pos ≤ cap →
      writeAuthority cap (rs.map Rr.record) b = b.emit cap (rs.flatMap Rr.wire) := by
  induction rs with
  | nil =>
    intro b hb
    exact (emit_nil hb).symm
  | cons r rs ih =>
    intro b hb
    have hfirst : writeAuthorityRecord cap r.record b = b.emit cap r.wire := by
      rw [writeAuthorityRecord, ← hrs r mem_cons_self]
      exact writeRr_eq_emit r (fun _ _ => rfl) hb
    rw [map_cons, writeAuthority, hfirst, flatMap_cons]
    apply emit_bind
    intro c hc
    exact ih (fun r hr => hrs r (mem_cons_of_mem _ hr)) hc

section Probes

variable {inputs : ResponseInputs} {i h : Label} (hl : Labelled inputs i h)

theorem mem_proposedRrs {r : Rr} (hr : r ∈ proposedRrs inputs i h) :
    r = srvRr i h inputs classIn ttlHost ∨
      (∃ txt, txtRdata inputs.txtPairs = some txt ∧ r = txtRr i classIn ttlHost txt) ∨
      ∃ ip, r = aRr h classIn ttlHost ip := by
  simp only [proposedRrs, mem_cons, mem_append, mem_toList,
    map_eq_some_iff] at hr
  obtain hr | ⟨txt, htxt, hr⟩ | ⟨ip, -, hr⟩ := hr
  · exact .inl hr
  · exact .inr (.inl ⟨txt, htxt, hr.symm⟩)
  · exact .inr (.inr ⟨ip, hr.symm⟩)

theorem canonical_proposedRrs {r : Rr} (hr : r ∈ proposedRrs inputs i h) : r.Canonical := by
  have hsrv : typeSrv ≠ typePtr := by decide
  have htxt : typeTxt ≠ typePtr ∧ typeTxt ≠ typeSrv := by decide
  have ha : typeA ≠ typePtr ∧ typeA ≠ typeSrv := by decide
  obtain rfl | ⟨txt, -, rfl⟩ | ⟨ip, rfl⟩ := mem_proposedRrs hr
  · refine ⟨hsrv, fun _ => ⟨inputs.srvFixedRdata, hostLabels h, rfl, rfl,
      (by decide : 2 < 64), ?_⟩⟩
    have hshort := h.2.short
    rw [length_wireName_host]
    omega
  · exact ⟨htxt.1, fun h => absurd h htxt.2⟩
  · exact ⟨ha.1, fun h => absurd h ha.2⟩

theorem fits_proposedRrs (htxt : ∀ txt, txtRdata inputs.txtPairs = some txt → txt.length < 65536)
    {r : Rr} (hr : r ∈ proposedRrs inputs i h) : r.rdata.length < 65536 := by
  obtain rfl | ⟨txt, ht, rfl⟩ | ⟨ip, rfl⟩ := mem_proposedRrs hr
  · exact length_srvRdata
  · exact htxt txt ht
  · simp [aRr]

include hl

theorem records_proposedRrs :
    (proposedRrs inputs i h).map Rr.record = buildProposedRecords inputs := by
  have hin : classIn &&& ~~~cacheFlushBit = classIn := by decide
  have hname : nameBytes (dotted (hostLabels h)) = some (wireName (hostLabels h)) := by
    rw [dotted_hostLabels, nameBytes_host]
  unfold proposedRrs buildProposedRecords
  cases txtRdata inputs.txtPairs <;> cases inputs.ipv4 <;>
    simp [Rr.record, srvRr, txtRr, aRr, srvRecord, txtRecord,
      aRecord, hname, hl.instanceFqdn, hl.hostFqdn, hin]

theorem probeMessage_sound
    (htxt : ∀ txt, txtRdata inputs.txtPairs = some txt → txt.length < 65536) :
    (probeMessage inputs i h).Sound where
  asked := rfl
  answers := rfl
  authority := by
    have hlen : (buildProposedRecords inputs).length = (proposedRrs inputs i h).length := by
      rw [← records_proposedRrs hl, length_map]
    have hle : (proposedRrs inputs i h).length ≤ 3 := by
      unfold proposedRrs
      cases txtRdata inputs.txtPairs <;> cases inputs.ipv4 <;> simp
    change (UInt16.ofNat (buildProposedRecords inputs).length).toNat = _
    rw [hlen, UInt16.toNat_ofNat', Nat.mod_eq_of_lt (by omega)]
    rfl
  fits := fun r hr => fits_proposedRrs htxt hr
  canonical := fun r hr => canonical_proposedRrs hr

/-- A probe is its message, wherever that fits. -/
theorem encodeProbeQuery_eq (cap : Nat) (m : Nat → UInt8) :
    encodeProbeQuery cap m inputs =
      (⟨m, 0⟩ : Buffer UInt8).emit cap (probeMessage inputs i h).wire := by
  have hwire : (probeMessage inputs i h).wire =
      writeHeader (probeHeader (buildProposedRecords inputs)) ++
        (wireName (instanceLabels i) ++
          ((writeBE16 typeAny ++ writeBE16 (classIn ||| cacheFlushBit)) ++
            (proposedRrs inputs i h).flatMap Rr.wire)) := by
    simp [Message.wire, probeMessage, Asked.wire]
  have hcls : ∀ r ∈ proposedRrs inputs i h, r.cls = classIn := by
    intro r hr
    obtain rfl | ⟨txt, -, rfl⟩ | ⟨ip, rfl⟩ := mem_proposedRrs hr <;> rfl
  have hsome : buildProposedRecords inputs ≠ [] := cons_ne_nil _ _
  unfold encodeProbeQuery
  rw [hwire, if_neg hsome]
  by_cases hcap : cap < 12
  · rw [if_pos hcap, emit_of_gt]
    simp only [length_append, length_writeHeader]
    omega
  have hbuffer : ((⟨m, 0⟩ : Buffer UInt8).put
      (writeHeader (probeHeader (buildProposedRecords inputs)))).pos ≤ cap := by
    simp only [put_pos, length_writeHeader]
    omega
  rw [if_neg hcap, ← emit_bind (⟨m, 0⟩ : Buffer UInt8) _ (fun c _ => rfl),
    emit_of_le _ (by simp only [length_writeHeader]; omega), bind_some,
    hl.instanceFqdn, writeDnsName_dotted _ hbuffer]
  apply emit_bind
  intro c _
  apply emit_bind
  intro d hd
  rw [← records_proposedRrs hl]
  exact writeAuthority_eq_emit _ hcls hd

theorem parsed_probeMessage : (probeMessage inputs i h).parsed =
    { header := probeHeader (buildProposedRecords inputs)
      questions := [⟨inputs.instanceFqdn, typeAny, classIn, true⟩]
      knownAnswers := []
      authority := buildProposedRecords inputs } := by
  have hquestion : Asked.question
      ⟨instanceLabels i, (by decide : 4 < 64), typeAny, classIn ||| cacheFlushBit⟩ =
      ⟨inputs.instanceFqdn, typeAny, classIn, true⟩ := by
    have hunicast : (classIn ||| cacheFlushBit) &&& cacheFlushBit ≠ 0 := by decide
    simp only [Asked.question, hl.instanceFqdn, class_masked, bne_iff_ne.mpr hunicast]
  simp only [Message.parsed, probeMessage, map_cons, map_nil, hquestion,
    records_proposedRrs hl]

end Probes

/-! ## What is recovered -/

/-- The buffer was kept to and holds bytes from which the packet is read. -/
structure Recovered (cap : Nat) (m : Nat → UInt8) (out : Buffer UInt8) (p : Packet) : Prop where
  inside : out.pos ≤ cap
  untouched : ∀ j, cap ≤ j → out.mem j = m j
  parsed : parsePacket out.contents = some p

variable {m : Nat → UInt8} {out : Buffer UInt8}

theorem Recovered.of_emit {x : Message}
    (hx : x.Sound) (he : (⟨m, 0⟩ : Buffer UInt8).emit cap x.wire = some out) :
    Recovered cap m out x.parsed := by
  obtain ⟨hfits, rfl⟩ := emit_eq_some he
  refine ⟨hfits, ?_, ?_⟩
  · intro j hj
    exact put_mem_of_ge _ (Nat.le_trans hfits hj)
  · rw [contents_put, parsePacket_wire hx]

variable {inputs : ResponseInputs}

theorem encodeResponse_recovered {txId : UInt16}
    {i h : Label} (hl : Labelled inputs i h) {txt : Bytes}
    (htxt : txtRdata inputs.txtPairs = some txt)
    (hlen : inputs.emitTxt = true → txt.length < 65536)
    (he : encodeResponse cap m txId inputs = some out) :
    Recovered cap m out
      { header := responseHeader txId inputs, questions := []
        knownAnswers := emittedAnswers inputs, authority := [] } := by
  rw [encodeResponse_eq hl cap m txId htxt] at he
  split at he
  · cases he
  · have := Recovered.of_emit (responseMessage_sound txId hlen) he
    rwa [Message.parsed, responseMessage, answers_responseRrs hl] at this

/-- A response that went out has TXT rdata no longer than the buffer. -/
theorem length_txt_of_response {txId : UInt16} {i h : Label} (hl : Labelled inputs i h)
    {txt : Bytes} (htxt : txtRdata inputs.txtPairs = some txt) (hemit : inputs.emitTxt = true)
    (he : encodeResponse cap m txId inputs = some out) : txt.length ≤ cap := by
  rw [encodeResponse_eq hl cap m txId htxt] at he
  split at he
  · cases he
  · have hmem : txtRr i (classIn ||| cacheFlushBit) (inputs.recordTtl ttlHost) txt ∈
        (responseMessage inputs i h txt txId).answers ++ [] := by
      simp [responseMessage, responseRrs, hemit]
    have hle : txt.length ≤ _ := Message.length_rdata_le hmem
    have hfits := (emit_eq_some he).1
    omega

theorem encodeProbeQuery_recovered
    {i h : Label} (hl : Labelled inputs i h)
    (htxt : ∀ txt, txtRdata inputs.txtPairs = some txt → txt.length < 65536)
    (he : encodeProbeQuery cap m inputs = some out) :
    Recovered cap m out
      { header := probeHeader (buildProposedRecords inputs)
        questions := [⟨inputs.instanceFqdn, typeAny, classIn, true⟩]
        knownAnswers := []
        authority := buildProposedRecords inputs } := by
  rw [encodeProbeQuery_eq hl] at he
  rw [← parsed_probeMessage hl]
  exact Recovered.of_emit (probeMessage_sound hl htxt) he

/-- Our verdict on a probe for our instance name: a name is lost where our records for it
compare lower. -/
theorem classifyProbePacket_recovered {theirs : ResponseInputs}
    (hostFqdn : Bytes) (ours : List ProbeRecord)
    (hr : Recovered cap m out
      { header := probeHeader (buildProposedRecords theirs)
        questions := [⟨theirs.instanceFqdn, typeAny, classIn, true⟩]
        knownAnswers := []
        authority := buildProposedRecords theirs }) :
    classifyProbePacket out.contents theirs.instanceFqdn hostFqdn ours =
      if losesName ours (buildProposedRecords theirs) theirs.instanceFqdn ∨
          losesName ours (buildProposedRecords theirs) hostFqdn then .lostTiebreak
      else .none := by
  apply classifyProbePacket_probe hr.parsed rfl
  · exact ⟨_, mem_singleton_self _, rfl⟩
  · exact cons_ne_nil _ _

theorem losesName_self (rs : List ProbeRecord) (name : Bytes) : ¬ losesName rs rs name := by
  rw [losesName_iff, compareRecordSets_self]
  omega

variable {pairs : List (Bytes × Bytes)}

theorem txtEntries_isSome
    (h : ∀ pair ∈ pairs, (txtEntry pair).length ≤ 255) : ∃ txt, txtEntries pairs = some txt := by
  induction pairs with
  | nil => exact ⟨[], rfl⟩
  | cons pair pairs ih =>
    obtain ⟨rest, hrest⟩ := ih fun q hq => h q (mem_cons_of_mem _ hq)
    have hpair := h pair mem_cons_self
    rw [txtEntries, if_neg (by omega), hrest]
    exact ⟨_, rfl⟩

theorem txtRdata_isSome
    (h : ∀ pair ∈ pairs, (txtEntry pair).length ≤ 255) : ∃ txt, txtRdata pairs = some txt := by
  unfold txtRdata
  split
  · exact ⟨[0], rfl⟩
  · exact txtEntries_isSome h

/-- What the encoders write is read back exactly, as long as 16 bits can count the TXT rdata. -/
theorem codec_round_trip (inputs : ResponseInputs) (hi : IsLabel inputs.instanceName)
    (hh : IsLabel inputs.hostName)
    (hentries : ∀ pair ∈ inputs.txtPairs, (txtEntry pair).length ≤ 255)
    (hshort : ∀ txt, txtRdata inputs.txtPairs = some txt → txt.length < 65536)
    (cap : Nat) (m : Nat → UInt8) :
    (∀ txId out, encodeResponse cap m txId inputs = some out →
      Recovered cap m out
        { header := responseHeader txId inputs, questions := []
          knownAnswers := emittedAnswers inputs, authority := [] }) ∧
    (∀ out, encodeAnnouncement cap m inputs = some out →
      Recovered cap m out
        { header := responseHeader 0 inputs.announced, questions := []
          knownAnswers := emittedAnswers inputs.announced, authority := [] }) ∧
    (∀ out, encodeProbeQuery cap m inputs = some out →
      Recovered cap m out
        { header := probeHeader (buildProposedRecords inputs)
          questions := [⟨inputs.instanceFqdn, typeAny, classIn, true⟩]
          knownAnswers := []
          authority := buildProposedRecords inputs } ∧
      classifyProbePacket out.contents inputs.instanceFqdn inputs.hostFqdn
        (buildProposedRecords inputs) = .none) := by
  obtain ⟨txt, htxt⟩ := txtRdata_isSome hentries
  have hl : Labelled inputs ⟨_, hi⟩ ⟨_, hh⟩ := ⟨rfl, rfl⟩
  have hann : Labelled inputs.announced ⟨_, hi⟩ ⟨_, hh⟩ := ⟨rfl, rfl⟩
  refine ⟨?_, ?_, ?_⟩
  · intro txId out he
    exact encodeResponse_recovered hl htxt (fun _ => hshort txt htxt) he
  · intro out he
    exact encodeResponse_recovered hann htxt (fun _ => hshort txt htxt) he
  · intro out he
    have hr := encodeProbeQuery_recovered hl hshort he
    refine ⟨hr, ?_⟩
    rw [classifyProbePacket_recovered inputs.hostFqdn _ hr, if_neg]
    rintro (hlost | hlost)
    · exact losesName_self _ _ hlost
    · exact losesName_self _ _ hlost

/-- A host with an address and two TXT entries: all three encoders have room in 512 bytes. -/
def laptop : ResponseInputs where
  instanceName := ascii "laptop"
  hostName := ascii "laptop"
  udpPort := 9876
  txtPairs := [(ascii "udp", ascii "9876"), (ascii "mid", ascii "7f")]
  ipv4 := some #v[192, 168, 1, 20]

theorem laptop_round_trip :
    (encodeResponse 512 (fun _ => 0) 7 laptop).isSome = true ∧
    (encodeAnnouncement 512 (fun _ => 0) laptop).isSome = true ∧
    ∃ out, encodeProbeQuery 512 (fun _ => 0) laptop = some out ∧
      (parsePacket out.contents).map Packet.authority = some (buildProposedRecords laptop) := by
  have hshort : ∀ txt, txtRdata laptop.txtPairs = some txt → txt.length < 65536 := by
    intro txt htxt
    have htwo : (txtRdata laptop.txtPairs).map List.length = some 16 := by decide
    rw [htxt, map_some, Option.some.injEq] at htwo
    omega
  have hround := codec_round_trip laptop (by decide) (by decide) (by decide) hshort 512 (fun _ => 0)
  have hprobe : (encodeProbeQuery 512 (fun _ => 0) laptop).isSome = true := by decide +kernel
  obtain ⟨out, hout⟩ := isSome_iff_exists.mp hprobe
  refine ⟨by decide +kernel, by decide +kernel, out, hout, ?_⟩
  rw [(hround.2.2 out hout).1.parsed]
  rfl

/-! ## A TXT record too long for its length field -/

/-- The rdata of a TXT record in a probe is cut to what its length field says. -/
theorem parseAuthorityRecord_txt {packet : Bytes} {pos : Nat} (r : Rr) (hr : r.type = typeTxt)
    (h : Carries packet pos r.wire) :
    (parseAuthorityRecord packet pos).map (fun p => p.1.rdata) =
      some (r.rdata.take (r.rdata.length % 65536)) := by
  have htake := (Rr.carries_rdata h).take_drop (Nat.mod_le r.rdata.length 65536)
  have hne : typeTxt ≠ typeSrv ∧ typeTxt ≠ typePtr := by decide
  rw [parseAuthorityRecord, parseRr_of_carries r h, bind_some]
  change ((canonicalizeAuthorityRdata packet r.type _ _).map _).map _ = _
  rw [canonicalizeAuthorityRdata, hr, if_neg hne.1, if_neg hne.2, htake]
  rfl

/-- A probe with a TXT record and no address proposes two records, the second one cut. -/
theorem parsePacket_probe_txt {i h : Label} (hl : Labelled inputs i h)
    (hip : inputs.ipv4 = none) {txt : Bytes} (htxt : txtRdata inputs.txtPairs = some txt) :
    ∃ r, (parsePacket (probeMessage inputs i h).wire).map Packet.authority =
      some [inputs.srvRecord, r] ∧ r.rdata = txt.take (txt.length % 65536) := by
  let x := probeMessage inputs i h
  have hrrs : x.authority = [srvRr i h inputs classIn ttlHost, txtRr i classIn ttlHost txt] := by
    change proposedRrs inputs i h = _
    rw [proposedRrs, htxt, hip]
    rfl
  have hproposed : buildProposedRecords inputs = [inputs.srvRecord, inputs.txtRecord txt] := by
    rw [buildProposedRecords, htxt, hip]
    rfl
  have hsrvRecord : (srvRr i h inputs classIn ttlHost).record = inputs.srvRecord := by
    have := records_proposedRrs hl
    rw [hproposed] at this
    exact (List.cons.inj this).1
  have hrecords := (Carries.whole x.wire).right.right.right
  rw [hrrs, length_writeHeader, Nat.zero_add, flatMap_cons] at hrecords
  have hsrv := parseAuthorityRecord_of_carries _
    (canonical_proposedRrs mem_cons_self) length_srvRdata hrecords.left
  have hsecond := hrecords.right
  rw [flatMap_cons] at hsecond
  obtain ⟨q, hq, hrdata⟩ := map_eq_some_iff.mp (parseAuthorityRecord_txt _ rfl hsecond.left)
  have hcount : x.header.nsCount.toNat = 2 := by
    change (UInt16.ofNat (buildProposedRecords inputs).length).toNat = 2
    rw [hproposed]
    rfl
  have hnone : (x.answers.flatMap Rr.wire).length = 0 := rfl
  rw [hnone, Nat.add_zero] at hsrv hq
  have hmany : readMany (parseAuthorityRecord x.wire) 2
      (12 + (x.asked.flatMap Asked.wire).length) = some ([inputs.srvRecord, q.1], q.2) := by
    rw [readMany, hsrv, hsrvRecord, bind_some]
    simp only [readMany, hq, bind_some, map_some]
  have hzero : x.header.anCount.toNat = 0 := rfl
  refine ⟨q.1, ?_, hrdata⟩
  change (parsePacket x.wire).map _ = _
  rw [parsePacket, parseHeaderAndQuestions_of_carries rfl x.carries_head]
  simp only [bind_some, parseAnswerSection, hzero, hcount, readMany.eq_1, hmany,
    map_some]

/-- Pairs of an empty key and an empty value. -/
def emptyPairs (n : Nat) : List (Bytes × Bytes) := List.replicate n ([], [])

theorem txtEntries_emptyPairs (n : Nat) :
    txtEntries (emptyPairs n) = some (List.replicate n [1, 61]).flatten := by
  have hentry : txtEntry ([], []) = [61] := by decide
  induction n with
  | zero => rfl
  | succ n ih =>
    rw [emptyPairs, replicate_succ, txtEntries, ← emptyPairs, ih, hentry]
    rfl

theorem txtRdata_emptyPairs {n : Nat} (hn : n ≠ 0) :
    ∃ txt, txtRdata (emptyPairs n) = some txt ∧ txt.length = n * 2 := by
  refine ⟨(List.replicate n [1, 61]).flatten, ?_, ?_⟩
  · rw [txtRdata, if_neg (by simpa [emptyPairs] using hn), txtEntries_emptyPairs]
  · simp

def talkative (n : Nat) : ResponseInputs where
  instanceName := ascii "a"
  hostName := ascii "b"
  txtPairs := emptyPairs n

/-- With enough short entries the probe goes out and its TXT record reads back cut. -/
theorem long_txt_not_recovered :
    ∃ inputs : ResponseInputs, IsLabel inputs.instanceName ∧ IsLabel inputs.hostName ∧
    (∀ pair ∈ inputs.txtPairs, (txtEntry pair).length ≤ 255) ∧
    ∃ cap out, encodeProbeQuery cap (fun _ => 0) inputs = some out ∧
      (parsePacket out.contents).map Packet.authority ≠ some (buildProposedRecords inputs) := by
  have hi : IsLabel (ascii "a") := by decide
  have hh : IsLabel (ascii "b") := by decide
  have hl : ∀ n, Labelled (talkative n) ⟨_, hi⟩ ⟨_, hh⟩ := fun _ => ⟨rfl, rfl⟩
  refine ⟨talkative 32768, hi, hh, ?_, ?_⟩
  · intro pair hpair
    rw [eq_of_mem_replicate hpair]
    decide
  obtain ⟨txt, htxt, hlen⟩ := txtRdata_emptyPairs (n := 32768) (by decide)
  obtain ⟨r, hread, hrdata⟩ := parsePacket_probe_txt (hl 32768) rfl htxt
  refine ⟨(probeMessage (talkative 32768) ⟨_, hi⟩ ⟨_, hh⟩).wire.length, _,
    (encodeProbeQuery_eq (hl 32768) _ _).trans
      (emit_of_le _ (Nat.le_of_eq (Nat.zero_add _))), ?_⟩
  rw [contents_put, hread, buildProposedRecords]
  change some [_, r] ≠ some (_ :: ((txtRdata (emptyPairs 32768)).map _).toList ++ _)
  rw [htxt]
  intro heq
  simp only [map_some, toList_some, cons_append, Option.some.injEq,
    List.cons.injEq] at heq
  have hcut : txt.take (txt.length % 65536) = txt := by
    rw [← hrdata, heq.2.1]
    rfl
  rw [hlen] at hcut
  have := congrArg List.length hcut
  simp [hlen] at this

end Satellite.Mdns
