import Satellite.Mdns.Codec
import Satellite.Mdns.Names

/-!
# What is probed for and what is announced

A host probes for the unique records it wants and announces them once nobody objects. The two
encoders go over the same inputs by different ways: a probe leaves out TXT rdata that cannot
be written and the target of an SRV record whose host name takes more than 256 bytes, where an
announcement is refused or writes the name in full. The records agree exactly where neither
happens, or where the probe is refused as well.
-/

namespace Satellite.Mdns

open Option Buffer ResponseInputs

/-! ## Laying out records -/

/-- Records one after the other, under one class; `none` if a name cannot be written. -/
def layout (cls : UInt16) : List ProbeRecord → Option Bytes
  | [] => some []
  | r :: rs => (nameLabels r.name).bind fun ls =>
    (layout cls rs).map fun w => rrWire (wireName ls) r.type cls r.ttl r.rdata ++ w

theorem layout_isSome_iff {cls : UInt16} {rs : List ProbeRecord} :
    (layout cls rs).isSome ↔ ∀ r ∈ rs, (nameLabels r.name).isSome := by
  induction rs with
  | nil => simp [layout]
  | cons r rs ih =>
    rw [List.forall_mem_cons, ← ih, layout]
    cases nameLabels r.name <;> simp

variable {cap : Nat} {b : Buffer UInt8}

/-- A record that is written ahead of others. -/
theorem bind_layout {cls : UInt16} {r : ProbeRecord} {rs : List ProbeRecord}
    {next : Buffer UInt8 → Option (Buffer UInt8)}
    (hnext : ∀ c, c.pos ≤ cap → next c = (layout cls rs).bind (c.emit cap)) :
    (((nameLabels r.name).map fun ls =>
        rrWire (wireName ls) r.type cls r.ttl r.rdata).bind (b.emit cap)).bind next =
      (layout cls (r :: rs)).bind (b.emit cap) := by
  rw [layout]
  cases nameLabels r.name with
  | none => rfl
  | some ls => exact b.emit_bind_option _ hnext

/-- The last record of a list. -/
theorem layout_singleton {cls : UInt16} (r : ProbeRecord) :
    (layout cls [r]).bind (b.emit cap) =
      ((nameLabels r.name).map fun ls =>
        rrWire (wireName ls) r.type cls r.ttl r.rdata).bind (b.emit cap) := by
  rw [layout]
  cases nameLabels r.name with
  | none => rfl
  | some ls => simp [layout]

/-! ## The probe -/

theorem writeAuthorityRecord_eq (r : ProbeRecord) (hb : b.pos ≤ cap) :
    writeAuthorityRecord cap r b =
      ((nameLabels r.name).map fun ls =>
        rrWire (wireName ls) r.type classIn r.ttl r.rdata).bind (b.emit cap) :=
  writeRr_verbatim hb r.rdata

theorem writeAuthority_eq (rs : List ProbeRecord) (hb : b.pos ≤ cap) :
    writeAuthority cap rs b = (layout classIn rs).bind (b.emit cap) := by
  induction rs generalizing b with
  | nil => exact (emit_nil hb).symm
  | cons r rs ih =>
    rw [writeAuthority, writeAuthorityRecord_eq r hb]
    exact bind_layout fun c hc => ih hc

/-- The bytes of a probe: header, question and the proposed records. -/
def probeWire (inputs : ResponseInputs) : Option Bytes :=
  (nameLabels inputs.instanceFqdn).bind fun i =>
    (layout classIn (buildProposedRecords inputs)).map fun w =>
      writeHeader (probeHeader (buildProposedRecords inputs)) ++
        (wireName i ++ ((writeBE16 typeAny ++ writeBE16 (classIn ||| cacheFlushBit)) ++ w))

theorem encodeProbeQuery_wire (inputs : ResponseInputs) (m : Nat → UInt8) (hcap : 12 ≤ cap) :
    encodeProbeQuery cap m inputs = (probeWire inputs).bind ((⟨m, 0⟩ : Buffer UInt8).emit cap) := by
  have hproposed : buildProposedRecords inputs ≠ [] := List.cons_ne_nil _ _
  rw [encodeProbeQuery, if_neg (by omega), if_neg hproposed, probeWire]
  generalize hhdr : writeHeader (probeHeader (buildProposedRecords inputs)) = hdr
  have hlen : (0 : Nat) + hdr.length ≤ cap := by
    rw [← hhdr]
    exact hcap
  rw [writeDnsName_eq _ (by simpa using hlen)]
  cases nameLabels inputs.instanceFqdn with
  | none => rfl
  | some i =>
    simp only [map_some, bind_some]
    rw [emit_bind_option _ _ fun c hc =>
      c.emit_bind_option _ fun d hd => writeAuthority_eq _ hd]
    cases layout classIn (buildProposedRecords inputs) with
    | none => rfl
    | some w => exact put_emit _ hlen _

/-! ## The announcement -/

/-- The unique records of an announcement, with the bytes of the target in the SRV record;
`none` if the target or the TXT rdata cannot be written. -/
def announcedRecords (inputs : ResponseInputs) : Option (List ProbeRecord) :=
  (nameLabels inputs.hostFqdn).bind fun h =>
    (txtRdata inputs.txtPairs).map fun txt =>
      { inputs.srvRecord with rdata := inputs.srvFixedRdata ++ wireName h } ::
        inputs.txtRecord txt :: (inputs.ipv4.map inputs.aRecord).toList

/-- The bytes of an announcement: header, the shared PTR record and the unique records. -/
def announcementWire (inputs : ResponseInputs) : Option Bytes :=
  (nameLabels inputs.instanceFqdn).bind fun i =>
    ((announcedRecords inputs).bind (layout (classIn ||| cacheFlushBit))).map fun w =>
      writeHeader (responseHeader 0 inputs.announced) ++
        (rrWire (wireName serviceLabels) typePtr classIn ttlService (wireName i) ++ w)

section Announcement

variable (inputs : ResponseInputs) (hb : b.pos ≤ cap)
include hb

theorem writePtrRecord_eq : writePtrRecord cap inputs ttlService b =
    ((nameLabels inputs.instanceFqdn).map fun i =>
      rrWire (wireName serviceLabels) typePtr classIn ttlService (wireName i)).bind
        (b.emit cap) := by
  have hservice : nameLabels serviceTypeDomain = some serviceLabels := by decide +kernel
  rw [writePtrRecord, writeRr_eq hb fun c hc => writeDnsName_eq _ hc, hservice]
  cases nameLabels inputs.instanceFqdn <;> rfl

theorem writeSrvRecord_eq : writeSrvRecord cap inputs ttlHost b =
    ((nameLabels inputs.instanceFqdn).bind fun i => (nameLabels inputs.hostFqdn).map fun h =>
      rrWire (wireName i) typeSrv (classIn ||| cacheFlushBit) ttlHost
        (inputs.srvFixedRdata ++ wireName h)).bind (b.emit cap) := by
  rw [writeSrvRecord, writeRr_eq hb fun c _ =>
    c.emit_bind_option _ fun d hd => writeDnsName_eq _ hd]
  cases nameLabels inputs.hostFqdn <;> rfl

theorem writeTxtRecord_eq : writeTxtRecord cap inputs ttlHost b =
    ((nameLabels inputs.instanceFqdn).bind fun i => (txtRdata inputs.txtPairs).map fun txt =>
      rrWire (wireName i) typeTxt (classIn ||| cacheFlushBit) ttlHost txt).bind (b.emit cap) := by
  rw [writeTxtRecord, writeRr_eq hb fun c _ => rfl]

theorem writeARecord_eq (ip : Vector UInt8 4) : writeARecord cap inputs ip ttlHost b =
    ((nameLabels inputs.hostFqdn).map fun h =>
      rrWire (wireName h) typeA (classIn ||| cacheFlushBit) ttlHost ip.toList).bind
        (b.emit cap) :=
  writeRr_verbatim hb ip.toList

/-- The A record, if there is to be one. -/
theorem writeAddress_eq :
    (match inputs.ipv4 with
      | none => some b
      | some ip => writeARecord cap inputs ip ttlHost b) =
      (layout (classIn ||| cacheFlushBit) (inputs.ipv4.map inputs.aRecord).toList).bind
        (b.emit cap) := by
  cases inputs.ipv4 with
  | none => exact (emit_nil hb).symm
  | some ip =>
    simp only [map_some, toList_some]
    rw [layout_singleton (inputs.aRecord ip), writeARecord_eq inputs hb ip]
    rfl

/-- The records after the SRV record. -/
theorem writeText_eq {i : List Label} (hi : nameLabels inputs.instanceFqdn = some i) :
    ((writeTxtRecord cap inputs ttlHost b).bind fun b =>
        match inputs.ipv4 with
        | none => some b
        | some ip => writeARecord cap inputs ip ttlHost b) =
      ((txtRdata inputs.txtPairs).bind fun txt => layout (classIn ||| cacheFlushBit)
        (inputs.txtRecord txt :: (inputs.ipv4.map inputs.aRecord).toList)).bind (b.emit cap) := by
  rw [writeTxtRecord_eq inputs hb, hi]
  cases txtRdata inputs.txtPairs with
  | none => rfl
  | some txt =>
    have hname : nameLabels (inputs.txtRecord txt).name = some i := hi
    simp only [bind_some, map_some, layout, hname]
    exact b.emit_bind_option _ fun c hc => writeAddress_eq inputs hc

/-- The records after the PTR record. -/
theorem writeUnique_eq {i : List Label} (hi : nameLabels inputs.instanceFqdn = some i) :
    ((writeSrvRecord cap inputs ttlHost b).bind fun b =>
      (writeTxtRecord cap inputs ttlHost b).bind fun b =>
        match inputs.ipv4 with
        | none => some b
        | some ip => writeARecord cap inputs ip ttlHost b) =
      ((announcedRecords inputs).bind (layout (classIn ||| cacheFlushBit))).bind (b.emit cap) := by
  rw [writeSrvRecord_eq inputs hb, hi, announcedRecords]
  cases nameLabels inputs.hostFqdn with
  | none => rfl
  | some h =>
    simp only [bind_some, map_some]
    rw [b.emit_bind_option _ fun c hc => writeText_eq inputs hc hi]
    cases txtRdata inputs.txtPairs with
    | none => rfl
    | some txt =>
      have hname : nameLabels inputs.srvRecord.name = some i := hi
      simp only [bind_some, map_some, layout, hname]
      rfl

end Announcement

theorem encodeAnnouncement_wire (inputs : ResponseInputs) (m : Nat → UInt8) (hcap : 12 ≤ cap) :
    encodeAnnouncement cap m inputs =
      (announcementWire inputs).bind ((⟨m, 0⟩ : Buffer UInt8).emit cap) := by
  have hcount : ¬ UInt16.ofNat inputs.announced.answerCount = 0 := by
    intro hzero
    have := congrArg UInt16.toNat hzero
    rw [toNat_answerCount] at this
    simp [answerCount, announced, emitPtr] at this
  rw [encodeAnnouncement, encodeResponse, if_neg (by omega), if_neg hcount, announcementWire]
  generalize hhdr : writeHeader (responseHeader 0 inputs.announced) = hdr
  have hlen : (0 : Nat) + hdr.length ≤ cap := by
    rw [← hhdr]
    exact hcap
  change ((writePtrRecord cap inputs ttlService ((⟨m, 0⟩ : Buffer UInt8).put hdr)).bind fun b =>
    (writeSrvRecord cap inputs ttlHost b).bind fun b =>
      (writeTxtRecord cap inputs ttlHost b).bind fun b =>
        match inputs.ipv4 with
        | none => some b
        | some ip => writeARecord cap inputs ip ttlHost b) = _
  rw [writePtrRecord_eq inputs (by simpa using hlen)]
  cases hi : nameLabels inputs.instanceFqdn with
  | none => rfl
  | some i =>
    simp only [map_some, bind_some]
    rw [emit_bind_option _ _ fun c hc => writeUnique_eq inputs hc hi]
    cases (announcedRecords inputs).bind (layout (classIn ||| cacheFlushBit)) with
    | none => rfl
    | some w => exact put_emit _ hlen _

/-! ## Agreement -/

/-- Room for the probe and for the announcement, where there is one. -/
structure Roomy (cap : Nat) (inputs : ResponseInputs) : Prop where
  header : 12 ≤ cap
  probe : ∀ w ∈ probeWire inputs, w.length ≤ cap
  announcement : ∀ w ∈ announcementWire inputs, w.length ≤ cap

theorem contents_of_fits {o : Option Bytes} {m : Nat → UInt8} (h : ∀ w ∈ o, w.length ≤ cap) :
    (o.bind ((⟨m, 0⟩ : Buffer UInt8).emit cap)).map contents = o := by
  cases o with
  | none => rfl
  | some w =>
    have hfits : (⟨m, 0⟩ : Buffer UInt8).pos + w.length ≤ cap := by simpa using h w rfl
    rw [bind_some, emit_of_le _ hfits, map_some, contents_put]

theorem Roomy.contents_probe {inputs : ResponseInputs} (h : Roomy cap inputs) (m : Nat → UInt8) :
    (encodeProbeQuery cap m inputs).map contents = probeWire inputs := by
  rw [encodeProbeQuery_wire inputs m h.header]
  exact contents_of_fits h.probe

theorem Roomy.contents_announcement {inputs : ResponseInputs} (h : Roomy cap inputs)
    (m : Nat → UInt8) :
    (encodeAnnouncement cap m inputs).map contents = announcementWire inputs := by
  rw [encodeAnnouncement_wire inputs m h.header]
  exact contents_of_fits h.announcement

/-- The name, the type and the rdata of a record. -/
def ProbeRecord.said (r : ProbeRecord) : Bytes × UInt16 × Bytes := (r.name, r.type, r.rdata)

/-- Both encoders succeed or neither does, and if both do they write the same unique records. -/
def Agrees (cap : Nat) (m m' : Nat → UInt8) (inputs : ResponseInputs) : Prop :=
  ((encodeProbeQuery cap m inputs).isSome ↔ (encodeAnnouncement cap m' inputs).isSome) ∧
  ((encodeAnnouncement cap m' inputs).isSome → ∃ rs, announcedRecords inputs = some rs ∧
    ∀ x, x ∈ rs.map ProbeRecord.said ↔
      x ∈ (buildProposedRecords inputs).map ProbeRecord.said)

/-- The TXT rdata can be written and the host name in 256 bytes; or the instance name cannot
be written, or a host name that an A record needs. -/
def ResponseInputs.Coherent (inputs : ResponseInputs) : Prop :=
  (txtRdata inputs.txtPairs ≠ none ∧
    ∃ h, nameLabels inputs.hostFqdn = some h ∧ (wireName h).length ≤ 256) ∨
  nameLabels inputs.instanceFqdn = none ∨
  inputs.ipv4 ≠ none ∧ nameLabels inputs.hostFqdn = none

section Agreement

variable {inputs : ResponseInputs} {i h : List Label} {txt : Bytes}

theorem announcedRecords_eq (hh : nameLabels inputs.hostFqdn = some h)
    (ht : txtRdata inputs.txtPairs = some txt) :
    announcedRecords inputs = some
      ({ inputs.srvRecord with rdata := inputs.srvFixedRdata ++ wireName h } ::
        inputs.txtRecord txt :: (inputs.ipv4.map inputs.aRecord).toList) := by
  rw [announcedRecords, hh, ht]
  rfl

theorem probeWire_isSome (hi : nameLabels inputs.instanceFqdn = some i) :
    (probeWire inputs).isSome ↔
      inputs.ipv4 = none ∨ (nameLabels inputs.hostFqdn).isSome := by
  have hsrv : nameLabels inputs.srvRecord.name = some i := hi
  have htxt : ∀ txt, nameLabels (inputs.txtRecord txt).name = some i := fun _ => hi
  have ha : ∀ ip, (inputs.aRecord ip).name = inputs.hostFqdn := fun _ => rfl
  rw [probeWire, hi, bind_some, isSome_map, layout_isSome_iff, buildProposedRecords]
  cases txtRdata inputs.txtPairs <;> cases inputs.ipv4 <;> simp [hsrv, htxt, ha]

theorem announcementWire_isSome (hi : nameLabels inputs.instanceFqdn = some i) :
    (announcementWire inputs).isSome ↔
      (nameLabels inputs.hostFqdn).isSome ∧ (txtRdata inputs.txtPairs).isSome := by
  rw [announcementWire, hi, bind_some, isSome_map, announcedRecords]
  cases hh : nameLabels inputs.hostFqdn with
  | none => simp
  | some h =>
    cases htxt : txtRdata inputs.txtPairs with
    | none => simp
    | some txt =>
      have hsrv : nameLabels inputs.srvRecord.name = some i := hi
      have htxt : nameLabels (inputs.txtRecord txt).name = some i := hi
      have ha : ∀ ip, (inputs.aRecord ip).name = inputs.hostFqdn := fun _ => rfl
      simp only [bind_some, map_some, layout_isSome_iff]
      cases inputs.ipv4 <;> simp [hsrv, htxt, ha, hh]

/-- The announced records are the proposed ones if the target fits the scratch buffer. -/
theorem said_iff (hh : nameLabels inputs.hostFqdn = some h)
    (ht : txtRdata inputs.txtPairs = some txt) :
    (∃ rs, announcedRecords inputs = some rs ∧ ∀ x, x ∈ rs.map ProbeRecord.said ↔
      x ∈ (buildProposedRecords inputs).map ProbeRecord.said) ↔ (wireName h).length ≤ 256 := by
  have htarget : nameBytes inputs.hostFqdn =
      if (wireName h).length ≤ 256 then some (wireName h) else none := by
    rw [nameBytes_eq, hh, map_some, filter_some]
    simp only [decide_eq_true_eq]
  rw [announcedRecords_eq hh ht]
  constructor
  · rintro ⟨rs, hrs, hsame⟩
    by_contra hlong
    rw [if_neg hlong] at htarget
    cases hrs
    have hmem := (hsame (inputs.instanceFqdn, typeSrv, inputs.srvFixedRdata ++ wireName h)).mp
      (List.mem_map.mpr ⟨_, List.mem_cons_self, rfl⟩)
    obtain ⟨r, hr, hsaid⟩ := List.mem_map.mp hmem
    have htype : r.type = typeSrv := congrArg (fun x => x.2.1) hsaid
    have hrdata : r.rdata = inputs.srvFixedRdata ++ wireName h := congrArg (fun x => x.2.2) hsaid
    simp only [buildProposedRecords, ht, map_some, toList_some, List.cons_append,
      List.nil_append, List.mem_cons, mem_toList] at hr
    rcases hr with rfl | rfl | ha
    · -- the proposed SRV record has no target
      rw [srvRecord, htarget] at hrdata
      have := congrArg List.length hrdata
      simp [wireName] at this
    · exact absurd htype (by decide : typeTxt ≠ typeSrv)
    · obtain ⟨ip, -, rfl⟩ := Option.map_eq_some_iff.mp ha
      exact absurd htype (by decide : typeA ≠ typeSrv)
  · intro hfits
    rw [if_pos hfits] at htarget
    refine ⟨_, rfl, fun x => ?_⟩
    have hsrv : { inputs.srvRecord with rdata := inputs.srvFixedRdata ++ wireName h } =
        inputs.srvRecord := by
      simp only [srvRecord, htarget, getD_some]
    rw [hsrv, buildProposedRecords, ht]
    rfl

end Agreement

/-- With room for both, the probe lays out the proposed records and the announcement its own,
and they agree exactly for coherent inputs. -/
theorem probe_agrees_iff (inputs : ResponseInputs) {cap : Nat} (m m' : Nat → UInt8)
    (hroom : Roomy cap inputs) :
    (encodeProbeQuery cap m inputs).map Buffer.contents = probeWire inputs ∧
    (encodeAnnouncement cap m' inputs).map Buffer.contents = announcementWire inputs ∧
    (Agrees cap m m' inputs ↔ inputs.Coherent) := by
  have hprobe := hroom.contents_probe m
  have hann := hroom.contents_announcement m'
  refine ⟨hprobe, hann, ?_⟩
  have hprobe : (encodeProbeQuery cap m inputs).isSome = (probeWire inputs).isSome := by
    rw [← hprobe, isSome_map]
  have hann : (encodeAnnouncement cap m' inputs).isSome = (announcementWire inputs).isSome := by
    rw [← hann, isSome_map]
  rw [Agrees, hprobe, hann, Coherent]
  cases hi : nameLabels inputs.instanceFqdn with
  | none => simp [probeWire, announcementWire, hi]
  | some i =>
    rw [probeWire_isSome hi, announcementWire_isSome hi]
    cases hh : nameLabels inputs.hostFqdn with
    | none => simp
    | some h =>
      cases ht : txtRdata inputs.txtPairs with
      | none => simp
      | some txt =>
        rw [said_iff hh ht]
        simp

/-- A host with an ordinary name and a TXT pair. -/
def ordinaryHost : ResponseInputs where
  instanceName := ascii "pc"
  hostName := ascii "pc"
  udpPort := 9876
  txtPairs := [(ascii "udp", ascii "9876")]
  ipv4 := some #v[10, 0, 0, 7]

theorem probe_agrees_ordinaryHost : Agrees 768 (fun _ => 0) (fun _ => 0) ordinaryHost := by
  have hroom : Roomy 768 ordinaryHost :=
    ⟨by decide, by decide +kernel, by decide +kernel⟩
  have hcoherent : ordinaryHost.Coherent := by
    refine .inl ⟨by decide +kernel, hostLabels ⟨ascii "pc", by decide⟩, by decide +kernel, ?_⟩
    decide +kernel
  exact (probe_agrees_iff ordinaryHost (fun _ => 0) (fun _ => 0) hroom).2.2.mpr hcoherent

/-- A host whose name has the 64 bytes a system may give it, and no address. -/
def longHost : ResponseInputs where
  instanceName := ascii "pc"
  hostName := List.replicate 64 97

/-- It probes for an SRV record without a target and cannot announce one. -/
theorem longHost_probes_only :
    Roomy 768 longHost ∧ (encodeProbeQuery 768 (fun _ => 0) longHost).isSome = true ∧
      encodeAnnouncement 768 (fun _ => 0) longHost = none := by
  have hroom : Roomy 768 longHost := ⟨by decide, by decide +kernel, by decide +kernel⟩
  refine ⟨hroom, ?_, ?_⟩
  · rw [encodeProbeQuery_wire longHost _ hroom.header]
    decide +kernel
  · rw [encodeAnnouncement_wire longHost _ hroom.header]
    decide +kernel

end Satellite.Mdns
