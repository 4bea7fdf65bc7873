import Satellite.Mdns.Packets

/-!
# What is written is what is read

A resource record in its own terms, with the bytes it takes in a packet. The writers write
exactly the bytes of the records they are asked for, wherever those fit; the reader gets a
record back from its bytes, with as much of the rdata as 16 bits of length can count.
-/

namespace Satellite.Mdns

open List Buffer Option

/-! ## One record -/

structure Rr where
  labels : List Label
  shallow : labels.length < 64
  type : UInt16
  cls : UInt16
  ttl : UInt32
  rdata : Bytes

namespace Rr

def fixed (r : Rr) : Bytes := writeBE16 r.type ++ writeBE16 r.cls ++ writeBE32 r.ttl

def wire (r : Rr) : Bytes :=
  (wireName r.labels ++ r.fixed) ++ (writeBE16 (UInt16.ofNat r.rdata.length) ++ r.rdata)

/-- What the answer section keeps of the record. -/
def answer (r : Rr) : Answer := ⟨dotted r.labels, r.type, r.cls &&& ~~~cacheFlushBit, r.ttl⟩

/-- What the authority section keeps of the record. -/
def record (r : Rr) : ProbeRecord :=
  ⟨dotted r.labels, r.type, r.cls &&& ~~~cacheFlushBit, r.ttl, r.rdata⟩

@[simp] theorem length_fixed (r : Rr) : r.fixed.length = 8 := rfl

theorem length_wire (r : Rr) :
    r.wire.length = (wireName r.labels).length + 10 + r.rdata.length := by
  simp only [wire, length_append, length_fixed, length_writeBE16]
  omega

end Rr

/-- The bytes of a record whose name takes the bytes `n`. -/
def rrWire (n : Bytes) (type cls : UInt16) (ttl : UInt32) (rdata : Bytes) : Bytes :=
  (n ++ (writeBE16 type ++ writeBE16 cls ++ writeBE32 ttl)) ++
    (writeBE16 (UInt16.ofNat rdata.length) ++ rdata)

theorem length_rrWire (n : Bytes) (type cls : UInt16) (ttl : UInt32) (rdata : Bytes) :
    (rrWire n type cls ttl rdata).length = n.length + 10 + rdata.length := by
  simp only [rrWire, length_append, length_writeBE16, length_writeBE32]
  omega

section Writing

variable {cap : Nat} {b : Buffer UInt8} {name n rdata : Bytes} {type cls : UInt16} {ttl : UInt32}

/-- Filling in the length turns the placeholder into the record's bytes. -/
theorem finalizeRr_put (b : Buffer UInt8) (n rdata : Bytes) (type cls : UInt16) (ttl : UInt32) :
    finalizeRr (((b.put n).put
      (writeBE16 type ++ writeBE16 cls ++ writeBE32 ttl ++ writeBE16 0)).put rdata)
      ((b.put n).pos + 8) = b.put (rrWire n type cls ttl rdata) := by
  have hshape : n ++ (writeBE16 type ++ writeBE16 cls ++ writeBE32 ttl ++ writeBE16 0 ++ rdata) =
      (n ++ (writeBE16 type ++ writeBE16 cls ++ writeBE32 ttl)) ++ (writeBE16 0 ++ rdata) := by
    simp only [append_assoc]
  have hoffset : (b.put n).pos + 8 =
      b.pos + (n ++ (writeBE16 type ++ writeBE16 cls ++ writeBE32 ttl)).length := by
    simp only [put_pos, length_append, length_writeBE16, length_writeBE32]
    omega
  have hcount : b.pos + ((n ++ (writeBE16 type ++ writeBE16 cls ++ writeBE32 ttl)) ++
      (writeBE16 0 ++ rdata)).length -
      (b.pos + (n ++ (writeBE16 type ++ writeBE16 cls ++ writeBE32 ttl)).length + 2) =
        rdata.length := by
    simp only [length_append, length_writeBE16, length_writeBE32]
    omega
  rw [put_put, put_put, hshape, hoffset, finalizeRr, put_pos, hcount]
  exact put_patch b _ _ _ _ rfl

/-- A record whose name and rdata are written as `n` and `rdata` is written as its bytes, if
there is room. -/
theorem writeRr_emit {body : Buffer UInt8 → Option (Buffer UInt8)}
    (hname : writeDnsName cap b name = b.emit cap n)
    (hbody : ∀ c, c.pos ≤ cap → body c = c.emit cap rdata) :
    writeRr cap b name type cls ttl body = b.emit cap (rrWire n type cls ttl rdata) := by
  have hlen := length_rrWire n type cls ttl rdata
  have hten : (writeBE16 type ++ writeBE16 cls ++ writeBE32 ttl ++ writeBE16 0).length = 10 := rfl
  unfold writeRr writeRrHeader
  rw [hname]
  by_cases hname : b.pos + n.length ≤ cap
  swap
  · rw [emit_of_gt (by omega), emit_of_gt (by omega)]
    rfl
  rw [emit_of_le _ hname, bind_some]
  by_cases hfixed : b.pos + n.length + 10 ≤ cap
  swap
  · rw [emit_of_gt (by rw [put_pos, hten]; omega), emit_of_gt (by omega)]
    rfl
  rw [emit_of_le _ (by rwa [put_pos, hten]), map_some, bind_some]
  dsimp only
  rw [hbody _ (by rwa [put_pos, put_pos, hten])]
  by_cases hall : b.pos + (rrWire n type cls ttl rdata).length ≤ cap
  swap
  · rw [emit_of_gt (by simp only [put_pos, hten]; omega),
      emit_of_gt (by omega)]
    rfl
  rw [emit_of_le _ (by simp only [put_pos, hten]; omega), emit_of_le _ hall,
    map_some, finalizeRr_put]

/-- A record whose rdata the body writes is written as its bytes, if there is room. -/
theorem writeRr_eq_emit (r : Rr) {body : Buffer UInt8 → Option (Buffer UInt8)}
    (hbody : ∀ c, c.pos ≤ cap → body c = c.emit cap r.rdata) (hb : b.pos ≤ cap) :
    writeRr cap b (dotted r.labels) r.type r.cls r.ttl body = b.emit cap r.wire :=
  writeRr_emit (writeDnsName_dotted _ hb) hbody

end Writing

variable {packet : Bytes} {pos : Nat}

/-- The length that is read is what 16 bits kept of the length that was written. -/
theorem parseRr_of_carries (r : Rr) (h : Carries packet pos r.wire) :
    parseRr packet pos =
      some (r.answer, pos + (wireName r.labels).length + 10, r.rdata.length % 65536) := by
  have hle := h.le
  rw [r.length_wire] at hle
  have hname := readDnsName_wireName r.shallow h.left.left
  have htype := readBE16_of_carries h.left.right.left.left
  have hcls := readBE16_of_carries h.left.right.left.right
  have httl := readBE32_of_carries h.left.right.right
  have hlen := readBE16_of_carries h.right.left
  rw [length_append, Rr.length_fixed, ← Nat.add_assoc] at hlen
  rw [parseRr, hname, bind_some]
  simp only [htype, hlen, UInt16.toNat_ofNat', Nat.reducePow]
  rw [if_neg (by omega), if_neg (by omega)]
  simp only [length_writeBE16, length_append] at hcls httl
  rw [hcls, httl]
  rfl

theorem Rr.carries_rdata {r : Rr} (h : Carries packet pos r.wire) :
    Carries packet (pos + (wireName r.labels).length + 10) r.rdata := by
  have hrdata := h.right.right
  have hpos : pos + (wireName r.labels ++ r.fixed).length + 2 =
      pos + (wireName r.labels).length + 10 := by
    rw [length_append, length_fixed]
    omega
  rwa [length_writeBE16, hpos] at hrdata

theorem parseAnswer_of_carries (r : Rr) (hr : r.rdata.length < 65536)
    (h : Carries packet pos r.wire) :
    parseAnswer packet pos = some (r.answer, pos + r.wire.length) := by
  rw [parseAnswer, parseRr_of_carries r h, map_some, Nat.mod_eq_of_lt hr, r.length_wire]
  simp only [Nat.add_assoc]

theorem nameBytes_dotted {ls : List Label} (h : (wireName ls).length ≤ 256) :
    nameBytes (dotted ls) = some (wireName ls) := by
  rw [nameBytes, writeDnsName_dotted ls (Nat.zero_le _), emit_of_le _ (by simpa using h),
    map_some, contents_put]

theorem expandName_of_carries {ls : List Label} (hls : ls.length < 64)
    (h : (wireName ls).length ≤ 256) (hc : Carries packet pos (wireName ls)) :
    expandName packet pos = some (wireName ls) := by
  rw [expandName, readDnsName_wireName hls hc, bind_some]
  exact nameBytes_dotted h

/-- Rdata that the authority section keeps as it is: no name in it, or the name of an SRV
record written out. -/
def Rr.Canonical (r : Rr) : Prop :=
  r.type ≠ typePtr ∧ (r.type = typeSrv → ∃ fixed target, r.rdata = fixed ++ wireName target ∧
    fixed.length = 6 ∧ target.length < 64 ∧ (wireName target).length ≤ 256)

theorem canonicalizeAuthorityRdata_of_carries (r : Rr) (hr : r.Canonical)
    (h : Carries packet pos r.rdata) :
    canonicalizeAuthorityRdata packet r.type pos r.rdata.length = some r.rdata := by
  unfold canonicalizeAuthorityRdata
  by_cases hsrv : r.type = typeSrv
  · obtain ⟨fixed, target, hrdata, hsix, hshallow, hfits⟩ := hr.2 hsrv
    rw [hrdata] at h ⊢
    have hname := expandName_of_carries hshallow hfits h.right
    have htake : (packet.drop pos).take 6 = fixed := by
      rw [← hsix, h.left.take_drop (Nat.le_refl _), take_length]
    rw [hsix] at hname
    rw [if_pos hsrv, if_neg (by simp only [length_append]; omega), hname, htake]
    rfl
  · rw [if_neg hsrv, if_neg hr.1, h.take_drop (Nat.le_refl _), take_length]

theorem parseAuthorityRecord_of_carries (r : Rr) (hr : r.Canonical) (hlen : r.rdata.length < 65536)
    (h : Carries packet pos r.wire) :
    parseAuthorityRecord packet pos = some (r.record, pos + r.wire.length) := by
  have hcanon := canonicalizeAuthorityRdata_of_carries r hr (Rr.carries_rdata h)
  rw [parseAuthorityRecord, parseRr_of_carries r h, bind_some, Nat.mod_eq_of_lt hlen]
  change (canonicalizeAuthorityRdata packet r.type _ _).map _ = _
  rw [hcanon, map_some, r.length_wire]
  simp only [Nat.add_assoc]
  rfl

/-! ## A packet -/

structure Asked where
  labels : List Label
  shallow : labels.length < 64
  type : UInt16
  cls : UInt16

namespace Asked

def wire (q : Asked) : Bytes := wireName q.labels ++ (writeBE16 q.type ++ writeBE16 q.cls)

def question (q : Asked) : Question :=
  ⟨dotted q.labels, q.type, q.cls &&& ~~~cacheFlushBit, q.cls &&& cacheFlushBit != 0⟩

end Asked

theorem parseQuestion_of_carries (q : Asked) (h : Carries packet pos q.wire) :
    parseQuestion packet pos = some (q.question, pos + q.wire.length) := by
  have hle := h.le
  have hlen : q.wire.length = (wireName q.labels).length + 4 := by
    simp [Asked.wire]
  have hname := readDnsName_wireName q.shallow h.left
  have htype := readBE16_of_carries h.right.left
  have hcls := readBE16_of_carries h.right.right
  rw [length_writeBE16] at hcls
  rw [parseQuestion, hname, bind_some]
  simp only [htype, hcls]
  rw [if_neg (by omega), hlen, ← Nat.add_assoc]
  rfl

theorem readHeader_of_carries {h : Header} (hc : Carries packet 0 (writeHeader h)) :
    readHeader packet = h := by
  have h0 := readBE16_of_carries hc.left.left.left.left.left
  have h1 := readBE16_of_carries hc.left.left.left.left.right
  have h2 := readBE16_of_carries hc.left.left.left.right
  have h3 := readBE16_of_carries hc.left.left.right
  have h4 := readBE16_of_carries hc.left.right
  have h5 := readBE16_of_carries hc.right
  simp only [length_append, length_writeBE16, Nat.zero_add, Nat.reduceAdd] at h1 h2 h3 h4 h5
  rw [readHeader, h0, h1, h2, h3, h4, h5]

/-- A packet in its own terms. -/
structure Message where
  header : Header
  asked : List Asked
  answers : List Rr
  authority : List Rr

namespace Message

def wire (x : Message) : Bytes :=
  writeHeader x.header ++ (x.asked.flatMap Asked.wire ++
    (x.answers.flatMap Rr.wire ++ x.authority.flatMap Rr.wire))

/-- The header counts what follows, and every record can be read back. -/
structure Sound (x : Message) : Prop where
  asked : x.header.qdCount.toNat = x.asked.length
  answers : x.header.anCount.toNat = x.answers.length
  authority : x.header.nsCount.toNat = x.authority.length
  fits : ∀ r ∈ x.answers ++ x.authority, r.rdata.length < 65536
  canonical : ∀ r ∈ x.authority, r.Canonical

/-- No record is longer than its message. -/
theorem length_rdata_le {x : Message} {r : Rr} (hr : r ∈ x.answers ++ x.authority) :
    r.rdata.length ≤ x.wire.length := by
  have hwire : r.wire.length ≤ ((x.answers ++ x.authority).flatMap Rr.wire).length := by
    obtain ⟨before, after, hsplit⟩ := append_of_mem hr
    rw [hsplit, flatMap_append, flatMap_cons, length_append, length_append]
    omega
  rw [Rr.length_wire, flatMap_append] at hwire
  simp only [wire, length_append] at hwire ⊢
  omega

def parsed (x : Message) : Packet where
  header := x.header
  questions := x.asked.map Asked.question
  knownAnswers := x.answers.map Rr.answer
  authority := x.authority.map Rr.record

end Message

theorem length_writeHeader (h : Header) : (writeHeader h).length = 12 := rfl

theorem parseHeaderAndQuestions_of_carries {h : Header} {qs : List Asked}
    (hq : h.qdCount.toNat = qs.length)
    (hc : Carries packet 0 (writeHeader h ++ qs.flatMap Asked.wire)) :
    parseHeaderAndQuestions packet =
      some (h, qs.map Asked.question, 12 + (qs.flatMap Asked.wire).length) := by
  have hle := hc.le
  rw [length_append, length_writeHeader] at hle
  have hmany := readMany_of_carries (parseQuestion packet) qs
    (fun q _ pos hq => parseQuestion_of_carries q hq) hc.right
  rw [length_writeHeader, Nat.zero_add] at hmany
  rw [parseHeaderAndQuestions, if_neg (by omega), readHeader_of_carries hc.left]
  simp only [hq, hmany, map_some]

theorem Message.carries_head (x : Message) :
    Carries x.wire 0 (writeHeader x.header ++ x.asked.flatMap Asked.wire) := by
  have hc : Carries x.wire 0 x.wire := Carries.whole _
  unfold Message.wire at hc
  rw [← append_assoc] at hc
  exact hc.left

/-- Reading a packet gives back its questions and records in order. -/
theorem parsePacket_wire {x : Message} (hx : x.Sound) : parsePacket x.wire = some x.parsed := by
  have hc : Carries x.wire 0 x.wire := Carries.whole _
  have hrecords := hc.right.right
  rw [length_writeHeader, Nat.zero_add] at hrecords
  have hanswers := readMany_of_carries (parseAnswer x.wire) x.answers
    (fun r hr pos h => parseAnswer_of_carries r
      (hx.fits r (mem_append_left _ hr)) h) hrecords.left
  have hauthority := readMany_of_carries (parseAuthorityRecord x.wire) x.authority
    (fun r hr pos h => parseAuthorityRecord_of_carries r (hx.canonical r hr)
      (hx.fits r (mem_append_right _ hr)) h) hrecords.right
  rw [parsePacket, parseHeaderAndQuestions_of_carries hx.asked x.carries_head]
  simp only [bind_some, parseAnswerSection, hx.answers, hanswers, hx.authority, hauthority,
    map_some]
  rfl

end Satellite.Mdns
