import Satellite.Mdns.Wire

/-!
# Packets

The reader and the writers of `mdns_protocol.cpp`. `parsePacket` walks header, questions,
answers and, for a probe, the authority section, whose rdata it keeps with names written out.
`encodeResponse`, `encodeAnnouncement` and `encodeProbeQuery` write into a buffer of a given
capacity; a record's length field is written as a placeholder and filled in after its rdata.
-/

namespace Satellite.Mdns

def serviceTypeDomain : Bytes := ascii "_satellite._udp.local."

def typeA : UInt16 := 0x0001
def typePtr : UInt16 := 0x000C
def typeTxt : UInt16 := 0x0010
def typeSrv : UInt16 := 0x0021
def typeAny : UInt16 := 0x00FF

def classIn : UInt16 := 0x0001
def cacheFlushBit : UInt16 := 0x8000

def ttlService : UInt32 := 120
def ttlHost : UInt32 := 4500

structure Header where
  id : UInt16
  flags : UInt16
  qdCount : UInt16
  anCount : UInt16
  nsCount : UInt16
  arCount : UInt16
  deriving DecidableEq

structure Question where
  name : Bytes
  type : UInt16
  cls : UInt16
  /-- The QU bit, the high bit of the class. -/
  unicastResponse : Bool
  deriving DecidableEq

/-- What is kept of an answer: the rdata is skipped. -/
structure Answer where
  name : Bytes
  type : UInt16
  cls : UInt16
  ttl : UInt32
  deriving DecidableEq

structure ProbeRecord where
  name : Bytes
  type : UInt16
  cls : UInt16
  ttl : UInt32
  rdata : Bytes
  deriving DecidableEq

/-! ## Reading -/

def readHeader (packet : Bytes) : Header where
  id := readBE16 packet 0
  flags := readBE16 packet 2
  qdCount := readBE16 packet 4
  anCount := readBE16 packet 6
  nsCount := readBE16 packet 8
  arCount := readBE16 packet 10

def parseQuestion (packet : Bytes) (pos : Nat) : Option (Question × Nat) :=
  (readDnsName packet pos).bind fun (name, consumed) =>
    let pos := pos + consumed
    if pos + 4 > packet.length then none
    else
      let rawClass := readBE16 packet (pos + 2)
      some ({ name, type := readBE16 packet pos, cls := rawClass &&& ~~~cacheFlushBit
              unicastResponse := rawClass &&& cacheFlushBit != 0 }, pos + 4)

def parseHeaderAndQuestions (packet : Bytes) : Option (Header × List Question × Nat) :=
  if packet.length < 12 then none
  else
    let header := readHeader packet
    (readMany (parseQuestion packet) header.qdCount.toNat 12).map fun (questions, pos) =>
      (header, questions, pos)

/-- What the answer and the authority section read of a record: its identity, where its
rdata starts and how long it is. -/
def parseRr (packet : Bytes) (pos : Nat) : Option (Answer × Nat × Nat) :=
  (readDnsName packet pos).bind fun (name, consumed) =>
    let pos := pos + consumed
    if pos + 10 > packet.length then none
    else
      let rdlen := (readBE16 packet (pos + 8)).toNat
      if pos + 10 + rdlen > packet.length then none
      else
        some ({ name, type := readBE16 packet pos
                cls := readBE16 packet (pos + 2) &&& ~~~cacheFlushBit
                ttl := readBE32 packet (pos + 4) }, pos + 10, rdlen)

def parseAnswer (packet : Bytes) (pos : Nat) : Option (Answer × Nat) :=
  (parseRr packet pos).map fun (a, start, rdlen) => (a, start + rdlen)

def parseAnswerSection (packet : Bytes) (count : UInt16) (pos : Nat) :
    Option (List Answer × Nat) :=
  readMany (parseAnswer packet) count.toNat pos

/-- A name in a scratch buffer of 256 bytes. -/
def nameBytes (name : Bytes) : Option Bytes :=
  (writeDnsName 256 ⟨fun _ => 0, 0⟩ name).map Buffer.contents

/-- A name in the packet, decompressed. -/
def expandName (packet : Bytes) (pos : Nat) : Option Bytes :=
  (readDnsName packet pos).bind fun (target, _) => nameBytes target

def canonicalizeAuthorityRdata (packet : Bytes) (type : UInt16) (rdataStart rdlen : Nat) :
    Option Bytes :=
  if type = typeSrv then
    if rdlen < 6 then none
    else (expandName packet (rdataStart + 6)).map fun target =>
      (packet.drop rdataStart).take 6 ++ target
  else if type = typePtr then expandName packet rdataStart
  else some ((packet.drop rdataStart).take rdlen)

def parseAuthorityRecord (packet : Bytes) (pos : Nat) : Option (ProbeRecord × Nat) :=
  (parseRr packet pos).bind fun (a, start, rdlen) =>
    (canonicalizeAuthorityRdata packet a.type start rdlen).map fun rdata =>
      ({ name := a.name, type := a.type, cls := a.cls, ttl := a.ttl, rdata }, start + rdlen)

/-- `parsePacket` with the known answers. -/
def parseQuery (packet : Bytes) : Option (Header × List Question × List Answer) :=
  (parseHeaderAndQuestions packet).bind fun (header, questions, pos) =>
    (parseAnswerSection packet header.anCount pos).map fun (knownAnswers, _) =>
      (header, questions, knownAnswers)

structure Packet where
  header : Header
  questions : List Question
  knownAnswers : List Answer
  authority : List ProbeRecord
  deriving DecidableEq

/-- `parsePacket` with the known answers and the authority section. -/
def parsePacket (packet : Bytes) : Option Packet :=
  (parseHeaderAndQuestions packet).bind fun (header, questions, pos) =>
    (parseAnswerSection packet header.anCount pos).bind fun (knownAnswers, pos) =>
      (readMany (parseAuthorityRecord packet) header.nsCount.toNat pos).map fun (authority, _) =>
        { header, questions, knownAnswers, authority }

/-! ## Writing -/

/-- The name, the fixed fields and a placeholder for the length, whose offset is answered. -/
def writeRrHeader (cap : Nat) (b : Buffer UInt8) (name : Bytes) (type cls : UInt16)
    (ttl : UInt32) : Option (Buffer UInt8 × Nat) :=
  (writeDnsName cap b name).bind fun b =>
    (b.emit cap (writeBE16 type ++ writeBE16 cls ++ writeBE32 ttl ++ writeBE16 0)).map
      fun c => (c, b.pos + 8)

/-- The length goes into 16 bits. -/
def finalizeRr (b : Buffer UInt8) (rdlenOffset : Nat) : Buffer UInt8 :=
  b.patch rdlenOffset (writeBE16 (UInt16.ofNat (b.pos - (rdlenOffset + 2))))

/-- Header, rdata and then the length: the course of every record writer. -/
def writeRr (cap : Nat) (b : Buffer UInt8) (name : Bytes) (type cls : UInt16) (ttl : UInt32)
    (body : Buffer UInt8 → Option (Buffer UInt8)) : Option (Buffer UInt8) :=
  (writeRrHeader cap b name type cls ttl).bind fun (b, rdlenOffset) =>
    (body b).map fun b => finalizeRr b rdlenOffset

structure ResponseInputs where
  instanceName : Bytes
  hostName : Bytes
  udpPort : UInt16 := 0
  weight : UInt16 := 0
  priority : UInt16 := 0
  txtPairs : List (Bytes × Bytes) := []
  ipv4 : Option (Vector UInt8 4) := none
  goodbye : Bool := false
  suppressPtr : Bool := false
  suppressSrv : Bool := false
  suppressTxt : Bool := false
  suppressA : Bool := false
  deriving DecidableEq

def instanceFqdnOf (instanceName : Bytes) : Bytes := instanceName ++ ascii "." ++ serviceTypeDomain

def hostFqdnOf (hostName : Bytes) : Bytes := hostName ++ ascii ".local."

namespace ResponseInputs

variable (inputs : ResponseInputs)

def instanceFqdn : Bytes := instanceFqdnOf inputs.instanceName

def hostFqdn : Bytes := hostFqdnOf inputs.hostName

def srvFixedRdata : Bytes :=
  writeBE16 inputs.priority ++ writeBE16 inputs.weight ++ writeBE16 inputs.udpPort

end ResponseInputs

def txtEntry (pair : Bytes × Bytes) : Bytes := pair.1 ++ ascii "=" ++ pair.2

def txtEntries : List (Bytes × Bytes) → Option Bytes
  | [] => some []
  | pair :: pairs =>
    if (txtEntry pair).length > 255 then none
    else (txtEntries pairs).map fun rest =>
      UInt8.ofNat (txtEntry pair).length :: (txtEntry pair ++ rest)

/-- An empty TXT is a single empty string. -/
def txtRdata (pairs : List (Bytes × Bytes)) : Option Bytes :=
  if pairs = [] then some [0] else txtEntries pairs

def writePtrRecord (cap : Nat) (inputs : ResponseInputs) (ttl : UInt32) (b : Buffer UInt8) :
    Option (Buffer UInt8) :=
  writeRr cap b serviceTypeDomain typePtr classIn ttl fun b =>
    writeDnsName cap b inputs.instanceFqdn

def writeSrvRecord (cap : Nat) (inputs : ResponseInputs) (ttl : UInt32) (b : Buffer UInt8) :
    Option (Buffer UInt8) :=
  writeRr cap b inputs.instanceFqdn typeSrv (classIn ||| cacheFlushBit) ttl fun b =>
    (b.emit cap inputs.srvFixedRdata).bind fun b => writeDnsName cap b inputs.hostFqdn

def writeTxtRecord (cap : Nat) (inputs : ResponseInputs) (ttl : UInt32) (b : Buffer UInt8) :
    Option (Buffer UInt8) :=
  writeRr cap b inputs.instanceFqdn typeTxt (classIn ||| cacheFlushBit) ttl fun b =>
    (txtRdata inputs.txtPairs).bind fun txt => b.emit cap txt

def writeARecord (cap : Nat) (inputs : ResponseInputs) (ip : Vector UInt8 4) (ttl : UInt32)
    (b : Buffer UInt8) : Option (Buffer UInt8) :=
  writeRr cap b inputs.hostFqdn typeA (classIn ||| cacheFlushBit) ttl fun b =>
    b.emit cap ip.toList

def writeHeader (h : Header) : Bytes :=
  writeBE16 h.id ++ writeBE16 h.flags ++ writeBE16 h.qdCount ++ writeBE16 h.anCount ++
    writeBE16 h.nsCount ++ writeBE16 h.arCount

/-- A record that is written only when it is wanted. -/
def writeIf (wanted : Bool) (write : Buffer UInt8 → Option (Buffer UInt8)) (b : Buffer UInt8) :
    Option (Buffer UInt8) :=
  if wanted then write b else some b

namespace ResponseInputs

variable (inputs : ResponseInputs)

def emitPtr : Bool := !inputs.suppressPtr

def emitSrv : Bool := !inputs.suppressSrv

def emitTxt : Bool := !inputs.suppressTxt

/-- The address that goes into the A record, if there is to be one. -/
def emitA : Option (Vector UInt8 4) := if inputs.suppressA then none else inputs.ipv4

def answerCount : Nat :=
  inputs.emitPtr.toNat + inputs.emitSrv.toNat + inputs.emitTxt.toNat + inputs.emitA.isSome.toNat

def recordTtl (ttl : UInt32) : UInt32 := if inputs.goodbye then 0 else ttl

end ResponseInputs

def responseHeader (txId : UInt16) (inputs : ResponseInputs) : Header where
  id := txId
  flags := 0x8400
  qdCount := 0
  anCount := UInt16.ofNat inputs.answerCount
  nsCount := 0
  arCount := 0

/-- `encodeResponse` into the memory `m`; `none` is the answer 0. -/
def encodeResponse (cap : Nat) (m : Nat → UInt8) (txId : UInt16) (inputs : ResponseInputs) :
    Option (Buffer UInt8) :=
  if cap < 12 then none
  else if UInt16.ofNat inputs.answerCount = 0 then none
  else
    (writeIf inputs.emitPtr (writePtrRecord cap inputs (inputs.recordTtl ttlService))
      ((⟨m, 0⟩ : Buffer UInt8).put (writeHeader (responseHeader txId inputs)))).bind fun b =>
    (writeIf inputs.emitSrv (writeSrvRecord cap inputs (inputs.recordTtl ttlHost)) b).bind fun b =>
    (writeIf inputs.emitTxt (writeTxtRecord cap inputs (inputs.recordTtl ttlHost)) b).bind fun b =>
    match inputs.emitA with
    | none => some b
    | some ip => writeARecord cap inputs ip (inputs.recordTtl ttlHost) b

def ResponseInputs.announced (inputs : ResponseInputs) : ResponseInputs :=
  { inputs with
    goodbye := false, suppressPtr := false, suppressSrv := false, suppressTxt := false
    suppressA := false }

def encodeAnnouncement (cap : Nat) (m : Nat → UInt8) (inputs : ResponseInputs) :
    Option (Buffer UInt8) :=
  encodeResponse cap m 0 inputs.announced

def writeAuthorityRecord (cap : Nat) (r : ProbeRecord) (b : Buffer UInt8) :
    Option (Buffer UInt8) :=
  writeRr cap b r.name r.type classIn r.ttl fun b => b.emit cap r.rdata

def writeAuthority (cap : Nat) : List ProbeRecord → Buffer UInt8 → Option (Buffer UInt8)
  | [], b => some b
  | r :: rs, b => (writeAuthorityRecord cap r b).bind fun b => writeAuthority cap rs b

namespace ResponseInputs

variable (inputs : ResponseInputs)

def srvRecord : ProbeRecord where
  name := inputs.instanceFqdn
  type := typeSrv
  cls := classIn
  ttl := ttlHost
  -- a host name that cannot be written leaves the target out
  rdata := inputs.srvFixedRdata ++ (nameBytes inputs.hostFqdn).getD []

def txtRecord (rdata : Bytes) : ProbeRecord where
  name := inputs.instanceFqdn
  type := typeTxt
  cls := classIn
  ttl := ttlHost
  rdata := rdata

def aRecord (ip : Vector UInt8 4) : ProbeRecord where
  name := inputs.hostFqdn
  type := typeA
  cls := classIn
  ttl := ttlHost
  rdata := ip.toList

end ResponseInputs

def buildProposedRecords (inputs : ResponseInputs) : List ProbeRecord :=
  inputs.srvRecord :: ((txtRdata inputs.txtPairs).map inputs.txtRecord).toList ++
    (inputs.ipv4.map inputs.aRecord).toList

def probeHeader (proposed : List ProbeRecord) : Header where
  id := 0
  flags := 0
  qdCount := 1
  anCount := 0
  nsCount := UInt16.ofNat proposed.length
  arCount := 0

def encodeProbeQuery (cap : Nat) (m : Nat → UInt8) (inputs : ResponseInputs) :
    Option (Buffer UInt8) :=
  if cap < 12 then none
  else if buildProposedRecords inputs = [] then none
  else
    (writeDnsName cap
      ((⟨m, 0⟩ : Buffer UInt8).put (writeHeader (probeHeader (buildProposedRecords inputs))))
      inputs.instanceFqdn).bind fun b =>
    (b.emit cap (writeBE16 typeAny ++ writeBE16 (classIn ||| cacheFlushBit))).bind fun b =>
    writeAuthority cap (buildProposedRecords inputs) b

end Satellite.Mdns
