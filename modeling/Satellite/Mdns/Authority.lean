import Satellite.Mdns.Bounds
import Satellite.Mdns.Names

/-!
# Names inside authority records

The rdata of an SRV or PTR record in the authority section is kept with its name written out.
The name is read against the whole packet and not against the record, so it may lie partly or
wholly past the record's end; and it is written out again from its dotted form, so a label that
holds a dot comes back as several. Where every label is free of dots, what is kept is the fixed
bytes and the uncompressed wire form of the labels read.
-/

namespace Satellite.Mdns

open List

/-! ## The labels of a name in a packet -/

variable {packet : Bytes}

/-- The labels a name decodes to, pointers followed. -/
def labelsAt (packet : Bytes) : Nat → Nat → Option (List Bytes)
  | 0, _ => none
  | safety + 1, pos =>
    (packet[pos]?).bind fun b =>
      if b = 0 then some []
      else if b &&& 0xC0 = 0xC0 then
        let target := (b &&& 0x3F).toNat * 256 + (byteAt packet (pos + 1)).toNat
        if pos + 1 ≥ packet.length ∨ target ≥ packet.length ∨ target ≥ pos then none
        else labelsAt packet safety target
      else if b &&& 0xC0 ≠ 0 ∨ pos + 1 + b.toNat > packet.length then none
      else (labelsAt packet safety (pos + 1 + b.toNat)).map
        ((packet.drop (pos + 1)).take b.toNat :: ·)

/-- Where the part of a name that stands in line ends: after its terminator, or after its
first pointer. -/
def inlineEnd (packet : Bytes) : Nat → Nat → Option Nat
  | 0, _ => none
  | safety + 1, pos =>
    (packet[pos]?).bind fun b =>
      if b = 0 then some (pos + 1)
      else if b &&& 0xC0 = 0xC0 then some (pos + 2)
      else inlineEnd packet safety (pos + 1 + b.toNat)

def joined (ls : List Bytes) : Bytes := ls.flatMap (· ++ [dot])

/-- The wire form of labels with any bytes in them. -/
def rawWire (ls : List Bytes) : Bytes := (ls.flatMap fun l => UInt8.ofNat l.length :: l) ++ [0]

variable {pos : Nat} {r : Bytes × Nat}

/-- The dotted name that was read is that of the labels. -/
theorem readLabels_labelsAt {offset : Nat} (safety : Nat) {jumped : Option Nat}
    {name : Bytes}
    (h : readLabels packet offset safety pos jumped name = some r) :
    ∃ ls, labelsAt packet safety pos = some ls ∧ r.1 = name ++ joined ls := by
  induction safety generalizing pos jumped name with
  | zero => cases h
  | succ safety ih =>
    cases readLabels_round h with
    | stop hget hr =>
      refine ⟨[], ?_, ?_⟩
      · rw [labelsAt, hget]
        rfl
      · rw [hr]
        exact (append_nil name).symm
    | jump b target hget hzero hptr hlow htarget hback hin hr =>
      obtain ⟨ls, hls, hname⟩ := ih hr
      refine ⟨ls, ?_, hname⟩
      rw [labelsAt, hget, Option.bind_some, if_neg hzero, if_pos hptr, ← htarget]
      rw [if_neg (by omega), hls]
    | label b hget hzero hbits hin hr =>
      obtain ⟨ls, hls, hname⟩ := ih hr
      refine ⟨(packet.drop (pos + 1)).take b.toNat :: ls, ?_, ?_⟩
      · have hptr : ¬ b &&& 0xC0 = 0xC0 := by
          rw [hbits]
          decide
        have hok : ¬ (b &&& 0xC0 ≠ 0 ∨ pos + 1 + b.toNat > packet.length) := by
          rw [hbits]
          simpa using hin
        rw [labelsAt, hget, Option.bind_some, if_neg hzero, if_neg hptr, if_neg hok, hls]
        rfl
      · rw [hname]
        simp [joined]

/-- What was consumed is settled at the first jump. -/
theorem readLabels_jumped {offset : Nat} (safety : Nat) {n : Nat} {name : Bytes}
    (h : readLabels packet offset safety pos (some n) name = some r) :
    r.2 = n := by
  induction safety generalizing pos name with
  | zero => cases h
  | succ safety ih =>
    cases readLabels_round h with
    | stop hget hr => rw [hr, Option.getD_some]
    | jump b target hget hzero hptr hlow htarget hback hin hr => exact ih hr
    | label b hget hzero hbits hin hr => exact ih hr

/-- What was consumed is what stands in line. -/
theorem readLabels_inlineEnd {offset : Nat} (safety : Nat) {name : Bytes}
    (hpos : offset ≤ pos)
    (h : readLabels packet offset safety pos none name = some r) :
    inlineEnd packet safety pos = some (offset + r.2) := by
  induction safety generalizing pos name with
  | zero => cases h
  | succ safety ih =>
    cases readLabels_round h with
    | stop hget hr =>
      rw [inlineEnd, hget, hr]
      simp only [Option.bind_some, if_true, Option.getD_none, Option.some.injEq]
      omega
    | jump b target hget hzero hptr hlow htarget hback hin hr =>
      rw [inlineEnd, hget, Option.bind_some, if_neg hzero, if_pos hptr, readLabels_jumped safety hr,
        Option.getD_none, Option.some.injEq]
      omega
    | label b hget hzero hbits hin hr =>
      have hptr : ¬ b &&& 0xC0 = 0xC0 := by
        rw [hbits]
        decide
      rw [inlineEnd, hget, Option.bind_some, if_neg hzero, if_neg hptr]
      exact ih (by omega) hr

variable {ls : List Bytes}

/-- Labels that were read are neither empty nor longer than 63 bytes. -/
theorem length_of_labelsAt (safety : Nat)
    (h : labelsAt packet safety pos = some ls) : ∀ l ∈ ls, 0 < l.length ∧ l.length ≤ 63 := by
  have hbyte : ∀ n : Fin 256, UInt8.ofNat n ≠ 0 → UInt8.ofNat n &&& 0xC0 = 0 →
      0 < (UInt8.ofNat n).toNat ∧ (UInt8.ofNat n).toNat ≤ 63 := by decide +kernel
  induction safety generalizing pos ls with
  | zero => cases h
  | succ safety ih =>
    rw [labelsAt] at h
    obtain ⟨b, hget, h⟩ := Option.bind_eq_some_iff.mp h
    split at h
    · cases h
      exact nofun
    rename_i hzero
    split at h
    · dsimp only at h
      split at h
      · cases h
      · exact ih h
    split at h
    · cases h
    rename_i hptr hok
    rw [not_or, not_not] at hok
    obtain ⟨ls, hls, rfl⟩ := Option.map_eq_some_iff.mp h
    have hb := hbyte ⟨b.toNat, b.toNat_lt⟩
    rw [UInt8.ofNat_toNat] at hb
    have hlen : ((packet.drop (pos + 1)).take b.toNat).length = b.toNat := by
      rw [length_take, length_drop]
      omega
    intro l hl
    rcases mem_cons.mp hl with rfl | hl
    · rw [hlen]
      exact hb hzero hok.1
    · exact ih hls l hl

/-! ## Writing them out again -/

theorem rawWire_cons (l : Bytes) (ls : List Bytes) :
    rawWire (l :: ls) = UInt8.ofNat l.length :: (l ++ rawWire ls) := by
  simp [rawWire]

/-- The wire form tells labels apart. -/
theorem rawWire_inj {ls' : List Bytes} (h : ∀ l ∈ ls, 0 < l.length ∧ l.length ≤ 63)
    (h' : ∀ l ∈ ls', 0 < l.length ∧ l.length ≤ 63) (heq : rawWire ls = rawWire ls') : ls = ls' := by
  have hne : ∀ {l : Bytes} {rest : Bytes}, 0 < l.length ∧ l.length ≤ 63 →
      UInt8.ofNat l.length :: rest ≠ rawWire [] := by
    intro l rest hl heq
    exact (length_byte_bits ⟨l.length, by omega⟩ hl.1).1 (head_eq_of_cons_eq heq)
  induction ls generalizing ls' with
  | nil =>
    cases ls' with
    | nil => rfl
    | cons l' ls' =>
      rw [rawWire_cons] at heq
      exact absurd heq.symm (hne (h' l' mem_cons_self))
  | cons l ls ih =>
    cases ls' with
    | nil =>
      rw [rawWire_cons] at heq
      exact absurd heq (hne (h l mem_cons_self))
    | cons l' ls' =>
      rw [rawWire_cons, rawWire_cons] at heq
      obtain ⟨hbyte, hrest⟩ := List.cons.inj heq
      have hlen : l.length = l'.length := by
        have := congrArg UInt8.toNat hbyte
        rwa [length_byte (h l mem_cons_self).2, length_byte (h' l' mem_cons_self).2] at this
      obtain ⟨rfl, hls⟩ := append_inj hrest hlen
      rw [ih (fun x hx => h x (mem_cons_of_mem l hx))
        (fun x hx => h' x (mem_cons_of_mem l hx)) hls]

theorem wireName_eq_rawWire (ls : List Label) : wireName ls = rawWire (ls.map Subtype.val) := by
  simp [wireName, prefixed, rawWire]

theorem dotted_eq_joined (ls : List Label) : dotted ls = joined (ls.map Subtype.val) := by
  simp [dotted, joined]

/-- Written out again, labels are what they were exactly if none holds a dot. -/
theorem nameBytes_joined_iff {w : Bytes}
    (h : ∀ l ∈ ls, 0 < l.length ∧ l.length ≤ 63) (hw : nameBytes (joined ls) = some w) :
    w = rawWire ls ↔ ∀ l ∈ ls, dot ∉ l := by
  constructor
  · intro heq
    rw [nameBytes_eq] at hw
    obtain ⟨hmap, -⟩ := Option.filter_eq_some_iff.mp hw
    obtain ⟨ls', -, rfl⟩ := Option.map_eq_some_iff.mp hmap
    rw [wireName_eq_rawWire] at heq
    have hlabels : ∀ l ∈ ls'.map Subtype.val, 0 < l.length ∧ l.length ≤ 63 := by
      intro l hl
      obtain ⟨l', -, rfl⟩ := mem_map.mp hl
      exact ⟨l'.2.pos, l'.2.short⟩
    obtain rfl := rawWire_inj hlabels h heq
    intro l hl
    obtain ⟨l', -, rfl⟩ := mem_map.mp hl
    exact l'.2.dotless
  · intro hdotless
    obtain ⟨ls', rfl⟩ : ∃ ls' : List Label, ls'.map Subtype.val = ls :=
      ⟨ls.pmap Subtype.mk fun l hl => ⟨(h l hl).1, (h l hl).2, hdotless l hl⟩, by
        rw [map_pmap, pmap_eq_map, map_id']⟩
    rw [← dotted_eq_joined, nameBytes, writeDnsName_dotted ls' (Nat.zero_le _)] at hw
    obtain ⟨c, hc, rfl⟩ := Option.map_eq_some_iff.mp hw
    obtain ⟨-, rfl⟩ := Buffer.emit_eq_some hc
    rw [Buffer.contents_put, wireName_eq_rawWire]

/-! ## The records of an accepted packet -/

/-- Where the authority record of an index starts. -/
def authorityStart (packet : Bytes) (k : Nat) : Option Nat :=
  (parseHeaderAndQuestions packet).bind fun (header, _, pos) =>
    (parseAnswerSection packet header.anCount pos).bind fun (_, pos) =>
      (readMany (parseAuthorityRecord packet) k pos).map fun (_, pos) => pos

/-- The bytes of the rdata ahead of the name: priority, weight and port of an SRV record. -/
def fixedSize (type : UInt16) : Nat := if type = typeSrv then 6 else 0

theorem authorityStart_get {p : Packet} {k : Nat} {r : ProbeRecord}
    (hp : parsePacket packet = some p) (hr : p.authority[k]? = some r) :
    ∃ pos next, authorityStart packet k = some pos ∧
      parseAuthorityRecord packet pos = some (r, next) := by
  obtain ⟨⟨header, questions, pos⟩, hquestions, hp⟩ := Option.bind_eq_some_iff.mp hp
  obtain ⟨⟨answers, mid⟩, hanswers, hp⟩ := Option.bind_eq_some_iff.mp hp
  obtain ⟨⟨rs, stop⟩, hread, heq⟩ := Option.map_eq_some_iff.mp hp
  cases heq
  obtain ⟨ys, start, next, hmany, hitem⟩ := readMany_get hread hr
  refine ⟨start, next, ?_, hitem⟩
  simp only [authorityStart, hquestions, hanswers, hmany, Option.bind_some, Option.map_some]

/-- What is kept of an SRV or PTR record: the fixed bytes and the name, read and written. -/
theorem canonicalize_named {type : UInt16} {start rdlen : Nat} {rdata : Bytes}
    (htype : type = typeSrv ∨ type = typePtr)
    (h : canonicalizeAuthorityRdata packet type start rdlen = some rdata) :
    ∃ target, expandName packet (start + fixedSize type) = some target ∧
      rdata = (packet.drop start).take (fixedSize type) ++ target := by
  rw [canonicalizeAuthorityRdata] at h
  unfold fixedSize
  rcases htype with rfl | rfl
  · rw [if_pos rfl] at h ⊢
    split at h
    · cases h
    obtain ⟨target, htarget, rfl⟩ := Option.map_eq_some_iff.mp h
    exact ⟨target, htarget, rfl⟩
  · have hne : ¬ typePtr = typeSrv := by decide
    rw [if_neg hne, if_pos rfl] at h
    rw [if_neg hne]
    exact ⟨rdata, h, rfl⟩

/-- For every SRV or PTR record that is accepted, the name ends in the record and is kept as
the labels it decodes to exactly if it ends in the record and no label holds a dot. -/
theorem authority_rdata_iff {packet : Bytes} {p : Packet} (hp : parsePacket packet = some p)
    {k : Nat} {r : ProbeRecord} (hr : p.authority[k]? = some r)
    (htype : r.type = typeSrv ∨ r.type = typePtr) :
    ∃ pos a start rdlen ls stop, authorityStart packet k = some pos ∧
      parseRr packet pos = some (a, start, rdlen) ∧ a.type = r.type ∧
      labelsAt packet 64 (start + fixedSize r.type) = some ls ∧
      inlineEnd packet 64 (start + fixedSize r.type) = some stop ∧
      (stop ≤ start + rdlen ∧
          r.rdata = (packet.drop start).take (fixedSize r.type) ++ rawWire ls ↔
        stop ≤ start + rdlen ∧ ∀ l ∈ ls, dot ∉ l) := by
  obtain ⟨pos, next, hpos, hrecord⟩ := authorityStart_get hp hr
  obtain ⟨⟨a, start, rdlen⟩, hrr, hrecord⟩ := Option.bind_eq_some_iff.mp hrecord
  obtain ⟨rdata, hrdata, heq⟩ := Option.map_eq_some_iff.mp hrecord
  cases heq
  obtain ⟨target, hexpand, hkept⟩ := canonicalize_named htype hrdata
  obtain ⟨⟨name, consumed⟩, hname, hbytes⟩ := Option.bind_eq_some_iff.mp hexpand
  obtain ⟨ls, hls, hjoined⟩ := readLabels_labelsAt 64 hname
  have hend := readLabels_inlineEnd 64 (Nat.le_refl _) hname
  refine ⟨pos, a, start, rdlen, ls, _, hpos, hrr, rfl, hls, hend, and_congr_right fun _ => ?_⟩
  rw [nil_append] at hjoined
  dsimp only at hjoined hbytes
  rw [hjoined] at hbytes
  rw [← nameBytes_joined_iff (length_of_labelsAt 64 hls) hbytes, hkept, append_cancel_left_eq]

/-- A probe with one SRV record at the root, its rdata of a declared length. -/
def srvPacket (rdlen : UInt8) (target : Bytes) : Bytes :=
  [0, 0, 0, 0, 0, 0, 0, 0, 0, 1, 0, 0] ++
    ([0] ++ [0, 0x21, 0, 1, 0, 0, 0, 0, 0, rdlen] ++ [0, 0, 0, 0, 0, 9] ++ target)

def srvParsed (rdata : Bytes) : Packet where
  header := ⟨0, 0, 0, 0, 1, 0⟩
  questions := []
  knownAnswers := []
  authority := [⟨[], typeSrv, classIn, 0, [0, 0, 0, 0, 0, 9] ++ rdata⟩]

/-- A target of one label that ends with its record. -/
theorem authority_rdata_of_label :
    ∃ pos a start rdlen ls stop, authorityStart (srvPacket 9 [1, 97, 0]) 0 = some pos ∧
      parseRr (srvPacket 9 [1, 97, 0]) pos = some (a, start, rdlen) ∧ a.type = typeSrv ∧
      labelsAt (srvPacket 9 [1, 97, 0]) 64 (start + 6) = some ls ∧
      inlineEnd (srvPacket 9 [1, 97, 0]) 64 (start + 6) = some stop ∧
      (stop ≤ start + rdlen ∧ [0, 0, 0, 0, 0, 9] ++ [1, 97, 0] =
          ((srvPacket 9 [1, 97, 0]).drop start).take 6 ++ rawWire ls ↔
        stop ≤ start + rdlen ∧ ∀ l ∈ ls, dot ∉ l) := by
  have hp : parsePacket (srvPacket 9 [1, 97, 0]) = some (srvParsed [1, 97, 0]) := by
    decide +kernel
  exact authority_rdata_iff hp (k := 0) rfl (.inl rfl)

/-- Two accepted packets: the target of one begins where its record ends, and a label of the
other comes back as two. -/
theorem authority_rdata_lost :
    (parsePacket (srvPacket 6 [1, 97, 0]) = some (srvParsed [1, 97, 0]) ∧
      authorityStart (srvPacket 6 [1, 97, 0]) 0 = some 12 ∧
      parseRr (srvPacket 6 [1, 97, 0]) 12 = some (⟨[], typeSrv, classIn, 0⟩, 23, 6) ∧
      inlineEnd (srvPacket 6 [1, 97, 0]) 64 (23 + 6) = some 32) ∧
    (parsePacket (srvPacket 11 [3, 97, 46, 98, 0]) = some (srvParsed [1, 97, 1, 98, 0]) ∧
      authorityStart (srvPacket 11 [3, 97, 46, 98, 0]) 0 = some 12 ∧
      parseRr (srvPacket 11 [3, 97, 46, 98, 0]) 12 =
        some (⟨[], typeSrv, classIn, 0⟩, 23, 11) ∧
      inlineEnd (srvPacket 11 [3, 97, 46, 98, 0]) 64 (23 + 6) = some 34 ∧
      labelsAt (srvPacket 11 [3, 97, 46, 98, 0]) 64 (23 + 6) = some [[97, 46, 98]]) := by
  decide +kernel

end Satellite.Mdns
