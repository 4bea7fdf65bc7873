import Satellite.Lib.Reading
import Satellite.Mdns.Packets

/-!
# The reader stays in its packet

The reader of `mdns_protocol.cpp` once more, with every access to the packet made explicit: a
byte or a slice outside it is a fault, which is not the same as a refusal. No packet makes the
reader fault, so it is the partial function of the model; names take at least one byte, and
the sections that are walked end inside the packet with as many entries as the header counts.
-/

namespace Satellite.Mdns

open Reading Option

/-! ## Checked accesses -/

def checkBE16 (packet : Bytes) (pos : Nat) : Option UInt16 :=
  (packet[pos]?).bind fun a => (packet[pos + 1]?).map fun b =>
    a.toUInt16 <<< 8 ||| b.toUInt16

def checkBE32 (packet : Bytes) (pos : Nat) : Option UInt32 :=
  (packet[pos]?).bind fun a => (packet[pos + 1]?).bind fun b => (packet[pos + 2]?).bind fun c =>
    (packet[pos + 3]?).map fun d =>
      a.toUInt32 <<< 24 ||| b.toUInt32 <<< 16 ||| c.toUInt32 <<< 8 ||| d.toUInt32

variable {packet : Bytes}

theorem getElem?_eq_byteAt {i : Nat} (h : i < packet.length) :
    packet[i]? = some (byteAt packet i) := by
  rw [byteAt, List.getElem?_eq_getElem h, getD_some]

variable {pos : Nat}

theorem checkBE16_eq (h : pos + 2 ≤ packet.length) :
    checkBE16 packet pos = some (readBE16 packet pos) := by
  rw [checkBE16, getElem?_eq_byteAt (by omega), getElem?_eq_byteAt (by omega)]
  rfl

theorem checkBE32_eq (h : pos + 4 ≤ packet.length) :
    checkBE32 packet pos = some (readBE32 packet pos) := by
  rw [checkBE32, getElem?_eq_byteAt (by omega), getElem?_eq_byteAt (by omega),
    getElem?_eq_byteAt (by omega), getElem?_eq_byteAt (by omega)]
  rfl

/-! ## Names -/

/-- The loop of `readDnsName`, at most `safety` rounds of it. -/
def checkLabels (packet : Bytes) (offset : Nat) :
    Nat → Nat → Option Nat → Bytes → Option (Option (Bytes × Nat))
  | 0, _, _, _ => some none
  | safety + 1, pos, jumped, name =>
    if pos ≥ packet.length then some none
    else (packet[pos]?).bind fun b =>
      if b = 0 then
        if jumped = some 0 then some none
        else some (some (name, jumped.getD (pos - offset + 1)))
      else if b &&& 0xC0 = 0xC0 then
        if pos + 1 ≥ packet.length then some none
        else (packet[pos + 1]?).bind fun low =>
          let target := (b &&& 0x3F).toNat * 256 + low.toNat
          if target ≥ packet.length ∨ target ≥ pos then some none
          else checkLabels packet offset safety target
            (some (jumped.getD (pos - offset + 2))) name
      else if b &&& 0xC0 ≠ 0 then some none
      else if pos + 1 + b.toNat > packet.length then some none
      else (slice packet (pos + 1) b.toNat).bind fun label =>
        checkLabels packet offset safety (pos + 1 + b.toNat) jumped (name ++ label ++ [dot])

def checkDnsName (packet : Bytes) (offset : Nat) : Option (Option (Bytes × Nat)) :=
  checkLabels packet offset 64 offset none []

variable {offset : Nat} {jumped : Option Nat} {name : Bytes}

/-- What was consumed at a jump is never nothing. -/
theorem checkLabels_eq (safety : Nat)
    (hj : jumped ≠ some 0) :
    checkLabels packet offset safety pos jumped name =
      some (readLabels packet offset safety pos jumped name) := by
  induction safety generalizing pos jumped name with
  | zero => rfl
  | succ safety ih =>
    rw [checkLabels, readLabels]
    by_cases hpos : pos ≥ packet.length
    · rw [if_pos hpos, List.getElem?_eq_none hpos]
    · rw [if_neg hpos, getElem?_eq_byteAt (Nat.lt_of_not_le hpos)]
      simp only [bind_some]
      generalize byteAt packet pos = b
      by_cases hzero : b = 0
      · rw [if_pos hzero, if_pos hzero, if_neg hj]
      · rw [if_neg hzero, if_neg hzero]
        by_cases hptr : b &&& 0xC0 = 0xC0
        · rw [if_pos hptr, if_pos hptr]
          by_cases hlow : pos + 1 ≥ packet.length
          · rw [if_pos hlow, if_pos hlow]
          · rw [if_neg hlow, if_neg hlow, getElem?_eq_byteAt (Nat.lt_of_not_le hlow)]
            simp only [bind_some]
            split
            · rfl
            · apply ih
              cases jumped with
              | none => simp
              | some consumed => exact hj
        · rw [if_neg hptr, if_neg hptr]
          by_cases hres : b &&& 0xC0 ≠ 0
          · rw [if_pos hres, if_pos hres]
          · rw [if_neg hres, if_neg hres]
            by_cases hlen : pos + 1 + b.toNat > packet.length
            · rw [if_pos hlen, if_pos hlen]
            · rw [if_neg hlen, if_neg hlen, slice_eq (Nat.le_of_not_lt hlen), bind_some]
              exact ih hj

theorem checkDnsName_eq (packet : Bytes) (offset : Nat) :
    checkDnsName packet offset = some (readDnsName packet offset) :=
  checkLabels_eq 64 nofun

/-- What one round of reading a name can do if the name is accepted in the end. -/
inductive LabelRound (packet : Bytes) (offset safety pos : Nat) (jumped : Option Nat)
    (name : Bytes) (r : Bytes × Nat) : Prop
  | stop (hget : packet[pos]? = some 0) (hr : r = (name, jumped.getD (pos - offset + 1)))
  | jump (b : UInt8) (target : Nat) (hget : packet[pos]? = some b) (hzero : b ≠ 0)
      (hptr : b &&& 0xC0 = 0xC0) (hlow : pos + 1 < packet.length)
      (htarget : target = (b &&& 0x3F).toNat * 256 + (byteAt packet (pos + 1)).toNat)
      (hback : target < pos) (hin : target < packet.length)
      (hr : readLabels packet offset safety target (some (jumped.getD (pos - offset + 2))) name =
        some r)
  | label (b : UInt8) (hget : packet[pos]? = some b) (hzero : b ≠ 0) (hbits : b &&& 0xC0 = 0)
      (hin : pos + 1 + b.toNat ≤ packet.length)
      (hr : readLabels packet offset safety (pos + 1 + b.toNat) jumped
        (name ++ (packet.drop (pos + 1)).take b.toNat ++ [dot]) = some r)

theorem readLabels_round {safety : Nat}
    {r : Bytes × Nat} (h : readLabels packet offset (safety + 1) pos jumped name = some r) :
    LabelRound packet offset safety pos jumped name r := by
  rw [readLabels] at h
  cases hget : packet[pos]? with
  | none =>
    rw [hget] at h
    cases h
  | some b =>
    rw [hget] at h
    simp only at h
    split at h
    next hzero => exact .stop (hzero ▸ hget) (Option.some.inj h).symm
    rename_i hzero
    split at h
    next hptr =>
      split at h
      · cases h
      rename_i hlow
      split at h
      · cases h
      rename_i htarget
      rw [not_or] at htarget
      exact .jump b _ hget hzero hptr (by omega) rfl (by omega) (by omega) h
    split at h
    · cases h
    rename_i hbits
    split at h
    · cases h
    rename_i hlen
    exact .label b hget hzero (not_not.mp hbits) (by omega) h

/-- Labels keep to the packet and, before the first jump, move on from the offset. -/
theorem readLabels_consumed (safety : Nat)
    {r : Bytes × Nat} (hpos : jumped = none → offset ≤ pos)
    (hj : ∀ n, jumped = some n → 0 < n ∧ offset + n ≤ packet.length)
    (h : readLabels packet offset safety pos jumped name = some r) :
    0 < r.2 ∧ offset + r.2 ≤ packet.length := by
  induction safety generalizing pos jumped name with
  | zero => cases h
  | succ safety ih =>
    cases readLabels_round h with
    | stop hget hr =>
      obtain ⟨hlt, -⟩ := List.getElem?_eq_some_iff.mp hget
      rw [hr]
      cases jumped with
      | none =>
        have hle := hpos rfl
        simp only [getD_none]
        omega
      | some n => exact hj n rfl
    | jump b target hget hzero hptr hlow htarget hback hin hr =>
      refine ih (fun hnone => absurd hnone (some_ne_none _)) (fun n hn => ?_) hr
      cases hn
      cases jumped with
      | none =>
        have hle := hpos rfl
        simp only [getD_none]
        omega
      | some k => exact hj k rfl
    | label b hget hzero hbits hin hr =>
      exact ih (fun hnone => Nat.le_trans (hpos hnone) (by omega)) hj hr

/-- An accepted name takes at least one byte and ends inside the packet. -/
theorem readDnsName_consumed {consumed : Nat}
    (h : readDnsName packet offset = some (name, consumed)) :
    0 < consumed ∧ offset + consumed ≤ packet.length := by
  apply readLabels_consumed 64 (fun _ => Nat.le_refl offset) _ h
  intro n hn
  cases hn

/-! ## Sections -/

def checkQuestion (packet : Bytes) (pos : Nat) : Option (Option (Question × Nat)) :=
  andThen (checkDnsName packet pos) fun (name, consumed) =>
    let pos := pos + consumed
    if pos + 4 > packet.length then some none
    else (checkBE16 packet pos).bind fun type => (checkBE16 packet (pos + 2)).bind fun rawClass =>
      some (some ({ name, type, cls := rawClass &&& ~~~cacheFlushBit
                    unicastResponse := rawClass &&& cacheFlushBit != 0 }, pos + 4))

theorem checkQuestion_eq (packet : Bytes) (pos : Nat) :
    checkQuestion packet pos = some (parseQuestion packet pos) := by
  apply andThen_eq (checkDnsName_eq packet pos)
  rintro ⟨name, consumed⟩ -
  dsimp only
  split
  · rfl
  · rw [checkBE16_eq (by omega), checkBE16_eq (by omega)]
    rfl

def checkHeader (packet : Bytes) : Option Header :=
  (checkBE16 packet 0).bind fun id => (checkBE16 packet 2).bind fun flags =>
  (checkBE16 packet 4).bind fun qdCount => (checkBE16 packet 6).bind fun anCount =>
  (checkBE16 packet 8).bind fun nsCount => (checkBE16 packet 10).map fun arCount =>
    { id, flags, qdCount, anCount, nsCount, arCount }

theorem checkHeader_eq (h : 12 ≤ packet.length) : checkHeader packet = some (readHeader packet) := by
  rw [checkHeader, checkBE16_eq (by omega), checkBE16_eq (by omega), checkBE16_eq (by omega),
    checkBE16_eq (by omega), checkBE16_eq (by omega), checkBE16_eq (by omega)]
  rfl

def checkHeaderAndQuestions (packet : Bytes) : Option (Option (Header × List Question × Nat)) :=
  if packet.length < 12 then some none
  else (checkHeader packet).bind fun header =>
    andThen (checkMany (checkQuestion packet) header.qdCount.toNat 12) fun (questions, pos) =>
      some (some (header, questions, pos))

theorem checkHeaderAndQuestions_eq (packet : Bytes) :
    checkHeaderAndQuestions packet = some (parseHeaderAndQuestions packet) := by
  rw [checkHeaderAndQuestions, parseHeaderAndQuestions]
  split
  · rfl
  · rw [checkHeader_eq (by omega), bind_some]
    exact andThen_map (checkMany_eq (checkQuestion_eq packet) _ _) fun _ _ => rfl

def checkRr (packet : Bytes) (pos : Nat) : Option (Option (Answer × Nat × Nat)) :=
  andThen (checkDnsName packet pos) fun (name, consumed) =>
    let pos := pos + consumed
    if pos + 10 > packet.length then some none
    else (checkBE16 packet pos).bind fun type => (checkBE16 packet (pos + 2)).bind fun cls =>
      (checkBE32 packet (pos + 4)).bind fun ttl => (checkBE16 packet (pos + 8)).bind fun rdlen =>
        if pos + 10 + rdlen.toNat > packet.length then some none
        else some (some ({ name, type, cls := cls &&& ~~~cacheFlushBit, ttl }, pos + 10,
          rdlen.toNat))

theorem checkRr_eq (packet : Bytes) (pos : Nat) :
    checkRr packet pos = some (parseRr packet pos) := by
  apply andThen_eq (checkDnsName_eq packet pos)
  rintro ⟨name, consumed⟩ -
  dsimp only
  split
  · rfl
  · rw [checkBE16_eq (by omega), checkBE16_eq (by omega), checkBE32_eq (by omega),
      checkBE16_eq (by omega)]
    simp only [bind_some]
    split
    · rfl
    · rfl

/-- A record's rdata lies inside the packet, behind at least eleven bytes. -/
theorem parseRr_inside {start rdlen : Nat} {a : Answer}
    (h : parseRr packet pos = some (a, start, rdlen)) :
    pos < start ∧ start + rdlen ≤ packet.length := by
  obtain ⟨⟨name, consumed⟩, hname, h⟩ := bind_eq_some_iff.mp h
  have := readDnsName_consumed hname
  dsimp only at h
  split at h
  · cases h
  split at h
  · cases h
  obtain ⟨-, heq⟩ := Prod.mk.inj (Option.some.inj h)
  cases heq
  omega

def checkAnswer (packet : Bytes) (pos : Nat) : Option (Option (Answer × Nat)) :=
  andThen (checkRr packet pos) fun (a, start, rdlen) => some (some (a, start + rdlen))

theorem checkAnswer_eq (packet : Bytes) (pos : Nat) :
    checkAnswer packet pos = some (parseAnswer packet pos) :=
  andThen_map (checkRr_eq packet pos) fun _ _ => rfl

def checkExpandName (packet : Bytes) (pos : Nat) : Option (Option Bytes) :=
  andThen (checkDnsName packet pos) fun (target, _) => some (nameBytes target)

theorem checkExpandName_eq (packet : Bytes) (pos : Nat) :
    checkExpandName packet pos = some (expandName packet pos) :=
  andThen_eq (checkDnsName_eq packet pos) fun _ _ => rfl

def checkAuthorityRdata (packet : Bytes) (type : UInt16) (rdataStart rdlen : Nat) :
    Option (Option Bytes) :=
  if type = typeSrv then
    if rdlen < 6 then some none
    else (slice packet rdataStart 6).bind fun fixed =>
      andThen (checkExpandName packet (rdataStart + 6)) fun target => some (some (fixed ++ target))
  else if type = typePtr then checkExpandName packet rdataStart
  else (slice packet rdataStart rdlen).map some

theorem checkAuthorityRdata_eq {type : UInt16} {start rdlen : Nat}
    (h : start + rdlen ≤ packet.length) : checkAuthorityRdata packet type start rdlen =
      some (canonicalizeAuthorityRdata packet type start rdlen) := by
  rw [checkAuthorityRdata, canonicalizeAuthorityRdata]
  split
  · split
    · rfl
    · rw [slice_eq (by omega), bind_some]
      exact andThen_map (checkExpandName_eq packet _) fun _ _ => rfl
  split
  · exact checkExpandName_eq packet start
  · rw [slice_eq h]
    rfl

def checkAuthorityRecord (packet : Bytes) (pos : Nat) : Option (Option (ProbeRecord × Nat)) :=
  andThen (checkRr packet pos) fun (a, start, rdlen) =>
    andThen (checkAuthorityRdata packet a.type start rdlen) fun rdata =>
      some (some ({ name := a.name, type := a.type, cls := a.cls, ttl := a.ttl, rdata },
        start + rdlen))

theorem checkAuthorityRecord_eq (packet : Bytes) (pos : Nat) :
    checkAuthorityRecord packet pos = some (parseAuthorityRecord packet pos) := by
  apply andThen_eq (checkRr_eq packet pos)
  rintro ⟨a, start, rdlen⟩ hrr
  have hin := (parseRr_inside hrr).2
  exact andThen_map (checkAuthorityRdata_eq hin) fun _ _ => rfl

theorem advances_parseQuestion : Advances packet.length (parseQuestion packet) := by
  intro pos q stop h
  obtain ⟨⟨name, consumed⟩, hname, h⟩ := bind_eq_some_iff.mp h
  have := readDnsName_consumed hname
  dsimp only at h
  split at h
  · cases h
  obtain ⟨-, rfl⟩ := Prod.mk.inj (Option.some.inj h)
  omega

theorem advances_parseAnswer : Advances packet.length (parseAnswer packet) := by
  intro pos a stop h
  obtain ⟨⟨a', start, rdlen⟩, hrr, heq⟩ := map_eq_some_iff.mp h
  obtain ⟨-, rfl⟩ := Prod.mk.inj heq
  have := parseRr_inside hrr
  omega

theorem advances_parseAuthorityRecord :
    Advances packet.length (parseAuthorityRecord packet) := by
  intro pos r stop h
  obtain ⟨⟨a, start, rdlen⟩, hrr, h⟩ := bind_eq_some_iff.mp h
  obtain ⟨rdata, -, heq⟩ := map_eq_some_iff.mp h
  obtain ⟨-, rfl⟩ := Prod.mk.inj heq
  have := parseRr_inside hrr
  omega

/-! ## Packets -/

/-- `parsePacket` without the known answers. -/
def parseQuestions (packet : Bytes) : Option (Header × List Question) :=
  (parseHeaderAndQuestions packet).map fun (header, questions, _) => (header, questions)

def checkQuestions (packet : Bytes) : Option (Option (Header × List Question)) :=
  andThen (checkHeaderAndQuestions packet) fun (header, questions, _) =>
    some (some (header, questions))

def checkQuery (packet : Bytes) : Option (Option (Header × List Question × List Answer)) :=
  andThen (checkHeaderAndQuestions packet) fun (header, questions, pos) =>
    andThen (checkMany (checkAnswer packet) header.anCount.toNat pos) fun (knownAnswers, _) =>
      some (some (header, questions, knownAnswers))

def checkPacket (packet : Bytes) : Option (Option Packet) :=
  andThen (checkHeaderAndQuestions packet) fun (header, questions, pos) =>
    andThen (checkMany (checkAnswer packet) header.anCount.toNat pos) fun (knownAnswers, pos) =>
      andThen (checkMany (checkAuthorityRecord packet) header.nsCount.toNat pos)
        fun (authority, _) => some (some { header, questions, knownAnswers, authority })

theorem checkQuestions_eq (packet : Bytes) :
    checkQuestions packet = some (parseQuestions packet) :=
  andThen_map (checkHeaderAndQuestions_eq packet) fun _ _ => rfl

theorem checkQuery_eq (packet : Bytes) : checkQuery packet = some (parseQuery packet) := by
  apply andThen_eq (checkHeaderAndQuestions_eq packet)
  rintro ⟨header, questions, pos⟩ -
  exact andThen_map (checkMany_eq (checkAnswer_eq packet) _ _) fun _ _ => rfl

theorem checkPacket_eq (packet : Bytes) : checkPacket packet = some (parsePacket packet) := by
  apply andThen_eq (checkHeaderAndQuestions_eq packet)
  rintro ⟨header, questions, pos⟩ -
  apply andThen_eq (checkMany_eq (checkAnswer_eq packet) _ _)
  rintro ⟨knownAnswers, pos⟩ -
  exact andThen_map (checkMany_eq (checkAuthorityRecord_eq packet) _ _) fun _ _ => rfl

/-- A section of `n` entries read from `pos` on: its entries, its end, and that every position
on the way lies inside the packet. -/
structure Walked {β : Type} (packet : Bytes) (item : Nat → Option (β × Nat)) (n pos : Nat)
    (xs : List β) (stop : Nat) : Prop where
  read : readMany item n pos = some (xs, stop)
  count : xs.length = n
  inside : ∀ k ≤ n, ∃ ys mid, readMany item k pos = some (ys, mid) ∧ mid ≤ packet.length

theorem Walked.stop_le {β : Type} {item : Nat → Option (β × Nat)} {n stop : Nat}
    {xs : List β} (h : Walked packet item n pos xs stop) : stop ≤ packet.length := by
  obtain ⟨ys, mid, hread, hmid⟩ := h.inside n (Nat.le_refl n)
  rw [h.read] at hread
  obtain ⟨-, rfl⟩ := Prod.mk.inj (Option.some.inj hread)
  exact hmid

theorem walked_of_read {β : Type} {item : Nat → Option (β × Nat)} {n stop : Nat}
    {xs : List β} (ha : Advances packet.length item) (hpos : pos ≤ packet.length)
    (h : readMany item n pos = some (xs, stop)) : Walked packet item n pos xs stop := by
  obtain ⟨hcount, -, hinside⟩ := ha.section_inside hpos h
  exact ⟨h, hcount, hinside⟩

theorem walked_questions {header : Header} {questions : List Question}
    (h : parseHeaderAndQuestions packet = some (header, questions, pos)) :
    header = readHeader packet ∧
      Walked packet (parseQuestion packet) header.qdCount.toNat 12 questions pos := by
  rw [parseHeaderAndQuestions] at h
  split at h
  · cases h
  obtain ⟨⟨qs, stop⟩, hread, heq⟩ := map_eq_some_iff.mp h
  cases heq
  exact ⟨rfl, walked_of_read advances_parseQuestion (by omega) hread⟩

/-- Every overload reads the packet in bounds and answers; an accepted name takes a byte and
ends inside; and what is accepted was walked inside the packet, section by section, with as
many entries as the header counts. -/
theorem parse_inside (packet : Bytes) :
    (checkQuestions packet = some (parseQuestions packet) ∧
      checkQuery packet = some (parseQuery packet) ∧
      checkPacket packet = some (parsePacket packet)) ∧
    (∀ pos, ∃ answer, checkDnsName packet pos = some answer ∧ ∀ name consumed,
      answer = some (name, consumed) → 0 < consumed ∧ pos + consumed ≤ packet.length) ∧
    (∀ header questions, parseQuestions packet = some (header, questions) →
      header = readHeader packet ∧ ∃ pos,
        Walked packet (parseQuestion packet) header.qdCount.toNat 12 questions pos) ∧
    (∀ header questions answers, parseQuery packet = some (header, questions, answers) →
      header = readHeader packet ∧ ∃ pos stop,
        Walked packet (parseQuestion packet) header.qdCount.toNat 12 questions pos ∧
        Walked packet (parseAnswer packet) header.anCount.toNat pos answers stop) ∧
    ∀ p, parsePacket packet = some p →
      p.header = readHeader packet ∧ ∃ pos mid stop,
        Walked packet (parseQuestion packet) p.header.qdCount.toNat 12 p.questions pos ∧
        Walked packet (parseAnswer packet) p.header.anCount.toNat pos p.knownAnswers mid ∧
        Walked packet (parseAuthorityRecord packet) p.header.nsCount.toNat mid p.authority
          stop := by
  refine ⟨⟨checkQuestions_eq packet, checkQuery_eq packet, checkPacket_eq packet⟩, ?_, ?_, ?_, ?_⟩
  · intro pos
    exact ⟨_, checkDnsName_eq packet pos, fun _ _ h => readDnsName_consumed h⟩
  · intro header questions h
    obtain ⟨⟨hdr, qs, pos⟩, hparse, heq⟩ := map_eq_some_iff.mp h
    cases heq
    obtain ⟨hheader, hq⟩ := walked_questions hparse
    exact ⟨hheader, pos, hq⟩
  · intro header questions answers h
    obtain ⟨⟨hdr, qs, pos⟩, hparse, h⟩ := bind_eq_some_iff.mp h
    obtain ⟨⟨as, stop⟩, hread, heq⟩ := map_eq_some_iff.mp h
    cases heq
    obtain ⟨hheader, hq⟩ := walked_questions hparse
    exact ⟨hheader, pos, stop, hq, walked_of_read advances_parseAnswer hq.stop_le hread⟩
  · intro p h
    obtain ⟨⟨hdr, qs, pos⟩, hparse, h⟩ := bind_eq_some_iff.mp h
    obtain ⟨⟨as, mid⟩, hanswers, h⟩ := bind_eq_some_iff.mp h
    obtain ⟨⟨rs, stop⟩, hread, heq⟩ := map_eq_some_iff.mp h
    cases heq
    obtain ⟨hheader, hq⟩ := walked_questions hparse
    have ha := walked_of_read advances_parseAnswer hq.stop_le hanswers
    exact ⟨hheader, pos, mid, stop, hq, ha,
      walked_of_read advances_parseAuthorityRecord ha.stop_le hread⟩

end Satellite.Mdns
