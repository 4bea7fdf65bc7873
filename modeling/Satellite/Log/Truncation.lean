import Satellite.Log.Writer

/-!
# Cutting text to a fixed array

A device name in the hot table and the two texts of a log record are kept in arrays of fixed
size. `utf8Prefix` scans back from the limit over continuation bytes, so that a cut never falls
inside a character. The header of the log and that of the hot table hold the same code for it.
-/

namespace Satellite.Truncation

open List

abbrev Bytes := List UInt8

/-- The bytes of a text; a `String` is valid UTF-8 by construction. -/
def bytes (text : String) : Bytes := text.toByteArray.data.toList

def Valid (b : Bytes) : Prop := b.toByteArray.IsValidUTF8

/-- `(c & 0xC0u) == 0x80u`. -/
abbrev Continues (b : UInt8) : Prop := b &&& 0xC0 = 0x80

/-- The `while` loop of `utf8Prefix`. -/
def scanBack (text : Bytes) : Nat → Nat
  | 0 => 0
  | cut + 1 => if Continues (text.getD (cut + 1) 0) then scanBack text cut else cut + 1

def utf8Prefix (text : Bytes) (limit : Nat) : Nat :=
  if text.length ≤ limit then text.length else scanBack text limit

/-- `std::memcpy(dst + offset, src, n)`; `none` where it leaves one of the two arrays. The copies
of no bytes that the source leaves out change nothing here. -/
def memcpy (dst : Bytes) (offset : Nat) (src : Bytes) (n : Nat) : Option Bytes :=
  if offset + n ≤ dst.length ∧ n ≤ src.length then
    some (dst.take offset ++ (src.take n ++ dst.drop (offset + n)))
  else none

def hotNameBytes : Nat := 16 * 8

/-- The name of a hot slot: its words, byte by byte, and its length. -/
structure HotName where
  nameLength : UInt32
  name : Bytes

def storeName (text : Bytes) : Option HotName := do
  let length := utf8Prefix text hotNameBytes
  let raw ← memcpy (replicate hotNameBytes 0) 0 text length
  return { nameLength := .ofNat length, name := raw }

def HotName.loadName (hot : HotName) : Bytes :=
  hot.name.take (min hot.nameLength.toNat hotNameBytes)

def logSourceCapacity : Nat := 31
def logMessageCapacity : Nat := 512 - (8 + 2 + 1 + 2 * 1) - logSourceCapacity
def logTruncationMark : Bytes := bytes "..."

/-- The record with its arrays, where `Log.LogRecord` has the texts. -/
structure LogRecord where
  timestampNs : Int
  messageLength : UInt16
  level : Log.LogLevel
  sourceLength : UInt8
  flags : UInt8
  source : Bytes
  message : Bytes

def LogRecord.sourceText (r : LogRecord) : Bytes := r.source.take r.sourceLength.toNat
def LogRecord.messageText (r : LogRecord) : Bytes := r.message.take r.messageLength.toNat

/-- What is left for a message that gets the mark. -/
def room : Nat := logMessageCapacity - logTruncationMark.length

/-- The message array of a record and the length that is then put in its field. -/
def copyMessage (message : Bytes) : Option (Bytes × Nat) :=
  if logMessageCapacity < message.length then do
    let messageBytes := min (utf8Prefix message room) room
    let copied ← memcpy (replicate logMessageCapacity 0) 0 message messageBytes
    let marked ← memcpy copied messageBytes logTruncationMark logTruncationMark.length
    return (marked, messageBytes + logTruncationMark.length)
  else do
    let messageBytes := min message.length logMessageCapacity
    let copied ← memcpy (replicate logMessageCapacity 0) 0 message messageBytes
    return (copied, messageBytes)

def makeLogRecord (timestampNs : Int) (level : Log.LogLevel) (source message : Bytes)
    (flags : UInt8) : Option LogRecord := do
  let sourceBytes := min (utf8Prefix source logSourceCapacity) logSourceCapacity
  let copied ← memcpy (replicate logSourceCapacity 0) 0 source sourceBytes
  let (text, messageBytes) ← copyMessage message
  return { timestampNs, level, flags, source := copied, sourceLength := .ofNat sourceBytes,
           message := text, messageLength := .ofNat messageBytes }

/-- The longest valid part of the text, from its start, within the limit. -/
structure IsLongest (text : Bytes) (limit : Nat) (cut : Bytes) : Prop where
  fits : cut.length ≤ limit
  start : cut <+: text
  valid : Valid cut
  longest : ∀ p, p <+: text → Valid p → p.length ≤ limit → p.length ≤ cut.length

section Characters

/-- The two facts about single bytes, by going through all of them. -/
theorem continues_byte (b : UInt8) :
    (b.IsUTF8FirstByte → ¬ Continues b) ∧ Continues (b &&& 0x3f ||| 0x80) := by
  have h : ∀ n : Fin 256, ((UInt8.ofFin n).IsUTF8FirstByte → ¬ Continues (.ofFin n)) ∧
      Continues (.ofFin n &&& 0x3f ||| 0x80) := by
    unfold UInt8.IsUTF8FirstByte
    decide +kernel
  simpa using h b.toFin

theorem continues_tail (c : Char) : ∀ b ∈ (String.utf8EncodeChar c).tail, Continues b := by
  rw [String.utf8EncodeChar_eq_utf8EncodeCharFast, String.utf8EncodeCharFast]
  split_ifs <;> simp [Continues, fun b => (continues_byte b).2]

theorem bytes_eq_flatMap (text : String) :
    bytes text = text.toList.flatMap String.utf8EncodeChar := by
  simp [bytes, ← String.utf8Encode_toList, List.utf8Encode]

/-- In a text a byte that starts no character continues one. -/
theorem first_or_continues {text : String} {b : UInt8} (hb : b ∈ bytes text) :
    b.IsUTF8FirstByte ∨ Continues b := by
  rw [bytes_eq_flatMap, mem_flatMap] at hb
  obtain ⟨c, -, hb⟩ := hb
  obtain ⟨i, hi, rfl⟩ := mem_iff_getElem.mp hb
  cases i with
  | zero => exact .inl (UInt8.isUTF8FirstByte_getElem_utf8EncodeChar.mpr rfl)
  | succ i =>
    right
    apply continues_tail c
    rw [mem_iff_getElem]
    exact ⟨i, by rw [length_tail]; omega, getElem_tail ..⟩

/-- A text may be cut where the next byte does not continue a character, and nowhere else. -/
theorem valid_take {text : String} {n : Nat} (hn : n < (bytes text).length) :
    Valid ((bytes text).take n) ↔ ¬ Continues ((bytes text).getD n 0) := by
  have hbyte : (bytes text).getD n 0 = text.toByteArray[n] := getD_eq_getElem _ _ hn
  have hmem : text.toByteArray[n] ∈ bytes text := getElem_mem hn
  have hcut : ((bytes text).take n).toByteArray = text.toByteArray.extract 0 n := by
    apply ByteArray.ext
    simp [bytes, ← Array.toList_inj]
  have hvalid : Valid ((bytes text).take n) ↔ String.Pos.Raw.IsValid text ⟨n⟩ := by
    rw [Valid, hcut, String.Pos.Raw.isValid_iff_isValidUTF8_extract_zero]
    exact (and_iff_right (Nat.le_of_lt hn)).symm
  rw [hvalid, String.Pos.Raw.isValid_iff_isUTF8FirstByte, hbyte]
  constructor
  · rintro (he | ⟨_, hf⟩)
    · exact absurd (congrArg String.Pos.Raw.byteIdx he) (Nat.ne_of_lt hn)
    · exact (continues_byte _).1 hf
  · intro hc
    exact .inr ⟨hn, (first_or_continues hmem).resolve_right hc⟩

end Characters

section Cuts

theorem scanBack_le (b : Bytes) (n : Nat) : scanBack b n ≤ n := by
  fun_induction scanBack b n <;> omega

/-- The scan stops at a place where the text may be cut, and passes none on its way. -/
theorem scanBack_longest {text : String} {n : Nat} (hn : n < (bytes text).length) :
    Valid ((bytes text).take (scanBack (bytes text) n)) ∧
      ∀ m ≤ n, Valid ((bytes text).take m) → m ≤ scanBack (bytes text) n := by
  fun_induction scanBack (bytes text) n with
  | case1 => exact ⟨ByteArray.isValidUTF8_empty, fun m hm _ => hm⟩
  | case2 cut hc ih =>
    obtain ⟨hv, hl⟩ := ih (by omega)
    refine ⟨hv, fun m hm hmv => hl m ?_ hmv⟩
    have hne : m ≠ cut + 1 := by
      rintro rfl
      exact (valid_take hn).mp hmv hc
    omega
  | case3 cut hc => exact ⟨(valid_take hn).mpr hc, fun m hm _ => hm⟩

theorem utf8Prefix_le (text : Bytes) (limit : Nat) :
    utf8Prefix text limit ≤ limit ∧ utf8Prefix text limit ≤ text.length := by
  have h := scanBack_le text limit
  unfold utf8Prefix
  split <;> omega

theorem utf8Prefix_longest (text : String) (limit : Nat) :
    IsLongest (bytes text) limit ((bytes text).take (utf8Prefix (bytes text) limit)) := by
  have hle := utf8Prefix_le (bytes text) limit
  have hlen := length_take_of_le hle.2
  suffices h : Valid ((bytes text).take (utf8Prefix (bytes text) limit)) ∧
      ∀ m ≤ (bytes text).length, m ≤ limit → Valid ((bytes text).take m) →
        m ≤ utf8Prefix (bytes text) limit by
    refine ⟨hlen.le.trans hle.1, take_prefix .., h.1, fun p hp hv hl => ?_⟩
    rw [hlen]
    exact h.2 _ hp.length_le hl (prefix_iff_eq_take.mp hp ▸ hv)
  rw [utf8Prefix]
  split
  · refine ⟨?_, fun m hm _ _ => hm⟩
    have he : (bytes text).toByteArray = text.toByteArray := by
      apply ByteArray.ext
      simp [bytes]
    rw [take_length, Valid, he]
    exact text.isValidUTF8
  · have h := scanBack_longest (show limit < (bytes text).length by omega)
    exact ⟨h.1, fun m _ hm hv => h.2 m hm hv⟩

end Cuts

section Copies

theorem memcpy_start {dst src : Bytes} {n : Nat} (hd : n ≤ dst.length) (hs : n ≤ src.length) :
    memcpy dst 0 src n = some (src.take n ++ dst.drop n) := by
  simp [memcpy, hd, hs]

theorem copyMessage_short {message : Bytes} (h : message.length ≤ logMessageCapacity) :
    ∃ rest, copyMessage message = some (message ++ rest, message.length) := by
  rw [copyMessage, if_neg h.not_gt, min_eq_left h]
  dsimp only
  rw [memcpy_start (by simpa using h) le_rfl, take_length]
  exact ⟨_, rfl⟩

theorem copyMessage_long {message : Bytes} (h : logMessageCapacity < message.length) :
    ∃ rest, copyMessage message = some (message.take (utf8Prefix message room) ++
      logTruncationMark ++ rest, utf8Prefix message room + logTruncationMark.length) := by
  obtain ⟨hr, hl⟩ := utf8Prefix_le message room
  have hc : room + logTruncationMark.length = logMessageCapacity := by decide
  have hlen := length_take_of_le hl
  rw [copyMessage, if_pos h, min_eq_left hr]
  dsimp only
  rw [memcpy_start (by rw [length_replicate]; omega) hl, Option.bind_eq_bind, Option.bind_some,
    memcpy, if_pos ⟨by simp [hlen]; omega, le_rfl⟩]
  rw [take_left' hlen, take_length, ← append_assoc]
  exact ⟨_, rfl⟩

end Copies

/-- Every name, source and message: the arrays hold them, and the lengths lose nothing in their
fields. -/
theorem cut_text_valid (name source message : String) (timestampNs : Int) (level : Log.LogLevel)
    (flags : UInt8) :
    (∃ hot, storeName (bytes name) = some hot ∧
      hot.nameLength.toNat = utf8Prefix (bytes name) hotNameBytes ∧
      IsLongest (bytes name) hotNameBytes hot.loadName) ∧
    ∃ record text length, copyMessage (bytes message) = some (text, length) ∧
      makeLogRecord timestampNs level (bytes source) (bytes message) flags = some record ∧
      record.sourceLength.toNat = utf8Prefix (bytes source) logSourceCapacity ∧
      record.messageLength.toNat = length ∧
      IsLongest (bytes source) logSourceCapacity record.sourceText ∧
      if (bytes message).length ≤ logMessageCapacity then record.messageText = bytes message
      else ∃ kept, IsLongest (bytes message) room kept ∧
        record.messageText = kept ++ logTruncationMark := by
  obtain ⟨hn, hn'⟩ := utf8Prefix_le (bytes name) hotNameBytes
  obtain ⟨hs, hs'⟩ := utf8Prefix_le (bytes source) logSourceCapacity
  obtain ⟨hm, hm'⟩ := utf8Prefix_le (bytes message) room
  constructor
  · have hfield : (UInt32.ofNat (utf8Prefix (bytes name) hotNameBytes)).toNat = _ :=
      UInt32.toNat_ofNat_of_lt' (hn.trans_lt (by decide : 16 * 8 < _))
    refine ⟨_, by rw [storeName, memcpy_start (by simpa using hn) hn']; rfl, hfield, ?_⟩
    rw [HotName.loadName, hfield, min_eq_left hn, take_left' (length_take_of_le hn')]
    exact utf8Prefix_longest name _
  have hfield : (UInt8.ofNat (utf8Prefix (bytes source) logSourceCapacity)).toNat = _ :=
    UInt8.toNat_ofNat_of_lt' (hs.trans_lt (by decide : 31 < _))
  have hsource := utf8Prefix_longest source logSourceCapacity
  rw [makeLogRecord, min_eq_left hs]
  dsimp only
  rw [memcpy_start (by simpa using hs) hs']
  split
  · next h =>
    obtain ⟨rest, he⟩ := copyMessage_short h
    have hlength : (UInt16.ofNat (bytes message).length).toNat = _ :=
      UInt16.toNat_ofNat_of_lt' (h.trans_lt (by decide))
    refine ⟨_, _, _, he, by rw [he]; rfl, hfield, hlength, ?_, ?_⟩
    · rwa [LogRecord.sourceText, hfield, take_left' (length_take_of_le hs')]
    · rw [LogRecord.messageText, hlength, take_left' rfl]
  · next h =>
    obtain ⟨rest, he⟩ := copyMessage_long (not_le.mp h)
    have hlength : (UInt16.ofNat (utf8Prefix (bytes message) room +
        logTruncationMark.length)).toNat = _ :=
      UInt16.toNat_ofNat_of_lt' ((Nat.add_le_add_right hm _).trans_lt (by decide))
    refine ⟨_, _, _, he, by rw [he]; rfl, hfield, hlength, ?_, _, utf8Prefix_longest message _, ?_⟩
    · rwa [LogRecord.sourceText, hfield, take_left' (length_take_of_le hs')]
    · rw [LogRecord.messageText, hlength, take_left' (by simp [hm'])]

end Satellite.Truncation
