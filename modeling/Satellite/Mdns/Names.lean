import Satellite.Mdns.RoundTrip

/-!
# Names of any shape

What `writeDnsName` does with an arbitrary string: it is cut at its dots, an empty piece ends
the name, and a piece of more than 63 bytes is refused. So the bytes written are those of a
list of labels, or there are none, whatever the capacity.
-/

namespace Satellite.Mdns

open Option

/-- What stands before the first dot. -/
def leading (name : Bytes) : Bytes := name.takeWhile (· != dot)

theorem dot_not_mem_leading (name : Bytes) : dot ∉ leading name := by
  intro hmem
  have hall : (leading name).all (· != dot) = true := List.all_takeWhile
  have := List.all_eq_true.mp hall dot hmem
  simp at this

/-- The labels the loop of `writeDnsName` writes; `none` if it meets one that is too long. -/
def splitLabels : Nat → Bytes → Option (List Label)
  | 0, _ => some []
  | rounds + 1, name =>
    if h : IsLabel (leading name) then
      (splitLabels rounds (name.drop ((leading name).length + 1))).map (⟨leading name, h⟩ :: ·)
    else if (leading name).length = 0 then some []
    else none

def nameLabels (name : Bytes) : Option (List Label) := splitLabels name.length name

variable {cap : Nat} {b : Buffer UInt8}

theorem writeLabels_eq (rounds : Nat) (name : Bytes) (hb : b.pos ≤ cap) :
    writeLabels cap rounds b name =
      ((splitLabels rounds name).map prefixed).bind (b.emit cap) := by
  induction rounds generalizing b name with
  | zero => exact (Buffer.emit_nil hb).symm
  | succ rounds ih =>
    have hstop : some b = b.emit cap (prefixed []) := (Buffer.emit_nil hb).symm
    rw [writeLabels, splitLabels]
    change (if name = [] then some b
      else if (leading name).length > 63 then none
      else if (leading name).length = 0 then some b
      else (b.emit cap (UInt8.ofNat (leading name).length :: leading name)).bind fun b =>
        writeLabels cap rounds b (name.drop ((leading name).length + 1))) = _
    by_cases hlabel : IsLabel (leading name)
    · have hname : name ≠ [] := by
        rintro rfl
        exact absurd hlabel.pos (by decide)
      have hpos := hlabel.pos
      have hshort := hlabel.short
      rw [if_neg hname, if_neg (by omega), if_neg (by omega), dif_pos hlabel]
      rw [b.emit_bind_option _ fun c hc => ih _ hc, map_map, map_map]
      rfl
    · rw [dif_neg hlabel]
      by_cases hempty : (leading name).length = 0
      · rw [if_pos hempty, if_pos hempty, if_neg (by omega : ¬ (leading name).length > 63), ite_self]
        exact hstop
      · have hname : name ≠ [] := by
          rintro rfl
          exact hempty rfl
        have hlong : (leading name).length > 63 := by
          by_contra hshort
          exact hlabel ⟨by omega, by omega, dot_not_mem_leading name⟩
        rw [if_neg hname, if_pos hlong, if_neg hempty]
        rfl

/-- Any name is written as its labels and a terminator, if there is room. -/
theorem writeDnsName_eq (name : Bytes) (hb : b.pos ≤ cap) :
    writeDnsName cap b name = ((nameLabels name).map wireName).bind (b.emit cap) := by
  rw [writeDnsName, writeLabels_eq _ _ hb]
  change _ = ((splitLabels name.length name).map wireName).bind _
  cases splitLabels name.length name with
  | none => rfl
  | some ls => exact b.emit_bind _ fun c _ => rfl

/-- The scratch buffer holds 256 bytes. -/
theorem nameBytes_eq (name : Bytes) :
    nameBytes name =
      ((nameLabels name).map wireName).filter fun w => decide (w.length ≤ 256) := by
  rw [nameBytes, writeDnsName_eq name (Nat.zero_le _)]
  cases nameLabels name with
  | none => rfl
  | some ls =>
    simp only [map_some, bind_some, filter_some]
    by_cases hfits : (wireName ls).length ≤ 256
    · rw [Buffer.emit_of_le _ (by simpa using hfits), map_some, Buffer.contents_put,
        if_pos (by simpa using hfits)]
    · rw [Buffer.emit_of_gt (by simpa using hfits), map_none, if_neg (by simpa using hfits)]

variable {name : Bytes} {type cls : UInt16} {ttl : UInt32}

/-- A record of any name, with a body that writes some rdata or refuses. -/
theorem writeRr_eq {body : Buffer UInt8 → Option (Buffer UInt8)} {rdata : Option Bytes}
    (hb : b.pos ≤ cap) (hbody : ∀ c, c.pos ≤ cap → body c = rdata.bind (c.emit cap)) :
    writeRr cap b name type cls ttl body =
      ((nameLabels name).bind fun ls =>
        rdata.map fun r => rrWire (wireName ls) type cls ttl r).bind (b.emit cap) := by
  have hname := writeDnsName_eq name hb
  cases hl : nameLabels name with
  | none =>
    rw [hl] at hname
    rw [writeRr, writeRrHeader, hname]
    rfl
  | some ls =>
    rw [hl] at hname
    cases rdata with
    | some r => exact writeRr_emit hname hbody
    | none =>
      rw [writeRr]
      cases hheader : writeRrHeader cap b name type cls ttl with
      | none => rfl
      | some p =>
        obtain ⟨c, rdlenOffset⟩ := p
        have hpos : c.pos ≤ cap := by
          rw [writeRrHeader, hname] at hheader
          obtain ⟨d, -, hd⟩ := bind_eq_some_iff.mp hheader
          obtain ⟨e, he, heq⟩ := map_eq_some_iff.mp hd
          obtain ⟨hle, rfl⟩ := Buffer.emit_eq_some he
          cases heq
          exact hle
        rw [bind_some]
        dsimp only
        rw [hbody c hpos]
        rfl

/-- A record with given rdata. -/
theorem writeRr_verbatim (hb : b.pos ≤ cap) (rdata : Bytes) :
    (writeRr cap b name type cls ttl fun c => c.emit cap rdata) =
      ((nameLabels name).map fun ls => rrWire (wireName ls) type cls ttl rdata).bind
        (b.emit cap) := by
  have heq := @writeRr_eq cap b name type cls ttl (fun c => c.emit cap rdata) (some rdata) hb
    fun _ _ => rfl
  rw [heq]
  cases nameLabels name <;> rfl

end Satellite.Mdns
