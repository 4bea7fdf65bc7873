import Satellite.Mdns.Codec

/-!
# Two hosts that probe for the same names

Each host compares the records it proposes with those of the other, first for the instance
name and then for the host name, and defers if it is behind on either. The two comparisons
are independent: a host that is behind on one name and ahead on the other defers, and so
does its peer.
-/

namespace Satellite.Mdns

open Comparison List ResponseInputs

/-! ## Names apart -/

theorem toLower_eq_dot {c : UInt8} : toLower c = dot ↔ c = dot := by
  have hall : ∀ n : Fin 256, toLower (UInt8.ofNat n) = dot ↔ UInt8.ofNat n = dot := by
    decide +kernel
  have := hall ⟨c.toNat, c.toNat_lt⟩
  rwa [UInt8.ofNat_toNat] at this

theorem count_dot_toLower (x : Bytes) : (x.map toLower).count dot = x.count dot := by
  induction x with
  | nil => rfl
  | cons c x ih =>
    rw [map_cons, count_cons, count_cons, ih]
    simp only [beq_iff_eq, toLower_eq_dot]

theorem count_dot_dotted (ls : List Label) : (dotted ls).count dot = ls.length := by
  induction ls with
  | nil => rfl
  | cons l ls ih =>
    have hzero : l.1.count dot = 0 := List.count_eq_zero.mpr l.2.dotless
    rw [dotted_cons, count_append, count_cons_self, hzero, ih, length_cons,
      Nat.zero_add]

theorem nameEqCi_self (x : Bytes) : nameEqCi x x = true := by simp [nameEqCi]

/-- A host name and an instance name differ in how many labels they have. -/
theorem nameEqCi_dotted {ls ls' : List Label} (h : ls.length ≠ ls'.length) :
    nameEqCi (dotted ls) (dotted ls') = false := by
  apply beq_eq_false_iff_ne.mpr
  intro heq
  have := congrArg (List.count dot) heq
  rw [count_dot_toLower, count_dot_toLower, count_dot_dotted, count_dot_dotted] at this
  exact h this

/-! ## The two record sets -/

section Sets

variable {inputs : ResponseInputs} {i h : Label} (hl : Labelled inputs i h)
include hl

theorem recordsForName_instance :
    recordsForName (buildProposedRecords inputs) inputs.instanceFqdn =
      inputs.srvRecord :: ((txtRdata inputs.txtPairs).map inputs.txtRecord).toList := by
  have hhost : nameEqCi inputs.hostFqdn inputs.instanceFqdn = false := by
    rw [hl.hostFqdn, hl.instanceFqdn]
    exact nameEqCi_dotted (by decide : 2 ≠ 4)
  unfold recordsForName buildProposedRecords
  cases txtRdata inputs.txtPairs <;> cases inputs.ipv4 <;>
    simp [srvRecord, txtRecord, aRecord,
      nameEqCi_self, hhost]

theorem recordsForName_host :
    recordsForName (buildProposedRecords inputs) inputs.hostFqdn =
      (inputs.ipv4.map inputs.aRecord).toList := by
  have hinstance : nameEqCi inputs.instanceFqdn inputs.hostFqdn = false := by
    rw [hl.hostFqdn, hl.instanceFqdn]
    exact nameEqCi_dotted (by decide : 4 ≠ 2)
  unfold recordsForName buildProposedRecords
  cases txtRdata inputs.txtPairs <;> cases inputs.ipv4 <;>
    simp [srvRecord, txtRecord, aRecord,
      nameEqCi_self, hinstance]

end Sets

/-- The TXT record sorts before the SRV record, whatever they hold. -/
theorem sortRecords_instance (inputs : ResponseInputs) (txt : Option Bytes) :
    sortRecords (inputs.srvRecord :: (txt.map inputs.txtRecord).toList) =
      (txt.map inputs.txtRecord).toList ++ [inputs.srvRecord] := by
  cases txt with
  | none => rfl
  | some txt =>
    have hcls : number inputs.srvRecord.cls.toNat (inputs.txtRecord txt).cls.toNat = 0 :=
      number_eq_zero.mpr rfl
    have htype : number inputs.srvRecord.type.toNat (inputs.txtRecord txt).type.toNat = 1 := rfl
    have hgt : ¬ compareOneRecord inputs.srvRecord (inputs.txtRecord txt) ≤ 0 := by
      simp [compareOneRecord, hcls, htype, first]
    simp [sortRecords, List.insertionSort, List.orderedInsert, hgt]

section Same

variable {a b : ResponseInputs} (hinst : b.instanceName = a.instanceName)
  (hhost : b.hostName = a.hostName)

include hinst in
theorem txtRecord_congr (txt : Bytes) : b.txtRecord txt = a.txtRecord txt := by
  simp only [txtRecord, instanceFqdn, hinst]

include hhost in
theorem aRecord_congr (ip) : b.aRecord ip = a.aRecord ip := by
  simp only [aRecord, hostFqdn, hhost]

include hinst in
/-- Nothing to tell between two sets for the instance name means they are the same. -/
theorem instance_sets_eq {s t : Option Bytes}
    (h : compareRecordSets (a.srvRecord :: (s.map a.txtRecord).toList)
      (b.srvRecord :: (t.map b.txtRecord).toList) = 0) :
    a.srvRecord = b.srvRecord ∧ s = t := by
  have hsrv : compareOneRecord a.srvRecord b.srvRecord = 0 → a.srvRecord = b.srvRecord := by
    intro hz
    have hrdata := (compareOneRecord_eq_zero.mp hz).2.2
    have hname : a.srvRecord.name = b.srvRecord.name := by
      change a.instanceFqdn = b.instanceFqdn
      rw [instanceFqdn, instanceFqdn, hinst]
    calc a.srvRecord = ⟨a.srvRecord.name, typeSrv, classIn, ttlHost, a.srvRecord.rdata⟩ := rfl
      _ = ⟨b.srvRecord.name, typeSrv, classIn, ttlHost, b.srvRecord.rdata⟩ := by rw [hname, hrdata]
      _ = b.srvRecord := rfl
  rw [compareRecordSets, sortRecords_instance, sortRecords_instance, lex_eq_zero] at h
  cases s with
  | none =>
    cases t with
    | none =>
      cases h with
      | cons h _ => exact ⟨hsrv h, rfl⟩
    | some t =>
      cases h with
      | cons _ h => cases h
  | some s =>
    cases t with
    | none =>
      cases h with
      | cons _ h => cases h
    | some t =>
      cases h with
      | cons htxt h =>
        cases h with
        | cons h _ =>
          have hst : s = t := (compareOneRecord_eq_zero.mp htxt).2.2
          exact ⟨hsrv h, congrArg some hst⟩

/-- Nothing to tell between two sets for the host name means they are the same. -/
theorem host_sets_eq {s t : Option _}
    (h : compareRecordSets (s.map a.aRecord).toList (t.map b.aRecord).toList = 0) : s = t := by
  cases s with
  | none =>
    cases t with
    | none => rfl
    | some t => cases lex_eq_zero.mp h
  | some s =>
    cases t with
    | none => cases lex_eq_zero.mp h
    | some t =>
      have hz := lex_eq_zero.mp h
      cases hz with
      | cons h _ =>
        have hst : s.toList = t.toList := (compareOneRecord_eq_zero.mp h).2.2
        exact congrArg some (Vector.toList_inj.mp hst)

end Same

/-! ## Two verdicts -/

/-- How the records of `a` for its instance name compare with those of `b`. -/
def instanceOrder (a b : ResponseInputs) : Int :=
  compareRecordSets (recordsForName (buildProposedRecords a) a.instanceFqdn)
    (recordsForName (buildProposedRecords b) a.instanceFqdn)

/-- How the records of `a` for its host name compare with those of `b`. -/
def hostOrder (a b : ResponseInputs) : Int :=
  compareRecordSets (recordsForName (buildProposedRecords a) a.hostFqdn)
    (recordsForName (buildProposedRecords b) a.hostFqdn)

/-- Each host is ahead on one of the two names. -/
def Opposed (a b : ResponseInputs) : Prop :=
  instanceOrder a b < 0 ∧ 0 < hostOrder a b ∨ 0 < instanceOrder a b ∧ hostOrder a b < 0

instance (a b : ResponseInputs) : Decidable (Opposed a b) := by
  unfold Opposed
  infer_instance

/-- A probe that went out has TXT rdata no longer than the buffer. -/
theorem length_txt_of_encoded {inputs : ResponseInputs} {i h : Label} (hl : Labelled inputs i h)
    {cap : Nat} {m : Nat → UInt8} {out : Buffer UInt8}
    (he : encodeProbeQuery cap m inputs = some out) {txt : Bytes}
    (htxt : txtRdata inputs.txtPairs = some txt) : txt.length ≤ cap := by
  rw [encodeProbeQuery_eq hl] at he
  have hfits := (Buffer.emit_eq_some he).1
  have hmem : txtRr i classIn ttlHost txt ∈ proposedRrs inputs i h := by
    simp [proposedRrs, htxt]
  have hle : txt.length ≤ _ :=
    Message.length_rdata_le (x := probeMessage inputs i h) (mem_append_right _ hmem)
  omega

section Verdicts

variable {a b : ResponseInputs} {i h : Label} (ha : Labelled a i h) (hb : Labelled b i h)
include ha hb

theorem instanceFqdn_eq : b.instanceFqdn = a.instanceFqdn := by
  rw [ha.instanceFqdn, hb.instanceFqdn]

theorem hostFqdn_eq : b.hostFqdn = a.hostFqdn := by
  rw [ha.hostFqdn, hb.hostFqdn]

theorem instanceOrder_swap : instanceOrder b a = -instanceOrder a b := by
  rw [instanceOrder, instanceOrder, instanceFqdn_eq ha hb]
  exact compareRecordSets_swap _ _

theorem hostOrder_swap : hostOrder b a = -hostOrder a b := by
  rw [hostOrder, hostOrder, hostFqdn_eq ha hb]
  exact compareRecordSets_swap _ _

/-- Hosts between which neither comparison tells propose the same records. -/
theorem proposed_eq_iff : buildProposedRecords a = buildProposedRecords b ↔
    instanceOrder a b = 0 ∧ hostOrder a b = 0 := by
  constructor
  · intro heq
    rw [instanceOrder, hostOrder, heq]
    exact ⟨compareRecordSets_self _, compareRecordSets_self _⟩
  · rintro ⟨hi, hh⟩
    have hinst : b.instanceName = a.instanceName := hb.instance_eq.symm.trans ha.instance_eq
    have hhost : b.hostName = a.hostName := hb.host_eq.symm.trans ha.host_eq
    rw [instanceOrder, recordsForName_instance ha, ← instanceFqdn_eq ha hb,
      recordsForName_instance hb] at hi
    rw [hostOrder, recordsForName_host ha, ← hostFqdn_eq ha hb, recordsForName_host hb] at hh
    obtain ⟨hsrv, htxt⟩ := instance_sets_eq hinst hi
    have hip := host_sets_eq hh
    have htxtRecord : a.txtRecord = b.txtRecord := by
      funext txt
      exact (txtRecord_congr hinst txt).symm
    have haRecord : a.aRecord = b.aRecord := by
      funext ip
      exact (aRecord_congr hhost ip).symm
    rw [buildProposedRecords, buildProposedRecords, hsrv, htxt, hip, htxtRecord, haRecord]

/-- A host that hears the other's probe loses where its own records compare lower. -/
theorem verdict {m : Nat → UInt8} {out : Buffer UInt8}
    (he : encodeProbeQuery 768 m b = some out) :
    classifyProbePacket out.contents a.instanceFqdn a.hostFqdn (buildProposedRecords a) =
        .lostTiebreak ↔ instanceOrder a b < 0 ∨ hostOrder a b < 0 := by
  have hshort : ∀ txt, txtRdata b.txtPairs = some txt → txt.length < 65536 := by
    intro txt htxt
    have := length_txt_of_encoded hb he htxt
    omega
  have hr := encodeProbeQuery_recovered hb hshort he
  have hverdict := classifyProbePacket_recovered a.hostFqdn (buildProposedRecords a) hr
  rw [instanceFqdn_eq ha hb] at hverdict
  rw [hverdict, ite_eq_left_iff]
  constructor
  · intro hlost
    by_contra hnot
    have hnone := hlost fun hor => hnot (hor.imp (losesName_iff _ _ _).mp (losesName_iff _ _ _).mp)
    cases hnone
  · intro hlost hnot
    exact absurd (hlost.imp (losesName_iff _ _ _).mpr (losesName_iff _ _ _).mpr) hnot

end Verdicts

/-- Of two hosts with different records exactly one loses, unless each is ahead on one of
the two names; of two hosts with the same records none does. -/
theorem one_loser (a b : ResponseInputs) (hi : IsLabel a.instanceName) (hh : IsLabel a.hostName)
    (hinst : b.instanceName = a.instanceName) (hhost : b.hostName = a.hostName)
    {m m' : Nat → UInt8} {fromA fromB : Buffer UInt8}
    (ha : encodeProbeQuery 768 m a = some fromA) (hb : encodeProbeQuery 768 m' b = some fromB) :
    (buildProposedRecords a ≠ buildProposedRecords b →
      ((classifyProbePacket fromB.contents a.instanceFqdn a.hostFqdn (buildProposedRecords a) =
            .lostTiebreak ↔
          classifyProbePacket fromA.contents b.instanceFqdn b.hostFqdn (buildProposedRecords b) ≠
            .lostTiebreak) ↔
        ¬ Opposed a b)) ∧
    (buildProposedRecords a = buildProposedRecords b →
      classifyProbePacket fromB.contents a.instanceFqdn a.hostFqdn (buildProposedRecords a) ≠
          .lostTiebreak ∧
        classifyProbePacket fromA.contents b.instanceFqdn b.hostFqdn (buildProposedRecords b) ≠
          .lostTiebreak) := by
  have hla : Labelled a ⟨_, hi⟩ ⟨_, hh⟩ := ⟨rfl, rfl⟩
  have hlb : Labelled b ⟨_, hi⟩ ⟨_, hh⟩ := ⟨hinst.symm, hhost.symm⟩
  have hA := verdict hla hlb hb
  have hB := verdict hlb hla ha
  rw [instanceOrder_swap hla hlb, hostOrder_swap hla hlb] at hB
  simp only [ne_eq, hA, hB, proposed_eq_iff hla hlb, Opposed]
  omega

/-- Two hosts of one name; the first has the lower port and the higher address. -/
def lowPort : ResponseInputs where
  instanceName := ascii "pc"
  hostName := ascii "pc"
  udpPort := 1
  ipv4 := some #v[10, 0, 0, 2]

def highPort : ResponseInputs where
  instanceName := ascii "pc"
  hostName := ascii "pc"
  udpPort := 2
  ipv4 := some #v[10, 0, 0, 1]

/-- With the lower port and the lower address the first host is the one that loses. -/
theorem one_loser_lowPort :
    ∃ fromA fromB,
      encodeProbeQuery 768 (fun _ => 0) { lowPort with ipv4 := some #v[10, 0, 0, 0] } = some fromA ∧
      encodeProbeQuery 768 (fun _ => 0) highPort = some fromB ∧
      (classifyProbePacket fromB.contents lowPort.instanceFqdn lowPort.hostFqdn
          (buildProposedRecords { lowPort with ipv4 := some #v[10, 0, 0, 0] }) = .lostTiebreak ↔
        classifyProbePacket fromA.contents highPort.instanceFqdn highPort.hostFqdn
          (buildProposedRecords highPort) ≠ .lostTiebreak) := by
  have hA : (encodeProbeQuery 768 (fun _ => 0)
      { lowPort with ipv4 := some #v[10, 0, 0, 0] }).isSome = true := by decide +kernel
  have hB : (encodeProbeQuery 768 (fun _ => 0) highPort).isSome = true := by decide +kernel
  obtain ⟨fromA, hA⟩ := Option.isSome_iff_exists.mp hA
  obtain ⟨fromB, hB⟩ := Option.isSome_iff_exists.mp hB
  refine ⟨fromA, fromB, hA, hB, ?_⟩
  have hone := one_loser { lowPort with ipv4 := some #v[10, 0, 0, 0] } highPort
    (by decide) (by decide) rfl rfl hA hB
  exact (hone.1 (by decide)).mpr (by decide)

/-- Both defer: the first is behind on the instance name, the second on the host name. -/
theorem both_lose :
    ∃ fromA fromB, encodeProbeQuery 768 (fun _ => 0) lowPort = some fromA ∧
      encodeProbeQuery 768 (fun _ => 0) highPort = some fromB ∧
      classifyProbePacket fromB.contents lowPort.instanceFqdn lowPort.hostFqdn
        (buildProposedRecords lowPort) = .lostTiebreak ∧
      classifyProbePacket fromA.contents highPort.instanceFqdn highPort.hostFqdn
        (buildProposedRecords highPort) = .lostTiebreak := by
  have hA : (encodeProbeQuery 768 (fun _ => 0) lowPort).isSome = true := by decide +kernel
  have hB : (encodeProbeQuery 768 (fun _ => 0) highPort).isSome = true := by decide +kernel
  obtain ⟨fromA, hA⟩ := Option.isSome_iff_exists.mp hA
  obtain ⟨fromB, hB⟩ := Option.isSome_iff_exists.mp hB
  have hlabel : IsLabel (ascii "pc") := by decide
  have hla : Labelled lowPort ⟨_, hlabel⟩ ⟨_, hlabel⟩ := ⟨rfl, rfl⟩
  have hlb : Labelled highPort ⟨_, hlabel⟩ ⟨_, hlabel⟩ := ⟨rfl, rfl⟩
  refine ⟨fromA, fromB, hA, hB, (verdict hla hlb hB).mpr (.inl ?_),
    (verdict hlb hla hA).mpr (.inr ?_)⟩
  · decide
  · decide

end Satellite.Mdns
