import Satellite.Lib.Comparison
import Satellite.Mdns.Packets

/-!
# Packets seen while probing

The comparison of record sets of `mdns_protocol.cpp` and the verdict `mdns_responder.cpp`
passes on a packet that arrives while a host probes for its names.
-/

namespace Satellite.Mdns

open Comparison ProbeRecord List

def toLower (c : UInt8) : UInt8 := if 65 ≤ c ∧ c ≤ 90 then c + 32 else c

/-- Names are compared without regard to case. -/
def nameEqCi (x y : Bytes) : Bool := x.map toLower == y.map toLower

/-- Class, then type, then rdata byte by byte. -/
def compareOneRecord (a b : ProbeRecord) : Int :=
  first (number a.cls.toNat b.cls.toNat)
    (first (number a.type.toNat b.type.toNat)
      (lex (fun x y : UInt8 => number x.toNat y.toNat) a.rdata b.rdata))

/-- Records that compare equal may come in either order: no comparison tells them apart. -/
def sortRecords (rs : List ProbeRecord) : List ProbeRecord :=
  rs.insertionSort fun x y => compareOneRecord x y ≤ 0

def compareRecordSets (ours theirs : List ProbeRecord) : Int :=
  lex compareOneRecord (sortRecords ours) (sortRecords theirs)

def recordsForName (rs : List ProbeRecord) (fqdn : Bytes) : List ProbeRecord :=
  rs.filter fun r => nameEqCi r.name fqdn

inductive ProbeEvent
  | none
  | conflict
  | lostTiebreak
  deriving DecidableEq

/-- An answer for a name we are about to claim. -/
def hitsClaim (instanceFqdn hostFqdn : Bytes) (a : Answer) : Bool :=
  nameEqCi a.name instanceFqdn && (a.type == typeSrv || a.type == typeTxt || a.type == typeAny) ||
    nameEqCi a.name hostFqdn && a.type == typeA

/-- The tiebreak over one contested name; a name the peer does not probe is not contested. -/
def losesName (ours authority : List ProbeRecord) (contested : Bytes) : Bool :=
  !(recordsForName authority contested).isEmpty &&
    compareRecordSets (recordsForName ours contested) (recordsForName authority contested) < 0

def classifyProbePacket (packet instanceFqdn hostFqdn : Bytes) (ours : List ProbeRecord) :
    ProbeEvent :=
  match parsePacket packet with
  | .none => .none
  | .some p =>
    if p.header.flags &&& 0x8000 != 0 then
      if p.knownAnswers.any (hitsClaim instanceFqdn hostFqdn) then .conflict else .none
    -- a probe asks for one of our names and proposes records
    else if !p.questions.any (fun q => nameEqCi q.name instanceFqdn || nameEqCi q.name hostFqdn) ||
        p.authority.isEmpty then .none
    else if [instanceFqdn, hostFqdn].any (losesName ours p.authority) then .lostTiebreak
    else .none

/-! ## The order on record sets -/

theorem compareOneRecord_swap (a b : ProbeRecord) :
    compareOneRecord a b = -compareOneRecord b a := by
  apply first_swap (number_swap _ _)
  apply first_swap (number_swap _ _)
  exact lex_swap (fun _ _ => number_swap _ _) _ _

theorem compareRecordSets_swap (xs ys : List ProbeRecord) :
    compareRecordSets xs ys = -compareRecordSets ys xs :=
  lex_swap compareOneRecord_swap _ _

theorem compareOneRecord_eq_zero {a b : ProbeRecord} :
    compareOneRecord a b = 0 ↔ a.cls = b.cls ∧ a.type = b.type ∧ a.rdata = b.rdata := by
  simp only [compareOneRecord, first_eq_zero, number_eq_zero, UInt16.toNat_inj, lex_eq_zero,
    UInt8.toNat_inj, forall₂_eq_eq_eq]

theorem compareRecordSets_self (xs : List ProbeRecord) : compareRecordSets xs xs = 0 := by
  have := compareRecordSets_swap xs xs
  omega

/-- A side with no record for the name is never ahead of the other. -/
theorem compareRecordSets_nil (xs : List ProbeRecord) : 0 ≤ compareRecordSets xs [] :=
  lex_nil_right _

/-- A name the peer leaves out is not lost, whichever way it is asked. -/
theorem losesName_iff (ours authority : List ProbeRecord) (contested : Bytes) :
    losesName ours authority contested = true ↔
      compareRecordSets (recordsForName ours contested) (recordsForName authority contested) < 0 := by
  unfold losesName
  cases h : recordsForName authority contested with
  | nil =>
    have := compareRecordSets_nil (recordsForName ours contested)
    simp only [isEmpty_nil, Bool.not_true, Bool.false_and]
    grind
  | cons r rs => simp

/-- The verdict on a probe for our instance name. -/
theorem classifyProbePacket_probe {packet instanceFqdn hostFqdn : Bytes} {ours : List ProbeRecord}
    {p : Packet} (hp : parsePacket packet = .some p) (hquery : p.header.flags = 0)
    (hasks : ∃ q ∈ p.questions, q.name = instanceFqdn) (hauth : p.authority ≠ []) :
    classifyProbePacket packet instanceFqdn hostFqdn ours =
      if losesName ours p.authority instanceFqdn ∨ losesName ours p.authority hostFqdn then
        .lostTiebreak
      else .none := by
  obtain ⟨q, hq, rfl⟩ := hasks
  have hany : p.questions.any (fun q' => nameEqCi q'.name q.name || nameEqCi q'.name hostFqdn) =
      true := any_eq_true.mpr ⟨q, hq, by simp [nameEqCi]⟩
  simp [classifyProbePacket, hp, hquery, hany, hauth]

/-! ## What a set of records is compared by -/

/-- What the comparison sees of a record. -/
def ProbeRecord.identity (r : ProbeRecord) : UInt16 × UInt16 × Bytes := (r.cls, r.type, r.rdata)

def compareIdentities (a b : UInt16 × UInt16 × Bytes) : Int :=
  first (number a.1.toNat b.1.toNat)
    (first (number a.2.1.toNat b.2.1.toNat)
      (lex (fun x y : UInt8 => number x.toNat y.toNat) a.2.2 b.2.2))

theorem orders_compareIdentities : Orders compareIdentities := by
  have hcls : Orders fun a b : UInt16 × UInt16 × Bytes => number a.1.toNat b.1.toNat :=
    Orders.number.comap fun a : UInt16 × UInt16 × Bytes => a.1.toNat
  have htype : Orders fun a b : UInt16 × UInt16 × Bytes => number a.2.1.toNat b.2.1.toNat :=
    Orders.number.comap fun a : UInt16 × UInt16 × Bytes => a.2.1.toNat
  have hbytes : Orders (lex fun x y : UInt8 => number x.toNat y.toNat) :=
    (Orders.number.comap UInt8.toNat).lex
  exact hcls.first (htype.first (hbytes.comap fun a : UInt16 × UInt16 × Bytes => a.2.2))

theorem compareIdentities_eq_zero {a b : UInt16 × UInt16 × Bytes} :
    compareIdentities a b = 0 ↔ a = b := by
  simp only [compareIdentities, first_eq_zero, number_eq_zero, UInt16.toNat_inj, lex_eq_zero,
    UInt8.toNat_inj, forall₂_eq_eq_eq, Prod.ext_iff]

theorem orders_compareOneRecord : Orders compareOneRecord :=
  orders_compareIdentities.comap identity

theorem lex_compareOneRecord (xs ys : List ProbeRecord) :
    lex compareOneRecord xs ys =
      lex compareIdentities (xs.map identity) (ys.map identity) :=
  @lex_map _ _ compareIdentities identity xs ys

theorem pairwise_sortRecords (rs : List ProbeRecord) :
    (sortRecords rs).Pairwise fun a b => compareOneRecord a b ≤ 0 := by
  have : Std.Total fun a b => compareOneRecord a b ≤ 0 := ⟨orders_compareOneRecord.total⟩
  have : IsTrans ProbeRecord fun a b => compareOneRecord a b ≤ 0 := ⟨orders_compareOneRecord.trans⟩
  exact pairwise_insertionSort _ rs

/-- Sorted arrangements of the same identities have them in the same order. -/
theorem map_identity_eq {xs ys : List ProbeRecord}
    (hxs : xs.Pairwise fun a b => compareOneRecord a b ≤ 0)
    (hys : ys.Pairwise fun a b => compareOneRecord a b ≤ 0)
    (hp : (xs.map identity).Perm (ys.map identity)) :
    xs.map identity = ys.map identity := by
  apply orders_compareIdentities.eq_of_perm (fun _ _ => compareIdentities_eq_zero.mp) _ _ hp
  · exact pairwise_map.mpr hxs
  · exact pairwise_map.mpr hys

/-- However the sort leaves records that draw, the comparison comes out the same. -/
theorem lex_sorted {xs xs' ys ys' : List ProbeRecord} (hx : xs'.Perm xs) (hy : ys'.Perm ys)
    (hxs : xs'.Pairwise fun a b => compareOneRecord a b ≤ 0)
    (hys : ys'.Pairwise fun a b => compareOneRecord a b ≤ 0) :
    lex compareOneRecord xs' ys' = compareRecordSets xs ys := by
  have hsort : ∀ {zs zs' : List ProbeRecord}, zs'.Perm zs →
      zs'.Pairwise (fun a b => compareOneRecord a b ≤ 0) →
      zs'.map identity = (sortRecords zs).map identity := by
    intro zs zs' hz hzs
    exact map_identity_eq hzs (pairwise_sortRecords zs)
      ((hz.trans (perm_insertionSort _ zs).symm).map _)
  calc lex compareOneRecord xs' ys'
      = lex compareIdentities (xs'.map identity) (ys'.map identity) :=
        lex_compareOneRecord _ _
    _ = lex compareIdentities ((sortRecords xs).map identity)
          ((sortRecords ys).map identity) := by rw [hsort hx hxs, hsort hy hys]
    _ = compareRecordSets xs ys := (lex_compareOneRecord _ _).symm

theorem compareRecordSets_eq_zero {xs ys : List ProbeRecord} :
    compareRecordSets xs ys = 0 ↔
      (xs.map identity).Perm (ys.map identity) := by
  have hxs : ((sortRecords xs).map identity).Perm (xs.map identity) :=
    (perm_insertionSort _ xs).map _
  have hys : ((sortRecords ys).map identity).Perm (ys.map identity) :=
    (perm_insertionSort _ ys).map _
  have hdraw : compareRecordSets xs ys = 0 ↔
      (sortRecords xs).map identity = (sortRecords ys).map identity := by
    rw [compareRecordSets, lex_compareOneRecord]
    simp only [lex_eq_zero, compareIdentities_eq_zero, forall₂_eq_eq_eq]
  rw [hdraw]
  constructor
  · intro heq
    exact hxs.symm.trans (heq ▸ hys)
  · intro hp
    exact map_identity_eq (pairwise_sortRecords xs) (pairwise_sortRecords ys)
      (hxs.trans (hp.trans hys.symm))

/-- The comparison of record sets is a total preorder on lists of records, blind to their
arrangement and to how a sort leaves records that draw, and draws exactly between lists that
hold the same classes, types and rdata equally often. -/
theorem compareRecordSets_orders :
    (∀ xs ys, compareRecordSets xs ys = -compareRecordSets ys xs) ∧
    (∀ xs ys zs, compareRecordSets xs ys ≤ 0 → compareRecordSets ys zs ≤ 0 →
      compareRecordSets xs zs ≤ 0) ∧
    (∀ xs ys, compareRecordSets xs ys ≤ 0 ∨ compareRecordSets ys xs ≤ 0) ∧
    (∀ xs xs' ys ys', List.Perm xs' xs → List.Perm ys' ys →
      compareRecordSets xs' ys' = compareRecordSets xs ys) ∧
    (∀ xs xs' ys ys', List.Perm xs' xs → List.Perm ys' ys →
      xs'.Pairwise (fun a b => compareOneRecord a b ≤ 0) →
      ys'.Pairwise (fun a b => compareOneRecord a b ≤ 0) →
      lex compareOneRecord xs' ys' = compareRecordSets xs ys) ∧
    ∀ xs ys, compareRecordSets xs ys = 0 ↔
      (Multiset.ofList xs).map ProbeRecord.identity =
        (Multiset.ofList ys).map ProbeRecord.identity := by
  have horders : Orders compareRecordSets := orders_compareOneRecord.lex.comap sortRecords
  refine ⟨horders.swap, horders.trans, horders.total, ?_, fun _ _ _ _ => lex_sorted, ?_⟩
  · intro xs xs' ys ys' hx hy
    exact lex_sorted ((perm_insertionSort _ xs').trans hx)
      ((perm_insertionSort _ ys').trans hy) (pairwise_sortRecords xs')
      (pairwise_sortRecords ys')
  · intro xs ys
    rw [Multiset.map_coe, Multiset.map_coe, Multiset.coe_eq_coe]
    exact compareRecordSets_eq_zero

end Satellite.Mdns
