import GatewayControl.Proofs.Dns.AddressSet

/-!
# `GatewayControl.Proofs.Dns.Unmanaged` -- what address edits leave alone

A record set may hold more than the zone authority puts there: aliases, texts, values of types that are
not modelled, addresses of somebody else, the same address several times. `RecordSet.SameBut ips` says
that two sets differ in the records for the addresses `ips` alone: all else is the same, with its times to
live and in its order. Adding and removing the records for some addresses keeps to that
(`sameBut_addAll`, `sameBut_removeAll`), whatever the set holds.
-/

namespace GatewayControl

namespace Timed

variable {α : Type} [DecidableEq α] {p : Timed α → Bool} {records : List (Timed α)}

/-- Where a record is put in, those with other data stay as they are. -/
theorem filter_upsert {record : Timed α} (h : ∀ r : Timed α, r.data = record.data → p r = false) :
    (upsert record records).filter p = records.filter p := by
  induction records with
  | nil => exact List.filter_cons_of_neg (ne_true_of_eq_false (h record rfl))
  | cons r rest ih =>
    unfold upsert
    by_cases hr : r.data = record.data
    · rw [if_pos hr, List.filter_cons_of_neg (ne_true_of_eq_false (h record rfl)),
        List.filter_cons_of_neg (ne_true_of_eq_false (h r hr))]
    · rw [if_neg hr, List.filter_cons, List.filter_cons, ih]

theorem filter_without {data : α} (h : ∀ r : Timed α, r.data = data → p r = false) :
    (without data records).filter p = records.filter p := by
  unfold without
  rw [List.filter_filter]
  refine List.filter_congr fun r _ => ?_
  by_cases hr : r.data = data
  · rw [h r hr, Bool.false_and]
  · simp only [hr, ne_eq, not_false_eq_true, decide_true, Bool.and_true]

end Timed

/-! ## Records for addresses -/

namespace Record

/-- The record publishes one of the addresses, of which an IPv4-mapped one stands for the IPv4 address. -/
def isFor (ips : List Ip) (r : Record) : Bool := ips.any fun ip => decide (ofIp r.ttl ip = r)

theorem isFor_eq_true {ips : List Ip} {r : Record} :
    r.isFor ips = true ↔ ∃ ip ∈ ips, ofIp r.ttl ip = r := by
  simp only [isFor, List.any_eq_true, decide_eq_true_eq]

/-- A record with the data of an address publishes the address. -/
theorem isFor_of_sameData {ips : List Ip} {ip : Ip} {ttl : UInt32} {r : Record} (hip : ip ∈ ips)
    (h : r.sameData (ofIp ttl ip) = true) : r.isFor ips = true :=
  isFor_eq_true.2 ⟨ip, hip, (eq_ofIp_of_sameData h).symm⟩

theorem isFor_mono {ips more : List Ip} (hsub : ips ⊆ more) {r : Record} (h : r.isFor ips = true) :
    r.isFor more = true := by
  obtain ⟨ip, hip, hr⟩ := isFor_eq_true.1 h
  exact isFor_eq_true.2 ⟨ip, hsub hip, hr⟩

end Record

namespace RecordSet

/-- The sets differ in the records for these addresses alone: the same values of other types, the same
aliases and texts, and the same other addresses, in the same order and with the same times to live. -/
structure SameBut (ips : List Ip) (set now : RecordSet) : Prop where
  foreign : now.foreign = set.foreign
  cname : now.cname = set.cname
  txt : now.txt = set.txt
  a : now.a.filter (fun r => !(Record.a r).isFor ips) = set.a.filter fun r => !(Record.a r).isFor ips
  aaaa : now.aaaa.filter (fun r => !(Record.aaaa r).isFor ips) =
    set.aaaa.filter fun r => !(Record.aaaa r).isFor ips

variable {ips more : List Ip} {set now last : RecordSet} {ip : Ip} {ttl : UInt32}

namespace SameBut

theorem refl (ips : List Ip) (set : RecordSet) : SameBut ips set set := ⟨rfl, rfl, rfl, rfl, rfl⟩

theorem trans (h : SameBut ips set now) (h' : SameBut ips now last) : SameBut ips set last where
  foreign := h'.foreign.trans h.foreign
  cname := h'.cname.trans h.cname
  txt := h'.txt.trans h.txt
  a := h'.a.trans h.a
  aaaa := h'.aaaa.trans h.aaaa

/-- Records that are kept for some addresses are kept for more of them. -/
theorem mono (h : SameBut ips set now) (hsub : ips ⊆ more) : SameBut more set now := by
  -- what the longer list leaves is left of what the shorter one leaves
  have hleft : ∀ {α : Type} (mk : Timed α → Record) {records records' : List (Timed α)},
      records'.filter (fun r => !(mk r).isFor ips) = records.filter (fun r => !(mk r).isFor ips) →
      records'.filter (fun r => !(mk r).isFor more) = records.filter fun r => !(mk r).isFor more := by
    intro α mk records records' heq
    have htwice : ∀ list : List (Timed α), list.filter (fun r => !(mk r).isFor more) =
        (list.filter fun r => !(mk r).isFor ips).filter fun r => !(mk r).isFor more := by
      intro list
      rw [List.filter_filter]
      refine List.filter_congr fun r _ => ?_
      cases hmore : (mk r).isFor more with
      | true => rfl
      | false =>
        have hips : (mk r).isFor ips = false := by
          refine Bool.eq_false_iff.2 fun hips => ?_
          rw [Record.isFor_mono hsub hips] at hmore
          cases hmore
        rw [hips]
        rfl
    rw [htwice records', heq, ← htwice]
  exact ⟨h.foreign, h.cname, h.txt, hleft .a h.a, hleft .aaaa h.aaaa⟩

end SameBut

/-- The records with the data of an address are records for it. -/
theorem not_isFor_of_data {α : Type} (mk : Timed α → Record) (hip : ip ∈ ips)
    (hmk : ∀ r s, (mk r).sameData (mk s) = true ↔ r.data = s.data) {record : Timed α}
    (hrecord : Record.ofIp ttl ip = mk record) (r : Timed α) (hr : r.data = record.data) :
    (!(mk r).isFor ips) = false := by
  have hsame : (mk r).sameData (Record.ofIp ttl ip) = true := by
    rw [hrecord]
    exact (hmk r record).2 hr
  rw [Record.isFor_of_sameData hip hsame]
  rfl

theorem sameBut_insert (set : RecordSet) (ttl : UInt32) (hip : ip ∈ ips) :
    SameBut ips set (set.insert (Record.ofIp ttl ip)) := by
  have haddress := Record.isAddress_ofIp ttl ip
  cases hrecord : Record.ofIp ttl ip with
  | a record =>
    have hout := not_isFor_of_data .a hip (fun _ _ => beq_iff_eq) hrecord
    exact ⟨rfl, rfl, rfl, Timed.filter_upsert hout, rfl⟩
  | aaaa record =>
    have hout := not_isFor_of_data .aaaa hip (fun _ _ => beq_iff_eq) hrecord
    exact ⟨rfl, rfl, rfl, rfl, Timed.filter_upsert hout⟩
  | cname record | txt record =>
    rw [hrecord] at haddress
    exact absurd haddress id

theorem sameBut_erase (set : RecordSet) (ttl : UInt32) (hip : ip ∈ ips) :
    SameBut ips set (set.erase (Record.ofIp ttl ip)) := by
  have haddress := Record.isAddress_ofIp ttl ip
  cases hrecord : Record.ofIp ttl ip with
  | a record =>
    have hout := not_isFor_of_data .a hip (fun _ _ => beq_iff_eq) hrecord
    exact ⟨rfl, rfl, rfl, Timed.filter_without hout, rfl⟩
  | aaaa record =>
    have hout := not_isFor_of_data .aaaa hip (fun _ _ => beq_iff_eq) hrecord
    exact ⟨rfl, rfl, rfl, rfl, Timed.filter_without hout⟩
  | cname record | txt record =>
    rw [hrecord] at haddress
    exact absurd haddress id

/-- **Adding addresses** leaves everything else alone. -/
theorem sameBut_addAll (set : RecordSet) (ttl : UInt32) (hsub : more ⊆ ips) :
    SameBut ips set (set.addAll (more.map (Record.ofIp ttl))).2 := by
  induction more generalizing set with
  | nil => exact .refl ips set
  | cons ip rest ih =>
    obtain ⟨hip, hrest⟩ := List.cons_subset.1 hsub
    exact (sameBut_insert set ttl hip).trans (ih (set.insert (Record.ofIp ttl ip)) hrest)

/-- **Removing addresses** leaves everything else alone. -/
theorem sameBut_removeAll (set : RecordSet) (ttl : UInt32) (hsub : more ⊆ ips) :
    SameBut ips set (set.removeAll (more.map (Record.ofIp ttl))).2 := by
  induction more generalizing set with
  | nil => exact .refl ips set
  | cons ip rest ih =>
    obtain ⟨hip, hrest⟩ := List.cons_subset.1 hsub
    exact (sameBut_erase set ttl hip).trans (ih (set.erase (Record.ofIp ttl ip)) hrest)

/-! ## Sets with nothing in them -/

theorem isVoid_eq_true {v : Json.Value} : isVoid v = true ↔ v = .null ∨ v = .array [] := by
  unfold isVoid
  split <;> simp_all

/-- No record is left of any modelled type, and the values of other types are null or empty lists. -/
theorem isEmpty_eq_true : set.isEmpty = true ↔
    set.a = [] ∧ set.aaaa = [] ∧ set.cname = [] ∧ set.txt = [] ∧
      ∀ p ∈ set.foreign, p.2 = .null ∨ p.2 = .array [] := by
  simp only [isEmpty, toList, RecordType.all, get, Bool.and_eq_true, List.isEmpty_iff, List.all_eq_true,
    isVoid_eq_true, List.flatMap_cons, List.flatMap_nil, List.append_eq_nil_iff, List.map_eq_nil_iff,
    and_true, and_assoc]

end RecordSet
end GatewayControl
