import GatewayControl.Authority.Zone

/-!
# `GatewayControl.Proofs.Dns.AddressSet` -- the record sets that the zone authority keeps

The authority adds address records only, each of them once: `IsAddressSet` is what the record sets
it writes have in common. Adding and removing lists of addresses preserves it, and a list of
addresses that is added to the empty set changes it. Of any set it is said what it holds after records were
added, and that adding or removing them once more changes nothing (`addAll_addAll`, `removeAll_removeAll`).
-/

namespace GatewayControl

namespace Timed

variable {α : Type} [DecidableEq α]

/-- Refreshing keeps the data, and new data goes to the end. -/
theorem map_data_upsert (record : Timed α) (records : List (Timed α)) :
    (upsert record records).map (·.data) =
      if record.data ∈ records.map (·.data) then records.map (·.data)
      else records.map (·.data) ++ [record.data] := by
  induction records with
  | nil => rfl
  | cons r rest ih =>
    unfold upsert
    by_cases h : r.data = record.data
    · simp [h]
    · have hne : record.data ≠ r.data := fun heq => h heq.symm
      rw [if_neg h, List.map_cons, ih, List.map_cons]
      simp only [List.mem_cons, hne, false_or, List.cons_append]
      split <;> rfl

/-- A list holds the data that were put in, and those that it held. -/
theorem mem_map_data_upsert (record : Timed α) (records : List (Timed α)) (data : α) :
    data ∈ (upsert record records).map (·.data) ↔ record.data = data ∨ data ∈ records.map (·.data) := by
  rw [map_data_upsert]
  split
  · next h => exact ⟨.inr, fun hd => hd.elim (fun heq => heq ▸ h) id⟩
  · rw [List.mem_append, List.mem_singleton, or_comm, eq_comm]

theorem mem_upsert {record r : Timed α} {records : List (Timed α)} (h : r ∈ upsert record records) :
    r = record ∨ r ∈ records := by
  induction records with
  | nil => exact .inl (List.mem_singleton.1 h)
  | cons s rest ih =>
    unfold upsert at h
    split at h
    · rcases List.mem_cons.1 h with h | h
      · exact .inl h
      · exact .inr (List.mem_cons_of_mem _ h)
    · rcases List.mem_cons.1 h with h | h
      · exact .inr (h ▸ List.mem_cons_self ..)
      · exact (ih h).imp_right (List.mem_cons_of_mem _)

theorem upsert_ne_nil (record : Timed α) (records : List (Timed α)) : upsert record records ≠ [] := by
  cases records with
  | nil => exact List.cons_ne_nil _ _
  | cons r rest =>
    unfold upsert
    split <;> exact List.cons_ne_nil _ _

/-- A record that is put in takes the place of the one with its data. -/
theorem nodup_upsert {record : Timed α} {records : List (Timed α)}
    (h : (records.map (·.data)).Nodup) : ((upsert record records).map (·.data)).Nodup := by
  rw [map_data_upsert]
  split
  · exact h
  · next hnew =>
    rw [List.nodup_append]
    refine ⟨h, List.nodup_cons.2 ⟨List.not_mem_nil, List.nodup_nil⟩, ?_⟩
    intro d hd e he hde
    rw [List.mem_singleton] at he
    exact hnew (he ▸ hde ▸ hd)

/-- Putting a record where it is already changes nothing. -/
theorem upsert_eq_self {record : Timed α} {records : List (Timed α)}
    (h : (records.find? fun r => r.data == record.data) = some record) :
    upsert record records = records := by
  induction records with
  | nil => cases h
  | cons r rest ih =>
    unfold upsert
    by_cases hr : r.data = record.data
    · rw [List.find?_cons_of_pos (by simpa using hr)] at h
      cases h
      rw [if_pos rfl]
    · rw [List.find?_cons_of_neg (by simpa using hr)] at h
      rw [if_neg hr, ih h]

/-- Dropping data that is not there changes nothing. -/
theorem without_eq_self {data : α} {records : List (Timed α)}
    (h : (records.any fun r => r.data == data) = false) : without data records = records := by
  refine List.filter_eq_self.2 fun r hr => ?_
  simp only [List.any_eq_false, beq_iff_eq] at h
  exact decide_eq_true (h r hr)

/-- The record that was put is the one with its data. -/
theorem find?_upsert (record : Timed α) (records : List (Timed α)) (data : α) :
    ((upsert record records).find? fun r => r.data == data) =
      if record.data = data then some record else records.find? fun r => r.data == data := by
  induction records with
  | nil => by_cases hd : record.data = data <;> simp [upsert, hd]
  | cons r rest ih =>
    unfold upsert
    by_cases hr : r.data = record.data
    · rw [if_pos hr]
      by_cases hd : record.data = data <;> simp [hr, hd]
    · rw [if_neg hr, List.find?_cons, List.find?_cons, ih]
      by_cases hd : r.data = data
      · have hne : record.data ≠ data := fun heq => hr (hd.trans heq.symm)
        simp [hd, hne]
      · have hother : (r.data == data) = false := beq_eq_false_iff_ne.2 hd
        simp only [hother]

theorem mem_map_data_without (data other : α) (records : List (Timed α)) :
    other ∈ (without data records).map (·.data) ↔ data ≠ other ∧ other ∈ records.map (·.data) := by
  unfold without
  simp only [List.mem_map, List.mem_filter, decide_eq_true_eq]
  constructor
  · rintro ⟨r, ⟨hr, hne⟩, rfl⟩
    exact ⟨hne.symm, r, hr, rfl⟩
  · rintro ⟨hne, r, hr, rfl⟩
    exact ⟨r, ⟨hr, hne.symm⟩, rfl⟩

/-- Data that is dropped need not be put in first. -/
theorem without_upsert (record : Timed α) (records : List (Timed α)) :
    without record.data (upsert record records) = without record.data records := by
  induction records with
  | nil => simp [upsert, without]
  | cons r rest ih =>
    unfold upsert
    by_cases hr : r.data = record.data
    · rw [if_pos hr]
      simp [without, hr]
    · rw [if_neg hr]
      simpa [without, List.filter_cons, hr] using ih

/-- A record is put in alike before and after other data is dropped. -/
theorem without_upsert_of_ne {record : Timed α} {data : α} (h : record.data ≠ data)
    (records : List (Timed α)) :
    without data (upsert record records) = upsert record (without data records) := by
  induction records with
  | nil => simp [upsert, without, h]
  | cons r rest ih =>
    unfold without at ih ⊢
    by_cases hr : r.data = record.data
    · simp [upsert, hr, h]
    · have hput : ∀ kept, upsert record (r :: kept) = r :: upsert record kept := fun _ => if_neg hr
      rw [hput, List.filter_cons, List.filter_cons, ih]
      split
      · rw [hput]
      · rfl

theorem nodup_without {data : α} {records : List (Timed α)} (h : (records.map (·.data)).Nodup) :
    ((without data records).map (·.data)).Nodup :=
  h.sublist (List.filter_sublist.map _)

end Timed

/-- An address record; an IPv4 address is never kept in its IPv6 form. -/
def Record.IsAddress : Record → Prop
  | .a _ => True
  | .aaaa r => r.data.toIpv4Mapped? = none
  | .cname _ | .txt _ => False

theorem Record.sameData_self (r : Record) : r.sameData r = true := by
  cases r <;> exact beq_self_eq_true _

theorem Record.eq_of_sameData {r s : Record} (h : r.sameData s = true) (httl : r.ttl = s.ttl) :
    r = s := by
  have heq : ∀ {α : Type} {r s : Timed α}, r.data = s.data → r.ttl = s.ttl → r = s := by
    rintro α ⟨data, ttl⟩ ⟨-, -⟩ rfl rfl
    rfl
  cases r <;> cases s <;> first
    | exact congrArg _ (heq (eq_of_beq h) httl)
    | cases h

theorem Record.ttl_ofIp (ttl : UInt32) (ip : Ip) : (Record.ofIp ttl ip).ttl = ttl := by
  unfold Record.ofIp
  cases ip with
  | v4 ip => rfl
  | v6 ip =>
    dsimp only
    split <;> rfl

theorem Record.sameData_ofIp (ttl ttl' : UInt32) (ip : Ip) :
    (Record.ofIp ttl ip).sameData (Record.ofIp ttl' ip) = true := by
  unfold Record.ofIp
  cases ip with
  | v4 ip => exact beq_self_eq_true _
  | v6 ip =>
    dsimp only
    split <;> exact beq_self_eq_true _

/-- A record with the data of an address is the record for it, with a time to live of its own. -/
theorem Record.eq_ofIp_of_sameData {ttl : UInt32} {ip : Ip} {r : Record}
    (h : r.sameData (Record.ofIp ttl ip) = true) : r = Record.ofIp r.ttl ip := by
  refine Record.eq_of_sameData ?_ (Record.ttl_ofIp r.ttl ip).symm
  unfold Record.ofIp at h ⊢
  cases ip with
  | v4 ip => cases r <;> exact h
  | v6 ip =>
    dsimp only at h ⊢
    split at h <;> cases r <;> exact h

theorem Record.isAddress_ofIp (ttl : UInt32) (ip : Ip) : (Record.ofIp ttl ip).IsAddress := by
  unfold Record.ofIp
  cases ip with
  | v4 ip => exact trivial
  | v6 ip =>
    cases h : ip.toIpv4Mapped? with
    | some v4 =>
      simp only [h]
      exact trivial
    | none =>
      simp only [h]
      exact h

namespace RecordSet

/-- A set of address records alone, with no address twice. -/
structure IsAddressSet (set : RecordSet) : Prop where
  cname : set.cname = []
  txt : set.txt = []
  foreign : set.foreign = []
  nodup_a : (set.a.map (·.data)).Nodup
  nodup_aaaa : (set.aaaa.map (·.data)).Nodup
  not_mapped : ∀ r ∈ set.aaaa, r.data.toIpv4Mapped? = none

theorem isAddressSet_empty : IsAddressSet empty where
  cname := rfl
  txt := rfl
  foreign := rfl
  nodup_a := List.nodup_nil
  nodup_aaaa := List.nodup_nil
  not_mapped := fun r hr => by cases hr

namespace IsAddressSet

variable {set : RecordSet} {r : Record}

theorem insert (h : set.IsAddressSet) (hr : r.IsAddress) : (set.insert r).IsAddressSet := by
  cases r with
  | a r => exact { h with nodup_a := Timed.nodup_upsert h.nodup_a }
  | aaaa r =>
    refine { h with nodup_aaaa := Timed.nodup_upsert h.nodup_aaaa, not_mapped := ?_ }
    intro s hs
    rcases Timed.mem_upsert hs with hs | hs
    · rw [hs]
      exact hr
    · exact h.not_mapped s hs
  | cname r => exact absurd hr id
  | txt r => exact absurd hr id

theorem erase (h : set.IsAddressSet) (r : Record) : (set.erase r).IsAddressSet := by
  cases r with
  | a r => exact { h with nodup_a := Timed.nodup_without h.nodup_a }
  | aaaa r =>
    refine { h with nodup_aaaa := Timed.nodup_without h.nodup_aaaa, not_mapped := ?_ }
    intro s hs
    exact h.not_mapped s (List.mem_filter.1 hs).1
  -- there are no records of the other types that could be removed
  | cname r =>
    have hnone : Timed.without r.data set.cname = [] := by
      rw [h.cname]
      rfl
    exact { h with cname := hnone }
  | txt r =>
    have hnone : Timed.without r.data set.txt = [] := by
      rw [h.txt]
      rfl
    exact { h with txt := hnone }

theorem addAll (h : set.IsAddressSet) {records : List Record} (hr : ∀ r ∈ records, r.IsAddress) :
    (set.addAll records).2.IsAddressSet := by
  induction records generalizing set with
  | nil => exact h
  | cons r rest ih =>
    exact ih (h.insert (hr r (List.mem_cons_self ..))) fun s hs => hr s (List.mem_cons_of_mem _ hs)

theorem removeAll (h : set.IsAddressSet) (records : List Record) :
    (set.removeAll records).2.IsAddressSet := by
  induction records generalizing set with
  | nil => exact h
  | cons r rest ih => exact ih (h.erase r)

/-- Such a set is empty if it has no address. -/
theorem isEmpty_iff (h : set.IsAddressSet) : set.isEmpty = true ↔ set.a = [] ∧ set.aaaa = [] := by
  simp [isEmpty, toList, RecordType.all, RecordSet.get, h.cname, h.txt, h.foreign]

theorem eq_empty (h : set.IsAddressSet) (hempty : set.isEmpty = true) : set = empty := by
  obtain ⟨a, aaaa, cname, txt, foreign⟩ := set
  obtain ⟨rfl, rfl⟩ := h.isEmpty_iff.1 hempty
  obtain rfl : cname = [] := h.cname
  obtain rfl : txt = [] := h.txt
  obtain rfl : foreign = [] := h.foreign
  rfl

theorem isEmpty_insert (h : set.IsAddressSet) (hr : r.IsAddress) :
    (set.insert r).isEmpty = false := by
  rw [Bool.eq_false_iff, ne_eq, (h.insert hr).isEmpty_iff]
  rintro ⟨ha, haaaa⟩
  cases r with
  | a r => exact Timed.upsert_ne_nil r set.a ha
  | aaaa r => exact Timed.upsert_ne_nil r set.aaaa haaaa
  | cname r => exact hr
  | txt r => exact hr

/-- After addresses were added, the set is not empty. -/
theorem isEmpty_addAll (h : set.IsAddressSet) {records : List Record}
    (hr : ∀ r ∈ records, r.IsAddress) (hne : set.isEmpty = false ∨ records ≠ []) :
    (set.addAll records).2.isEmpty = false := by
  induction records generalizing set with
  | nil => exact hne.resolve_right fun h => h rfl
  | cons r rest ih =>
    have haddr := hr r (List.mem_cons_self ..)
    exact ih (h.insert haddr) (fun s hs => hr s (List.mem_cons_of_mem _ hs))
      (.inl (h.isEmpty_insert haddr))

end IsAddressSet

/-- Adding to the empty set changes it. -/
theorem addAll_empty {records : List Record} (hne : records ≠ []) :
    (empty.addAll records).1 = true := by
  cases records with
  | nil => exact absurd rfl hne
  | cons r rest =>
    have hchanges : empty.addChanges r = true := by
      cases r <;> rfl
    unfold addAll add
    simp only [hchanges, Bool.true_or]

theorem upsert_eq_self_of_find? {α : Type} [DecidableEq α] (mk : Timed α → Record)
    (hinj : ∀ s t, mk s = mk t → s = t) {record : Timed α} {records : List (Timed α)}
    (hsame : ∀ s, (mk s).sameData (mk record) = (s.data == record.data))
    (h : (records.map mk).find? (fun s => s.sameData (mk record)) = some (mk record)) :
    Timed.upsert record records = records := by
  rw [List.find?_map, Option.map_eq_some_iff] at h
  obtain ⟨t, ht, hmk⟩ := h
  have htr : t = record := hinj t record hmk
  have hpred : ((fun s => s.sameData (mk record)) ∘ mk) = fun s => s.data == record.data :=
    funext hsame
  rw [htr, hpred] at ht
  exact Timed.upsert_eq_self ht

theorem without_eq_self_of_any {α : Type} [DecidableEq α] (mk : Timed α → Record) {record : Timed α}
    {records : List (Timed α)} (hsame : ∀ s, (mk s).sameData (mk record) = (s.data == record.data))
    (h : (records.map mk).any (fun s => s.sameData (mk record)) = false) :
    Timed.without record.data records = records := by
  have hpred : ((fun s => s.sameData (mk record)) ∘ mk) = fun s => s.data == record.data :=
    funext hsame
  rw [List.any_map, hpred] at h
  exact Timed.without_eq_self h

/-- Putting in a record that is present with its time to live has no effect. -/
theorem insert_eq_self {set : RecordSet} {r : Record} (h : set.addChanges r = false) :
    set.insert r = set := by
  have hfind : set.find? r = some r := by
    unfold addChanges at h
    simpa using h
  cases r with
  | a r =>
    have hl := upsert_eq_self_of_find? Record.a (fun s t h => by injection h) (fun _ => rfl) hfind
    rw [insert, hl]
  | aaaa r =>
    have hl := upsert_eq_self_of_find? Record.aaaa (fun s t h => by injection h) (fun _ => rfl) hfind
    rw [insert, hl]
  | cname r =>
    have hl := upsert_eq_self_of_find? Record.cname (fun s t h => by injection h) (fun _ => rfl) hfind
    rw [insert, hl]
  | txt r =>
    have hl := upsert_eq_self_of_find? Record.txt (fun s t h => by injection h) (fun _ => rfl) hfind
    rw [insert, hl]

theorem erase_eq_self {set : RecordSet} {r : Record} (h : set.contains r = false) :
    set.erase r = set := by
  cases r with
  | a r => rw [erase, without_eq_self_of_any Record.a (fun _ => rfl) h]
  | aaaa r => rw [erase, without_eq_self_of_any Record.aaaa (fun _ => rfl) h]
  | cname r => rw [erase, without_eq_self_of_any Record.cname (fun _ => rfl) h]
  | txt r => rw [erase, without_eq_self_of_any Record.txt (fun _ => rfl) h]

/-- Adding records that are all present leaves the set as it is. -/
theorem addAll_eq_self {set : RecordSet} {records : List Record} (h : (set.addAll records).1 = false) :
    (set.addAll records).2 = set := by
  induction records generalizing set with
  | nil => rfl
  | cons r rest ih =>
    unfold addAll add at h ⊢
    simp only [Bool.or_eq_false_iff] at h ⊢
    obtain ⟨hr, hrest⟩ := h
    rw [insert_eq_self hr] at hrest ⊢
    exact ih hrest

/-- Removing records none of which is present leaves the set as it is. -/
theorem removeAll_eq_self {set : RecordSet} {records : List Record}
    (h : (set.removeAll records).1 = false) : (set.removeAll records).2 = set := by
  induction records generalizing set with
  | nil => rfl
  | cons r rest ih =>
    unfold removeAll remove at h ⊢
    simp only [Bool.or_eq_false_iff] at h ⊢
    obtain ⟨hr, hrest⟩ := h
    rw [erase_eq_self hr] at hrest ⊢
    exact ih hrest

theorem removeAll_empty (records : List Record) : (empty.removeAll records).2 = empty := by
  induction records with
  | nil => rfl
  | cons r rest ih =>
    have herase : empty.erase r = empty := by
      cases r <;> rfl
    unfold removeAll remove
    simp only [herase, ih]

section Contents

variable {set : RecordSet} {r s : Record} {records : List Record}

/-! ## What a set holds -/

theorem contains_eq_true :
    set.contains r = true ↔ match r with
      | .a r => r.data ∈ set.a.map (·.data)
      | .aaaa r => r.data ∈ set.aaaa.map (·.data)
      | .cname r => r.data ∈ set.cname.map (·.data)
      | .txt r => r.data ∈ set.txt.map (·.data) := by
  cases r <;> simp [contains, get, Record.type, Record.sameData]

/-- A record that was inserted is there, and so is what was there before. -/
theorem contains_insert : (set.insert r).contains s = true ↔ r.sameData s = true ∨ set.contains s = true := by
  rw [contains_eq_true, contains_eq_true]
  cases r <;> cases s <;>
    simp only [insert, Record.sameData, Timed.mem_map_data_upsert, beq_iff_eq, Bool.false_eq_true,
      false_or]

theorem contains_addAll (h : r ∈ records ∨ set.contains r = true) :
    (set.addAll records).2.contains r = true := by
  induction records generalizing set with
  | nil => exact h.resolve_left List.not_mem_nil
  | cons s rest ih =>
    refine ih ?_
    rw [contains_insert]
    rcases h with h | h
    · rcases List.mem_cons.1 h with rfl | h
      · refine .inr (.inl ?_)
        cases r <;> exact beq_self_eq_true _
      · exact .inl h
    · exact .inr (.inr h)

/-- What is in a set after an insertion was inserted, or was there. -/
theorem mem_toList_insert (h : s ∈ (set.insert r).toList) : s = r ∨ s ∈ set.toList := by
  have hget : ∀ t, s ∈ (set.insert r).get t → s = r ∨ s ∈ set.get t := by
    intro t ht
    cases r <;> cases t <;> first
      | exact .inr ht
      | obtain ⟨u, hu, rfl⟩ := List.mem_map.1 ht
        exact (Timed.mem_upsert hu).imp (congrArg _) List.mem_map_of_mem
  obtain ⟨t, ht, hs⟩ := List.mem_flatMap.1 h
  exact (hget t hs).imp_right fun hs => List.mem_flatMap.2 ⟨t, ht, hs⟩

theorem mem_toList_addAll (h : s ∈ (set.addAll records).2.toList) :
    s ∈ records ∨ s ∈ set.toList := by
  induction records generalizing set with
  | nil => exact .inr h
  | cons r rest ih =>
    rcases ih h with h | h
    · exact .inl (List.mem_cons_of_mem _ h)
    · rcases mem_toList_insert h with rfl | h
      · exact .inl (List.mem_cons_self ..)
      · exact .inr h

/-- A set that holds a record is not empty. -/
theorem ne_empty_of_contains (h : set.contains r = true) : set ≠ empty := by
  rintro rfl
  rw [contains_eq_true] at h
  cases r <;> cases h

/-! ## Doing it again -/

theorem find?_map_upsert {α : Type} [DecidableEq α] (mk : Timed α → Record)
    (hmk : ∀ t u, (mk t).sameData (mk u) = (t.data == u.data)) (r s : Timed α)
    (records : List (Timed α)) :
    ((Timed.upsert r records).map mk).find? (fun t => t.sameData (mk s)) =
      if (mk r).sameData (mk s) = true then some (mk r)
      else (records.map mk).find? fun t => t.sameData (mk s) := by
  have hpred : ((fun t => t.sameData (mk s)) ∘ mk) = fun t => t.data == s.data :=
    funext fun t => hmk t s
  rw [List.find?_map, List.find?_map, hpred, Timed.find?_upsert, hmk]
  by_cases h : r.data = s.data <;> simp [h]

/-- The record that was inserted is the one with its data. -/
theorem find?_insert (set : RecordSet) (r s : Record) :
    (set.insert r).find? s = if r.sameData s = true then some r else set.find? s := by
  cases r <;> cases s <;> first
    | exact find?_map_upsert _ (fun _ _ => rfl) _ _ _
    | rfl

/-- A record that was put in, or was there, is found unless another one with its data was put in. -/
theorem find?_addAll (hsame : ∀ s ∈ records, s.sameData r = true → s = r)
    (h : r ∈ records ∨ set.find? r = some r) : (set.addAll records).2.find? r = some r := by
  induction records generalizing set with
  | nil => exact h.resolve_left List.not_mem_nil
  | cons s rest ih =>
    refine ih (fun t ht => hsame t (List.mem_cons_of_mem _ ht)) ?_
    rw [find?_insert]
    by_cases hs : s.sameData r = true
    · rw [if_pos hs, hsame s (List.mem_cons_self ..) hs]
      exact .inr rfl
    · rw [if_neg hs]
      refine h.imp_left fun hr => (List.mem_cons.1 hr).resolve_left ?_
      rintro rfl
      exact hs r.sameData_self

theorem addAll_of_find? (h : ∀ r ∈ records, set.find? r = some r) :
    set.addAll records = (false, set) := by
  induction records with
  | nil => rfl
  | cons r rest ih =>
    have hkept : set.addChanges r = false := by
      unfold addChanges
      rw [h r (List.mem_cons_self ..)]
      exact bne_self_eq_false _
    unfold addAll add
    simp only [hkept, insert_eq_self hkept, ih fun s hs => h s (List.mem_cons_of_mem _ hs), Bool.or_self]

/-- **Adding again** what was added changes nothing, if no two of the records differ in the time to live
alone. -/
theorem addAll_addAll (set : RecordSet)
    (hsame : ∀ r ∈ records, ∀ s ∈ records, s.sameData r = true → s = r) :
    (set.addAll records).2.addAll records = (false, (set.addAll records).2) :=
  addAll_of_find? fun r hr => find?_addAll (hsame r hr) (.inl hr)

theorem contains_erase :
    (set.erase r).contains s = true ↔ r.sameData s = false ∧ set.contains s = true := by
  rw [contains_eq_true, contains_eq_true]
  cases r <;> cases s <;>
    simp only [erase, Record.sameData, Timed.mem_map_data_without, beq_eq_false_iff_ne, ne_eq, true_and]

theorem not_mem_of_contains_removeAll (h : (set.removeAll records).2.contains r = true) :
    set.contains r = true ∧ r ∉ records := by
  induction records generalizing set with
  | nil => exact ⟨h, List.not_mem_nil⟩
  | cons s rest ih =>
    obtain ⟨hset, hrest⟩ := ih h
    rw [contains_erase] at hset
    refine ⟨hset.2, fun hr => (List.mem_cons.1 hr).elim ?_ hrest⟩
    rintro rfl
    rw [r.sameData_self] at hset
    exact absurd hset.1 (by decide)

/-- Removing records that are absent has no effect. -/
theorem removeAll_of_not_contains (h : ∀ r ∈ records, set.contains r = false) :
    set.removeAll records = (false, set) := by
  induction records with
  | nil => rfl
  | cons r rest ih =>
    have hr := h r (List.mem_cons_self ..)
    unfold removeAll remove
    simp only [hr, erase_eq_self hr, ih fun s hs => h s (List.mem_cons_of_mem _ hs), Bool.or_self]

/-- **Removing again** what was removed changes nothing. -/
theorem removeAll_removeAll (set : RecordSet) (records : List Record) :
    (set.removeAll records).2.removeAll records = (false, (set.removeAll records).2) :=
  removeAll_of_not_contains fun _ hr =>
    Bool.eq_false_iff.2 fun hc => (not_mem_of_contains_removeAll hc).2 hr

/-! ## Taking back -/

/-- Data that is removed need not be inserted first. -/
theorem erase_insert (h : r.sameData s = true) : (set.insert r).erase s = set.erase s := by
  cases r <;> cases s <;> first
    | cases h
    | obtain heq := eq_of_beq h
      simp only [insert, erase, ← heq, Timed.without_upsert]

/-- A record is inserted alike before and after other data is removed. -/
theorem erase_insert_of_ne (h : r.sameData s = false) :
    (set.insert r).erase s = (set.erase s).insert r := by
  cases r <;> cases s <;> first
    | rfl
    | obtain hne := ne_of_beq_false h
      simp only [insert, erase, Timed.without_upsert_of_ne hne]

/-- Removing is about data: the time to live does not matter. -/
theorem remove_congr (h : r.sameData s = true) : set.remove r = set.remove s := by
  have hcontains : set.contains r = set.contains s := by
    rw [Bool.eq_iff_iff, contains_eq_true, contains_eq_true]
    cases r <;> cases s <;> first
      | cases h
      | simp only [eq_of_beq h]
  have herase : set.erase r = set.erase s := by
    cases r <;> cases s <;> first
      | cases h
      | simp only [erase, eq_of_beq h]
  unfold remove
  rw [hcontains, herase]

theorem removeAll_map_congr {ι : Type} {f g : ι → Record} (h : ∀ i, (f i).sameData (g i) = true)
    (indices : List ι) : set.removeAll (indices.map f) = set.removeAll (indices.map g) := by
  induction indices generalizing set with
  | nil => rfl
  | cons i rest ih => simp only [List.map_cons, removeAll, remove_congr (h i), ih]

theorem removeAll_insert (h : ∃ s ∈ records, r.sameData s = true) :
    ((set.insert r).removeAll records).2 = (set.removeAll records).2 := by
  induction records generalizing set with
  | nil =>
    obtain ⟨s, hs, -⟩ := h
    cases hs
  | cons s rest ih =>
    unfold removeAll remove
    simp only
    by_cases hrs : r.sameData s = true
    · rw [erase_insert hrs]
    · rw [erase_insert_of_ne (Bool.eq_false_iff.2 hrs)]
      refine ih ?_
      obtain ⟨u, hu, hru⟩ := h
      rcases List.mem_cons.1 hu with rfl | hu
      · exact absurd hru hrs
      · exact ⟨u, hu, hru⟩

/-- **Removing what was added** leaves what removing it at once would have left. -/
theorem removeAll_addAll {added : List Record} (h : ∀ r ∈ added, ∃ s ∈ records, r.sameData s = true) :
    ((set.addAll added).2.removeAll records).2 = (set.removeAll records).2 := by
  induction added generalizing set with
  | nil => rfl
  | cons r rest ih =>
    have hrest : (((set.insert r).addAll rest).2.removeAll records).2 =
        ((set.insert r).removeAll records).2 := ih fun s hs => h s (List.mem_cons_of_mem _ hs)
    exact hrest.trans (removeAll_insert (h r (List.mem_cons_self ..)))

end Contents

end RecordSet

theorem ZoneAuthority.isAddress_of_mem_recordsOf {auth : ZoneAuthority} {ips : List Ip} {r : Record}
    (h : r ∈ auth.recordsOf ips) : r.IsAddress := by
  obtain ⟨ip, -, rfl⟩ := List.mem_map.1 h
  exact Record.isAddress_ofIp _ ip

theorem ZoneAuthority.eq_of_sameData_recordsOf {auth : ZoneAuthority} {ips : List Ip} {r s : Record}
    (hr : r ∈ auth.recordsOf ips) (hs : s ∈ auth.recordsOf ips) (h : s.sameData r = true) : s = r := by
  obtain ⟨i, -, rfl⟩ := List.mem_map.1 hr
  obtain ⟨j, -, rfl⟩ := List.mem_map.1 hs
  exact Record.eq_of_sameData h ((Record.ttl_ofIp _ j).trans (Record.ttl_ofIp _ i).symm)

/-- Addresses that one authority has published it does not publish again. -/
theorem ZoneAuthority.addAll_recordsOf (auth : ZoneAuthority) (set : RecordSet) (ips : List Ip) :
    ((set.addAll (auth.recordsOf ips)).2.addAll (auth.recordsOf ips)).2 =
      (set.addAll (auth.recordsOf ips)).2 := by
  rw [RecordSet.addAll_addAll set fun r hr s hs => eq_of_sameData_recordsOf hr hs]

/-- An address is withdrawn whatever its time to live. -/
theorem ZoneAuthority.removeAll_recordsOf (auth auth' : ZoneAuthority) (set : RecordSet) (ips : List Ip) :
    set.removeAll (auth.recordsOf ips) = set.removeAll (auth'.recordsOf ips) :=
  RecordSet.removeAll_map_congr (Record.sameData_ofIp auth.recordTtl auth'.recordTtl) ips

/-- Addresses that are withdrawn need not be published first. -/
theorem ZoneAuthority.removeAll_addAll_recordsOf (auth auth' : ZoneAuthority) (set : RecordSet)
    (ips : List Ip) :
    ((set.addAll (auth.recordsOf ips)).2.removeAll (auth'.recordsOf ips)).2 =
      (set.removeAll (auth'.recordsOf ips)).2 := by
  refine RecordSet.removeAll_addAll fun r hr => ?_
  obtain ⟨ip, hip, rfl⟩ := List.mem_map.1 hr
  exact ⟨_, List.mem_map_of_mem hip, Record.sameData_ofIp _ _ ip⟩

end GatewayControl
