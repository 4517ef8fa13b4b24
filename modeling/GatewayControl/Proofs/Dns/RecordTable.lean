import GatewayControl.Dns.RecordSet
import Mathlib.Data.List.Basic

/-!
# `GatewayControl.Proofs.Dns.RecordTable` -- record sets as a map from types to lists

A record set has a list for each modelled type. The same records can be kept in a map from types to
lists of records of any type, with no entry for a type that has no records (`RecordTable`): an added
record opens the list of its type if there is none, and the removal of the last one closes it. Nothing
in the map's type says that a list holds records of its own type, or that it is not empty; both are
consequences of how tables come about.

`RecordTable.ofSet` and `RecordTable.toSet` go from one form to the other. Adding and removing commute
with the change of form (`add_ofSet`, `remove_ofSet`), flags included, and nothing is lost by going
there and back (`toSet_ofSet`).
-/

namespace GatewayControl

/-- The records of one label by type: a list for each type that has records, and the values of all
other types. -/
@[ext]
structure RecordTable where
  lists : RecordType → Option (List Record)
  foreign : Json.Members

namespace RecordTable

/-- The table without records. -/
def empty : RecordTable := ⟨fun _ => none, []⟩

/-- The records of a type. -/
def get (table : RecordTable) (t : RecordType) : List Record := (table.lists t).getD []

/-- The table with another list for a type. -/
def set (table : RecordTable) (t : RecordType) (list : List Record) : RecordTable :=
  { table with lists := fun u => if u = t then some list else table.lists u }

/-- The table without the list of a type. -/
def drop (table : RecordTable) (t : RecordType) : RecordTable :=
  { table with lists := fun u => if u = t then none else table.lists u }

/-- A list with a record in the place of the first one with its data, or at the end; the flag tells
whether the list changed. -/
def refresh (record : Record) : List Record → Bool × List Record
  | [] => (true, [record])
  | r :: rest =>
    if r.sameData record then (r != record, record :: rest)
    else ((refresh record rest).1, r :: (refresh record rest).2)

/-- Adds a record to the list of its type; the flag tells whether the table changed. -/
def add (table : RecordTable) (record : Record) : Bool × RecordTable :=
  let (changed, list) := refresh record (table.get record.type)
  (changed, table.set record.type list)

/-- Removes the data of a record from the list of its type, and the list with its last record; the
flag tells whether the table changed. -/
def remove (table : RecordTable) (record : Record) : Bool × RecordTable :=
  match table.lists record.type with
  | none => (false, table)
  | some list =>
    let kept := list.filter fun r => !r.sameData record
    (kept.length != list.length,
      if kept.isEmpty then table.drop record.type else table.set record.type kept)

/-- The table of a set: there is no list for a type without records. -/
def ofSet (set : RecordSet) : RecordTable where
  lists t := if (set.get t).isEmpty then none else some (set.get t)
  foreign := set.foreign

/-- The set of a table: every record goes to the list of its own type. -/
def toSet (table : RecordTable) : RecordSet :=
  let records := RecordType.all.flatMap table.get
  { a := records.filterMap fun | .a r => some r | _ => none
    aaaa := records.filterMap fun | .aaaa r => some r | _ => none
    cname := records.filterMap fun | .cname r => some r | _ => none
    txt := records.filterMap fun | .txt r => some r | _ => none
    foreign := table.foreign }

end RecordTable

/-! ## The lists of a set, type by type -/

namespace RecordSet

theorem type_of_mem_get {set : RecordSet} {t : RecordType} {r : Record} (h : r ∈ set.get t) :
    r.type = t := by
  cases t <;>
  · obtain ⟨s, -, rfl⟩ := List.mem_map.1 h
    rfl

@[simp]
theorem foreign_insert (set : RecordSet) (r : Record) : (set.insert r).foreign = set.foreign := by
  cases r <;> rfl

@[simp]
theorem foreign_erase (set : RecordSet) (r : Record) : (set.erase r).foreign = set.foreign := by
  cases r <;> rfl

section Lists

variable {α : Type} [DecidableEq α] (mk : Timed α → Record)
  (hmk : ∀ r s, (mk r).sameData (mk s) = (r.data == s.data))

include hmk

/-- Refreshing works on the data, whatever the type of the records. -/
theorem refresh_map (r : Timed α) (records : List (Timed α)) :
    RecordTable.refresh (mk r) (records.map mk) =
      ((records.map mk).find? (fun s => s.sameData (mk r)) != some (mk r),
        (Timed.upsert r records).map mk) := by
  induction records with
  | nil => rfl
  | cons s rest ih =>
    rw [List.map_cons, RecordTable.refresh, List.find?_cons, Timed.upsert, hmk]
    by_cases hdata : s.data = r.data
    · have hsame : (s.data == r.data) = true := beq_iff_eq.2 hdata
      rw [if_pos hsame, if_pos hdata, hsame]
      rfl
    · have hother : (s.data == r.data) = false := beq_eq_false_iff_ne.2 hdata
      rw [if_neg (ne_true_of_eq_false hother), if_neg hdata, hother, ih]
      rfl

theorem filter_map_without (r : Timed α) (records : List (Timed α)) :
    (records.map mk).filter (fun s => !s.sameData (mk r)) =
      (Timed.without r.data records).map mk := by
  unfold Timed.without
  rw [List.filter_map]
  refine congrArg (List.map mk) (List.filter_congr fun s _ => ?_)
  by_cases hdata : s.data = r.data <;> simp [hmk, hdata]

end Lists

/-- A record with the list of its type, as records of its own data. Adding and removing work on this
list alone. -/
theorem exists_list (set : RecordSet) (record : Record) :
    ∃ (α : Type) (_ : DecidableEq α) (mk : Timed α → Record) (r : Timed α) (records : List (Timed α)),
      mk r = record ∧ (∀ r s, (mk r).sameData (mk s) = (r.data == s.data)) ∧
      set.get record.type = records.map mk ∧
      (∀ t, (set.insert record).get t =
        if t = record.type then (Timed.upsert r records).map mk else set.get t) ∧
      ∀ t, (set.erase record).get t =
        if t = record.type then (Timed.without r.data records).map mk else set.get t := by
  cases record with
  | a r =>
    refine ⟨Ipv4, inferInstance, .a, r, set.a, rfl, fun _ _ => rfl, rfl, fun t => ?_, fun t => ?_⟩ <;>
      cases t <;> rfl
  | aaaa r =>
    refine ⟨Ipv6, inferInstance, .aaaa, r, set.aaaa, rfl, fun _ _ => rfl, rfl, fun t => ?_,
      fun t => ?_⟩ <;> cases t <;> rfl
  | cname r =>
    refine ⟨String, inferInstance, .cname, r, set.cname, rfl, fun _ _ => rfl, rfl, fun t => ?_,
      fun t => ?_⟩ <;> cases t <;> rfl
  | txt r =>
    refine ⟨String, inferInstance, .txt, r, set.txt, rfl, fun _ _ => rfl, rfl, fun t => ?_,
      fun t => ?_⟩ <;> cases t <;> rfl

/-- Adding refreshes the list of the type of the record, and no other list. -/
theorem get_insert (set : RecordSet) (record : Record) (t : RecordType) :
    (set.insert record).get t =
      if t = record.type then (RecordTable.refresh record (set.get record.type)).2
      else set.get t := by
  obtain ⟨α, _, mk, r, records, rfl, hmk, hget, hinsert, -⟩ := set.exists_list record
  rw [hinsert, hget, refresh_map mk hmk]

/-- The set changes with the list of the type of the record. -/
theorem addChanges_eq (set : RecordSet) (record : Record) :
    set.addChanges record = (RecordTable.refresh record (set.get record.type)).1 := by
  obtain ⟨α, _, mk, r, records, rfl, hmk, hget, -, -⟩ := set.exists_list record
  unfold addChanges find?
  rw [hget, refresh_map mk hmk]

theorem get_erase (set : RecordSet) (record : Record) (t : RecordType) :
    (set.erase record).get t =
      if t = record.type then (set.get record.type).filter fun r => !r.sameData record
      else set.get t := by
  obtain ⟨α, _, mk, r, records, rfl, hmk, hget, -, herase⟩ := set.exists_list record
  rw [herase, hget, filter_map_without mk hmk]

end RecordSet

namespace RecordTable

/-! ## The two forms -/

theorem ofSet_empty : ofSet .empty = empty := by
  refine RecordTable.ext (funext fun t => ?_) rfl
  cases t <;> rfl

@[simp]
theorem get_ofSet (set : RecordSet) (t : RecordType) : (ofSet set).get t = set.get t := by
  by_cases h : set.get t = [] <;> simp [get, ofSet, h]

/-- **Nothing is lost in a table**: the set comes back with its lists in order. -/
theorem toSet_ofSet (set : RecordSet) : (ofSet set).toSet = set := by
  have hrecords : RecordType.all.flatMap (ofSet set).get =
      set.a.map .a ++ (set.aaaa.map .aaaa ++ (set.cname.map .cname ++ set.txt.map .txt)) := by
    simp [RecordType.all, RecordSet.get]
  unfold toSet
  rw [hrecords]
  simp only [List.filterMap_append, List.filterMap_map]
  have hall : ∀ {α : Type} (records : List α), records.filterMap some = records :=
    fun records => List.filterMap_some
  simp only [Function.comp_def, hall, List.filterMap_none, List.append_nil, List.nil_append]
  rfl

/-- A table of a set has no empty list, and in each list records of its type only. -/
theorem lists_ofSet {set : RecordSet} {t : RecordType} {list : List Record}
    (h : (ofSet set).lists t = some list) : list ≠ [] ∧ ∀ r ∈ list, r.type = t := by
  unfold ofSet at h
  simp only at h
  split at h
  · cases h
  · next hne =>
    cases h
    exact ⟨fun hnil => hne (List.isEmpty_iff.2 hnil), fun r hr => RecordSet.type_of_mem_get hr⟩

theorem refresh_ne_nil (record : Record) (list : List Record) : (refresh record list).2 ≠ [] := by
  cases list with
  | nil => exact List.cons_ne_nil _ _
  | cons r rest =>
    unfold refresh
    split <;> exact List.cons_ne_nil _ _

/-- **Adding to the table is adding to the set.** -/
theorem add_ofSet (set : RecordSet) (record : Record) :
    (ofSet set).add record = ((set.add record).1, ofSet (set.add record).2) := by
  unfold add RecordSet.add
  rw [get_ofSet, RecordSet.addChanges_eq]
  refine congrArg (Prod.mk _) ?_
  apply RecordTable.ext
  · funext t
    simp only [RecordTable.set, ofSet, RecordSet.get_insert]
    by_cases ht : t = record.type
    · have hne : (refresh record (set.get record.type)).2.isEmpty = false :=
        List.isEmpty_eq_false_iff.2 (refresh_ne_nil record _)
      simp [ht, hne]
    · simp [ht]
  · exact (RecordSet.foreign_insert set record).symm

/-- **Removing from the table is removing from the set.** -/
theorem remove_ofSet (set : RecordSet) (record : Record) :
    (ofSet set).remove record = ((set.remove record).1, ofSet (set.remove record).2) := by
  have hlists : ∀ t, (ofSet (set.erase record)).lists t =
      if t = record.type then
        if ((set.get record.type).filter fun r => !r.sameData record).isEmpty then none
        else some ((set.get record.type).filter fun r => !r.sameData record)
      else (ofSet set).lists t := by
    intro t
    simp only [ofSet, RecordSet.get_erase]
    split <;> rfl
  unfold RecordSet.remove
  by_cases hnil : set.get record.type = []
  · -- without a list there is nothing to remove, and no list is made
    have hnone : (ofSet set).lists record.type = none := by
      simp [ofSet, hnil]
    have hremove : (ofSet set).remove record = (false, ofSet set) := by
      unfold remove
      rw [hnone]
    have hsame : ofSet (set.erase record) = ofSet set := by
      refine RecordTable.ext (funext fun t => ?_) (RecordSet.foreign_erase set record)
      rw [hlists]
      split
      · next ht =>
        rw [ht, hnone, hnil]
        rfl
      · rfl
    have hcontains : set.contains record = false := by
      simp [RecordSet.contains, hnil]
    rw [hremove, hsame, hcontains]
  · have hsome : (ofSet set).lists record.type = some (set.get record.type) := by
      simp [ofSet, hnil]
    have hforeign : (ofSet (set.erase record)).foreign = (ofSet set).foreign :=
      RecordSet.foreign_erase set record
    unfold remove
    rw [hsome]
    refine Prod.ext ?_ ?_
    · -- fewer records are left exactly if one had the data
      have hlength : ∀ list : List Record,
          (list.filter fun r => !r.sameData record).length = list.length ↔
            list.any (fun r => r.sameData record) = false := by
        intro list
        rw [List.length_filter_eq_length_iff]
        simp
      rw [Bool.eq_iff_iff]
      simp only [bne_iff_ne, ne_eq, hlength, RecordSet.contains, Bool.not_eq_false]
    · simp only
      split
      · next hempty =>
        refine RecordTable.ext (funext fun t => ?_) hforeign.symm
        rw [hlists, if_pos hempty]
        rfl
      · next hkept =>
        refine RecordTable.ext (funext fun t => ?_) hforeign.symm
        rw [hlists, if_neg hkept]
        rfl

end RecordTable
end GatewayControl
