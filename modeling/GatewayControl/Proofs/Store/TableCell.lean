import GatewayControl.Proofs.Store.Cell
import GatewayControl.Store.Tables

/-!
# `GatewayControl.Proofs.Store.TableCell` -- the two tables as cells of bytes

The tables of a relational store, read cell by cell like a store in memory: a plain value is the row of
its name, a field the row of its name and field. Each statement on the tables is described by the cells
that it changes (`read_upsertValue` ... `read_deleteFields`), and keeps the primary keys
(`Keyed.upsertValue` ... `Keyed.deleteFields`): no two rows have one name, or one name and field. What the
other calls look at is said of cells as well (`isHash_iff`, `isPlain_iff`, `mem_fieldNames`).
-/

namespace GatewayControl
namespace TableStore

variable {t : TableStore} {key name : String} {cell : Cell}

/-- What a cell holds. -/
def read (cell : Cell) (t : TableStore) : Option Bytes :=
  match cell with
  | .value key => t.value? key
  | .field key name => t.field? key name

/-- No two rows of a table have one primary key. -/
structure Keyed (t : TableStore) : Prop where
  values : (t.values.map (·.key)).Nodup
  fields : (t.fields.map fun r => (r.key, r.field)).Nodup

/-! ## Searching among the rows that are left -/

/-- A search that keeps to the rows that are left finds what it found before. -/
theorem find?_filter_of_imp {α : Type} {p q : α → Bool} (h : ∀ a, q a = true → p a = true) (rows : List α) :
    (rows.filter p).find? q = rows.find? q := by
  rw [List.find?_filter]
  congr
  funext a
  cases hq : q a with
  | true => simp [h a hq]
  | false => simp

/-- A search for rows of which none is left finds nothing. -/
theorem find?_filter_of_disjoint {α : Type} {p q : α → Bool} (h : ∀ a, q a = true → p a = false)
    (rows : List α) : (rows.filter p).find? q = none := by
  rw [List.find?_eq_none]
  intro a ha hq
  rw [List.mem_filter, h a hq] at ha
  exact absurd ha.2 (by decide)

/-! ## What the statements change -/

@[simp] theorem read_empty (cell : Cell) : empty.read cell = none := by
  cases cell <;> rfl

/-- Deleting a plain value empties its cell, and touches no other. -/
theorem read_deleteValue :
    (t.deleteValue key).read cell = if cell = .value key then none else t.read cell := by
  cases cell with
  | field k n =>
    rw [if_neg (by simp)]
    rfl
  | value k =>
    show ((t.values.filter fun r => r.key ≠ key).find? fun r => r.key = k).map (·.value) = _
    by_cases hk : k = key
    · rw [if_pos (by rw [hk]), find?_filter_of_disjoint (by simp [hk])]
      rfl
    · rw [if_neg (by simpa using hk), find?_filter_of_imp]
      · rfl
      · intro r hr
        simpa [of_decide_eq_true hr] using hk

/-- Writing a plain value fills its cell, whether or not a row of its name was there. -/
theorem read_upsertValue (value : Bytes) :
    (t.upsertValue key value).read cell = if cell = .value key then some value else t.read cell := by
  have hrest : (t.deleteValue key).read cell = if cell = .value key then none else t.read cell :=
    read_deleteValue
  cases cell with
  | field k n =>
    rw [if_neg (by simp)]
    rfl
  | value k =>
    show (((⟨key, value⟩ : ValueRow) :: t.values.filter fun r => r.key ≠ key).find?
      fun r => r.key = k).map (·.value) = _
    by_cases hk : k = key
    · rw [if_pos (by rw [hk]), List.find?_cons_of_pos (by simp [hk])]
      rfl
    · rw [if_neg (by simpa using hk)] at hrest ⊢
      rw [List.find?_cons_of_neg (by simpa using fun h => hk h.symm)]
      exact hrest

/-- Deleting a field empties its cell; the other fields of its name stay. -/
theorem read_deleteField :
    (t.deleteField key name).read cell = if cell = .field key name then none else t.read cell := by
  cases cell with
  | value k =>
    rw [if_neg (by simp)]
    rfl
  | field k n =>
    show ((t.fields.filter fun r => ¬(r.key = key ∧ r.field = name)).find?
      fun r => r.key = k ∧ r.field = n).map (·.value) = _
    by_cases hk : k = key ∧ n = name
    · rw [if_pos (by rw [hk.1, hk.2]), find?_filter_of_disjoint (by simp [hk])]
      rfl
    · rw [if_neg (by simpa using hk), find?_filter_of_imp]
      · rfl
      · intro r hr
        have hrow := of_decide_eq_true hr
        apply decide_eq_true
        rintro ⟨hkey, hname⟩
        exact hk ⟨hrow.1.symm.trans hkey, hrow.2.symm.trans hname⟩

theorem read_upsertField (value : Bytes) :
    (t.upsertField key name value).read cell =
      if cell = .field key name then some value else t.read cell := by
  have hrest : (t.deleteField key name).read cell =
      if cell = .field key name then none else t.read cell := read_deleteField
  cases cell with
  | value k =>
    rw [if_neg (by simp)]
    rfl
  | field k n =>
    show (((⟨key, name, value⟩ : FieldRow) ::
      t.fields.filter fun r => ¬(r.key = key ∧ r.field = name)).find?
        fun r => r.key = k ∧ r.field = n).map (·.value) = _
    by_cases hk : k = key ∧ n = name
    · rw [if_pos (by rw [hk.1, hk.2]), List.find?_cons_of_pos (by simp [hk])]
      rfl
    · rw [if_neg (by simpa using hk)] at hrest ⊢
      rw [List.find?_cons_of_neg (by simpa using fun hkey hname => hk ⟨hkey.symm, hname.symm⟩)]
      exact hrest

/-- Deleting all fields of a name leaves its plain value. -/
theorem read_deleteFields :
    (t.deleteFields key).read cell =
      if cell.key = key ∧ cell ≠ .value key then none else t.read cell := by
  cases cell with
  | value k =>
    rw [if_neg]
    · rfl
    · rintro ⟨hk, hne⟩
      exact hne (congrArg Cell.value hk)
  | field k n =>
    show ((t.fields.filter fun r => r.key ≠ key).find? fun r => r.key = k ∧ r.field = n).map (·.value) = _
    by_cases hk : k = key
    · rw [if_pos ⟨hk, by simp⟩, find?_filter_of_disjoint]
      · rfl
      · intro r hr
        have hrow := of_decide_eq_true hr
        simpa [hk] using hrow.1
    · rw [if_neg fun h => hk h.1, find?_filter_of_imp]
      · rfl
      · intro r hr
        have hrow := of_decide_eq_true hr
        simpa [hrow] using hk

/-- Deleting a name deletes all its cells. -/
theorem read_delete :
    ((t.deleteValue key).deleteFields key).read cell = if cell.key = key then none else t.read cell := by
  rw [read_deleteFields, read_deleteValue]
  by_cases hvalue : cell = .value key
  · subst hvalue
    simp [Cell.key]
  · simp [hvalue]

/-! ## Primary keys -/

theorem keyed_empty : empty.Keyed := ⟨List.nodup_nil, List.nodup_nil⟩

namespace Keyed

theorem deleteValue (h : t.Keyed) : (t.deleteValue key).Keyed where
  values := h.values.sublist (List.filter_sublist.map _)
  fields := h.fields

/-- The row that had the key is gone before the key comes again. -/
theorem upsertValue (h : t.Keyed) (value : Bytes) : (t.upsertValue key value).Keyed where
  values := by
    show (key :: (t.values.filter fun r => r.key ≠ key).map (·.key)).Nodup
    rw [List.nodup_cons]
    refine ⟨?_, h.deleteValue.values⟩
    intro hmem
    obtain ⟨r, hr, hkey⟩ := List.mem_map.1 hmem
    exact of_decide_eq_true (List.mem_filter.1 hr).2 hkey
  fields := h.fields

theorem deleteField (h : t.Keyed) : (t.deleteField key name).Keyed where
  values := h.values
  fields := h.fields.sublist (List.filter_sublist.map _)

/-- Likewise with the two columns of a field's key. -/
theorem upsertField (h : t.Keyed) (value : Bytes) : (t.upsertField key name value).Keyed where
  values := h.values
  fields := by
    show ((key, name) :: (t.fields.filter fun r => ¬(r.key = key ∧ r.field = name)).map
      fun r => (r.key, r.field)).Nodup
    rw [List.nodup_cons]
    refine ⟨?_, h.deleteField.fields⟩
    intro hmem
    obtain ⟨r, hr, hkey⟩ := List.mem_map.1 hmem
    exact of_decide_eq_true (List.mem_filter.1 hr).2 (Prod.mk.inj hkey)

theorem deleteFields (h : t.Keyed) : (t.deleteFields key).Keyed where
  values := h.values
  fields := h.fields.sublist (List.filter_sublist.map _)

end Keyed

/-! ## What the calls look at -/

/-- A name is plain if it has a value, as far as the cells tell. -/
theorem isPlain_iff : t.isPlain key = true ↔ t.read (.value key) ≠ none := by
  show (t.values.any fun r => r.key = key) = true ↔
    (t.values.find? fun r => r.key = key).map (·.value) ≠ none
  rw [ne_eq, Option.map_eq_none_iff, ← ne_eq, ← Option.isSome_iff_ne_none, List.find?_isSome,
    List.any_eq_true]

theorem field_isSome_iff :
    t.read (.field key name) ≠ none ↔ ∃ r ∈ t.fields, r.key = key ∧ r.field = name := by
  show (t.fields.find? fun r => r.key = key ∧ r.field = name).map (·.value) ≠ none ↔ _
  rw [ne_eq, Option.map_eq_none_iff, ← ne_eq, ← Option.isSome_iff_ne_none, List.find?_isSome]
  simp only [decide_eq_true_eq]

/-- A name is a hash if some field of it holds something. -/
theorem isHash_iff : t.isHash key = true ↔ ∃ name, t.read (.field key name) ≠ none := by
  simp only [field_isSome_iff, isHash, List.any_eq_true, decide_eq_true_eq]
  constructor
  · rintro ⟨r, hr, hkey⟩
    exact ⟨r.field, r, hr, hkey, rfl⟩
  · rintro ⟨name, r, hr, hkey, -⟩
    exact ⟨r, hr, hkey⟩

/-- A field is listed exactly if its cell holds something. -/
theorem mem_fieldNames : name ∈ t.fieldNames key ↔ t.read (.field key name) ≠ none := by
  unfold fieldNames
  rw [List.mem_mergeSort, List.mem_map, field_isSome_iff]
  simp only [List.mem_filter, decide_eq_true_eq, and_assoc]

/-- The primary key lets no field be listed twice. -/
theorem fieldNames_nodup (h : t.Keyed) : (t.fieldNames key).Nodup := by
  unfold fieldNames
  rw [(List.mergeSort_perm _ _).nodup_iff]
  have hrows : ((t.fields.filter fun r => r.key = key).map fun r => (r.key, r.field)).Nodup :=
    h.fields.sublist (List.filter_sublist.map _)
  unfold List.Nodup at hrows ⊢
  rw [List.pairwise_map] at hrows ⊢
  refine hrows.imp_of_mem ?_
  intro r q hr hq hne hfield
  have hrkey := of_decide_eq_true (List.mem_filter.1 hr).2
  have hqkey := of_decide_eq_true (List.mem_filter.1 hq).2
  exact hne (Prod.ext (hrkey.trans hqkey.symm) hfield)

/-- The fields of a name are listed in order. -/
theorem fieldNames_ordered (key : String) (t : TableStore) : (t.fieldNames key).Pairwise (· ≤ ·) := by
  have htrans : ∀ a b c : String, decide (a ≤ b) = true → decide (b ≤ c) = true → decide (a ≤ c) = true :=
    fun a b c hab hbc => decide_eq_true (String.le_trans (of_decide_eq_true hab) (of_decide_eq_true hbc))
  have htotal : ∀ a b : String, (decide (a ≤ b) || decide (b ≤ a)) = true := by
    intro a b
    simpa using String.le_total a b
  exact (List.pairwise_mergeSort htrans htotal _).imp of_decide_eq_true

end TableStore
end GatewayControl
