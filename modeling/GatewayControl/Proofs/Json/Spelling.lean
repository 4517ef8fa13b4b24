import GatewayControl.Proofs.Json.Reread
import GatewayControl.Proofs.Text.Base64

/-!
# `GatewayControl.Proofs.Json.Spelling` -- all texts of a value

A value can be written in many ways: with blanks, with escapes where none are needed, with the members of an
object in another order. `Tree.Spells` says what is common to them once the grammar has been checked, and
`Json.Spells` says it of the text. Whatever spells a value is read as the value with its members sorted
(`Tree.value?_of_spells`), which is the value itself if it is held like that (`Value.Held.sorted_eq`). A record
is read by the names of its fields from an object and by their places from an array
(`Tree.record?_of_object`, `Tree.record?_of_array`).

The compact form is one of the texts of a value (`spells_text`). That it is a text at all is shown on the
way: escapes are ASCII, and they leave the bytes of every other character together.
-/

namespace GatewayControl.Json

/-! ## Members in any order -/

namespace Members

/-- A member with a new key is put in, and all others stay. -/
theorem insert_perm {key : String} {members : Members} (h : key ∉ members.map Prod.fst) (value : Value) :
    (insert key value members).Perm ((key, value) :: members) := by
  induction members with
  | nil => exact List.Perm.refl _
  | cons p rest ih =>
    obtain ⟨k, v⟩ := p
    rw [List.map_cons, List.mem_cons, not_or] at h
    rw [insert]
    split
    · exact List.Perm.refl _
    · rw [if_neg h.1]
      exact ((ih h.2).cons (k, v)).trans (List.Perm.swap _ _ _)

theorem insertAll_perm {members pairs : Members} (h : ((members ++ pairs).map Prod.fst).Nodup) :
    (insertAll members pairs).Perm (members ++ pairs) := by
  induction pairs generalizing members with
  | nil =>
    rw [List.append_nil]
    exact List.Perm.refl _
  | cons p pairs ih =>
    obtain ⟨key, value⟩ := p
    have hmoved : (members ++ (key, value) :: pairs).Perm ((key, value) :: members ++ pairs) :=
      List.perm_middle
    have hnodup := (hmoved.map Prod.fst).nodup_iff.1 h
    have hkey : key ∉ members.map Prod.fst := by
      intro hmem
      rw [List.cons_append, List.map_cons, List.nodup_cons, List.map_append, List.mem_append] at hnodup
      exact hnodup.1 (.inl hmem)
    have hinsert : (insert key value members ++ pairs).Perm ((key, value) :: members ++ pairs) :=
      (insert_perm hkey value).append_right pairs
    rw [insertAll_cons]
    exact (ih ((hinsert.map Prod.fst).nodup_iff.2 hnodup)).trans (hinsert.trans hmoved.symm)

/-- Sorting members whose keys are distinct drops none of them. -/
theorem ofList_perm {pairs : Members} (h : (pairs.map Prod.fst).Nodup) : (ofList pairs).Perm pairs := by
  show (insertAll [] pairs).Perm ([] ++ pairs)
  exact insertAll_perm h

/-- Members that differ in their order alone are the same once they are sorted. -/
theorem ofList_eq_of_perm {pairs other : Members} (h : pairs.Perm other)
    (hnodup : (pairs.map Prod.fst).Nodup) : ofList pairs = ofList other := by
  have hother := ofList_perm ((h.map Prod.fst).nodup_iff.1 hnodup)
  have hperm := (ofList_perm hnodup).trans (h.trans hother.symm)
  refine hperm.eq_of_pairwise ?_ (ordered_ofList pairs) (ordered_ofList other)
  intro p q _ _ hpq hqp
  exact absurd hqp (String.lt_asymm hpq)

end Members

/-! ## Spelling -/

namespace Tree

mutual

/-- The tree spells the value: its strings and literals stand for the texts and numbers of the value. The
members of an object come in any order, and none comes twice. -/
def Spells : Tree → Value → Prop
  | null, .null => True
  | bool b, .bool c => b = c
  | number l, .number n => l.number? = some n
  | string pieces, .string s => pieceText? pieces = some s
  | array items, .array values => SpellsItems items values
  | object fields, .object members =>
    (members.map Prod.fst).Nodup ∧ ∃ listed : Members, listed.Perm members ∧ SpellsFields fields listed
  | _, _ => False

/-- The trees spell the items of an array. -/
def SpellsItems : List Tree → List Value → Prop
  | [], [] => True
  | t :: ts, v :: vs => Spells t v ∧ SpellsItems ts vs
  | _, _ => False

/-- The fields spell members in the order in which they stand. -/
def SpellsFields : List (List Piece × Tree) → Members → Prop
  | [], [] => True
  | (key, t) :: fields, (name, v) :: members =>
    pieceText? key = some name ∧ Spells t v ∧ SpellsFields fields members
  | _, _ => False

end

/-- A field spells a member. -/
def SpellsField (field : List Piece × Tree) (member : String × Value) : Prop :=
  pieceText? field.1 = some member.1 ∧ field.2.Spells member.2

theorem spellsItems_iff {items : List Tree} {values : List Value} :
    SpellsItems items values ↔ List.Forall₂ Spells items values := by
  induction items generalizing values with
  | nil => cases values <;> simp [SpellsItems]
  | cons t ts ih => cases values <;> simp [SpellsItems, ih]

theorem spellsFields_iff {fields : List (List Piece × Tree)} {members : Members} :
    SpellsFields fields members ↔ List.Forall₂ SpellsField fields members := by
  induction fields generalizing members with
  | nil => cases members <;> simp [SpellsFields]
  | cons field fields ih => cases members <;> simp [SpellsFields, SpellsField, ih, and_assoc]

theorem spells_null_iff {t : Tree} : t.Spells .null ↔ t = null := by
  cases t <;> simp [Spells]

theorem spells_bool_iff {t : Tree} {b : Bool} : t.Spells (.bool b) ↔ t = bool b := by
  cases t <;> simp [Spells]

theorem spells_number_iff {t : Tree} {n : Number} :
    t.Spells (.number n) ↔ ∃ l : Literal, t = number l ∧ l.number? = some n := by
  cases t <;> simp [Spells]

theorem spells_string_iff {t : Tree} {s : String} :
    t.Spells (.string s) ↔ ∃ ps, t = string ps ∧ pieceText? ps = some s := by
  cases t <;> simp [Spells]

theorem spells_array_iff {t : Tree} {values : List Value} :
    t.Spells (.array values) ↔ ∃ items, t = array items ∧ List.Forall₂ Spells items values := by
  cases t <;> simp [Spells, spellsItems_iff]

/-- An object without a repeated key is spelled by its members in any order. -/
theorem spells_object_iff {t : Tree} {members : Members} :
    t.Spells (.object members) ↔ (members.map Prod.fst).Nodup ∧ ∃ fields listed, t = object fields ∧
      listed.Perm members ∧ List.Forall₂ SpellsField fields listed := by
  cases t <;> simp [Spells, spellsFields_iff]

end Tree

/-- The text spells the value. -/
def Spells (text : Bytes) (v : Value) : Prop := ∃ t, Tree.read? text = some t ∧ t.Spells v

namespace Value

mutual

/-- How many containers stand inside each other, where they are nested most deeply. -/
def nesting : Value → Nat
  | array items => nestingItems items + 1
  | object members => nestingMembers members + 1
  | _ => 0

/-- The nesting of the most deeply nested item. -/
def nestingItems : List Value → Nat
  | [] => 0
  | v :: vs => max (nesting v) (nestingItems vs)

/-- The nesting of the most deeply nested member. -/
def nestingMembers : List (String × Value) → Nat
  | [] => 0
  | (_, v) :: rest => max (nesting v) (nestingMembers rest)

end

/-- The value is in the form in which values are held: the members of each object are sorted and have
different names, integers fit 64 bits, and other numbers are finite. -/
def Held (v : Value) : Prop := ∃ depth, v.Readable depth

theorem nestingItems_le_iff {items : List Value} {n : Nat} :
    nestingItems items ≤ n ↔ ∀ v ∈ items, v.nesting ≤ n := by
  induction items with
  | nil => simp [nestingItems]
  | cons v vs ih => simp [nestingItems, ih]

theorem nestingMembers_le_iff {members : Members} {n : Nat} :
    nestingMembers members ≤ n ↔ ∀ p ∈ members, p.2.nesting ≤ n := by
  induction members with
  | nil => simp [nestingMembers]
  | cons p rest ih => simp [nestingMembers, ih]

theorem sortedItems_eq_map (items : List Value) : sortedItems items = items.map sorted := by
  induction items with
  | nil => rfl
  | cons v vs ih => rw [sortedItems, ih, List.map_cons]

theorem sortedMembers_eq_map (members : Members) :
    sortedMembers members = members.map fun p => (p.1, p.2.sorted) := by
  induction members with
  | nil => rfl
  | cons p rest ih => rw [sortedMembers, ih, List.map_cons]

/-- **A value that was read has its members sorted already.** -/
theorem Held.sorted_eq {v : Value} (h : v.Held) : v.sorted = v := by
  obtain ⟨depth, h⟩ := h
  induction depth, v using Readable.induct with
  | case1 | case2 | case3 | case4 | case5 => rfl
  | case6 | case7 => exact absurd h id
  | case8 depth items ih =>
    have hitems : items.map sorted = items.map id := List.map_congr_left fun v hv => ih v (h v hv)
    rw [sorted, sortedItems_eq_map, hitems, List.map_id]
  | case9 depth members ih =>
    have hmembers : (members.map fun p : String × Value => (p.1, p.2.sorted)) = members.map id :=
      List.map_congr_left fun p hp => Prod.ext rfl (ih p (h.2 p hp))
    rw [sorted, sortedMembers_eq_map, hmembers, List.map_id, Members.ofList_of_ordered h.1]

end Value

/-! ## Reading what spells a value -/

/-- Items are read one by one, each by what it spells. -/
theorem mapM_of_forall₂ {α β γ : Type} {R : α → β → Prop} {read? : α → Option γ} {f : β → γ}
    {items : List α} {values : List β} (h : List.Forall₂ R items values)
    (hread : ∀ t, ∀ v ∈ values, R t v → read? t = some (f v)) : items.mapM read? = some (values.map f) := by
  induction h with
  | nil => rfl
  | cons hv _ ih =>
    have hrest := ih fun t v hmem => hread t v (List.mem_cons_of_mem _ hmem)
    rw [List.mapM_cons, hread _ _ List.mem_cons_self hv, hrest]
    rfl

/-- **What spells a value is read as the value with its members sorted**, to any depth that it fits. -/
theorem Tree.value?_of_spells {depth : Nat} {t : Tree} {v : Value} (h : t.Spells v)
    (hdepth : v.nesting ≤ depth) : t.value? depth = some v.sorted := by
  -- the leaves do not look at the depth, and a container goes one level down
  induction depth using Nat.strongRecOn generalizing t v with
  | ind depth ih =>
    cases v with
    | null =>
      obtain rfl := spells_null_iff.1 h
      rw [value?]
      rfl
    | bool b =>
      obtain rfl := spells_bool_iff.1 h
      rw [value?]
      rfl
    | number n =>
      obtain ⟨l, rfl, hl⟩ := spells_number_iff.1 h
      rw [value?, hl]
      rfl
    | string s =>
      obtain ⟨ps, rfl, hps⟩ := spells_string_iff.1 h
      rw [value?, hps]
      rfl
    | array values =>
      obtain ⟨items, rfl, hitems⟩ := spells_array_iff.1 h
      rw [Value.nesting] at hdepth
      obtain ⟨depth, rfl⟩ : ∃ n, depth = n + 1 := ⟨depth - 1, by omega⟩
      have hvalues := Value.nestingItems_le_iff.1 (Nat.le_of_succ_le_succ hdepth)
      have hread : items.mapM (value? depth) = some (values.map Value.sorted) :=
        mapM_of_forall₂ hitems fun t v hv hspells =>
          ih depth (Nat.lt_succ_self depth) hspells (hvalues v hv)
      rw [value?, hread, Value.sorted, Value.sortedItems_eq_map]
      rfl
    | object members =>
      obtain ⟨hnodup, fields, listed, rfl, hperm, hfields⟩ := spells_object_iff.1 h
      rw [Value.nesting] at hdepth
      obtain ⟨depth, rfl⟩ : ∃ n, depth = n + 1 := ⟨depth - 1, by omega⟩
      have hvalues := Value.nestingMembers_le_iff.1 (Nat.le_of_succ_le_succ hdepth)
      -- the order of the members is lost in sorting them
      have hsorted : Members.ofList (listed.map fun p => (p.1, p.2.sorted)) =
          Members.ofList (members.map fun p => (p.1, p.2.sorted)) := by
        refine Members.ofList_eq_of_perm (hperm.map _) ?_
        rw [List.map_map]
        exact (hperm.map Prod.fst).nodup_iff.2 hnodup
      rw [value?, Value.sorted, Value.sortedMembers_eq_map, ← hsorted, Option.bind_eq_bind]
      refine Option.bind_eq_some_iff.2 ⟨_, mapM_of_forall₂ hfields ?_, rfl⟩
      intro field p hp hspells
      have hvalue := ih depth (Nat.lt_succ_self depth) hspells.2 (hvalues p (hperm.mem_iff.1 hp))
      simp only [hspells.1, hvalue, Option.bind_eq_bind, Option.bind_some]
      rfl

/-! ## Records -/

namespace Tree

/-- The tree of the first field with a name. -/
def member? (name : String) (fields : List (List Piece × Tree)) : Option Tree :=
  (fields.find? fun field => pieceText? field.1 = some name).map Prod.snd

section Members

variable {name : String} {t : Tree} {fields : List (List Piece × Tree)} {listed : Members} {v : Value}

theorem member?_cons_self {key : List Piece} (h : pieceText? key = some name) :
    member? name ((key, t) :: fields) = some t := by
  unfold member?
  rw [List.find?_cons_of_pos (by simpa using h)]
  rfl

theorem member?_cons_ne {key : List Piece} {other : String} (h : pieceText? key = some other)
    (hne : name ≠ other) : member? name ((key, t) :: fields) = member? name fields := by
  have hkey : ¬ pieceText? key = some name := by
    intro heq
    exact hne (Option.some.inj (heq.symm.trans h))
  unfold member?
  rw [List.find?_cons_of_neg (by simpa using hkey)]

/-- A member that is spelled among the fields is found under its name. -/
theorem member?_of_spells (h : List.Forall₂ SpellsField fields listed)
    (hnodup : (listed.map Prod.fst).Nodup) (hmem : (name, v) ∈ listed) :
    ∃ t, member? name fields = some t ∧ t.Spells v := by
  induction h with
  | nil => exact absurd hmem List.not_mem_nil
  | @cons field p fields listed hp _ ih =>
    rw [List.map_cons, List.nodup_cons] at hnodup
    rcases List.mem_cons.1 hmem with heq | hrest
    · subst heq
      exact ⟨field.2, member?_cons_self hp.1, hp.2⟩
    · have hne : name ≠ p.1 := by
        rintro rfl
        exact hnodup.1 (List.mem_map.2 ⟨_, hrest, rfl⟩)
      obtain ⟨t, ht, hspells⟩ := ih hnodup.2 hrest
      exact ⟨t, (member?_cons_ne hp.1 hne).trans ht, hspells⟩

/-- Members that are spelled among the fields are found under their names, one after the other. -/
theorem map_member?_of_spells {names : List String} {values : List Value}
    (h : List.Forall₂ SpellsField fields listed) (hnodup : (listed.map Prod.fst).Nodup)
    (hmem : List.Forall₂ (fun name v => (name, v) ∈ listed) names values) :
    ∃ trees, (names.map fun name => member? name fields) = trees.map some ∧
      List.Forall₂ Spells trees values := by
  induction hmem with
  | nil => exact ⟨[], rfl, .nil⟩
  | cons hfirst _ ih =>
    obtain ⟨trees, htrees, hvalues⟩ := ih
    obtain ⟨t, ht, hvalue⟩ := member?_of_spells h hnodup hfirst
    refine ⟨t :: trees, ?_, .cons hvalue hvalues⟩
    rw [List.map_cons, List.map_cons, ht, htrees]

end Members

theorem fillSlot_cons_ne {name field : String} (h : field ≠ name) (t : Tree) (slot : Option Tree)
    (slots : List (String × Option Tree)) :
    fillSlot name t ((field, slot) :: slots) = (fillSlot name t slots).map ((field, slot) :: ·) := by
  cases slot <;> rw [fillSlot, if_neg h]

/-- The slots with a tree in that of its name. -/
def filled (name : String) (t : Tree) (slots : List (String × Option Tree)) : List (String × Option Tree) :=
  slots.map fun p => if p.1 = name then (p.1, some t) else p

/-- Filling slots keeps their names. -/
theorem map_fst_filled (name : String) (t : Tree) (slots : List (String × Option Tree)) :
    (filled name t slots).map Prod.fst = slots.map Prod.fst := by
  unfold filled
  rw [List.map_map]
  refine List.map_congr_left fun p _ => ?_
  show (if p.1 = name then (p.1, some t) else p).1 = p.1
  split <;> rfl

/-- A slot that was filled is the one of that name; every other slot is what it was. -/
theorem mem_filled {name : String} {t : Tree} {slots : List (String × Option Tree)} {p : String × Option Tree}
    (h : p ∈ filled name t slots) : p.1 = name ∨ p ∈ slots := by
  obtain ⟨slot, hslot, rfl⟩ := List.mem_map.1 h
  by_cases hname : slot.1 = name
  · rw [if_pos hname]
    exact .inl hname
  · rw [if_neg hname]
    exact .inr hslot

section Slots

variable {slots : List (String × Option Tree)}

/-- A tree goes to the slot of its name, if there is one. -/
theorem fillSlot_eq {name : String} (t : Tree) (hnodup : (slots.map Prod.fst).Nodup)
    (hempty : ∀ p ∈ slots, p.1 = name → p.2 = none) : fillSlot name t slots = some (filled name t slots) := by
  unfold filled
  induction slots with
  | nil => rfl
  | cons p slots ih =>
    obtain ⟨field, slot⟩ := p
    rw [List.map_cons, List.nodup_cons] at hnodup
    by_cases hfield : field = name
    · obtain rfl : slot = none := hempty (field, slot) List.mem_cons_self hfield
      -- no other slot has this name
      have hrest : slots.map (fun p => if p.1 = name then (p.1, some t) else p) = slots.map id := by
        refine List.map_congr_left fun p hp => if_neg ?_
        rintro rfl
        exact hnodup.1 (List.mem_map.2 ⟨p, hp, hfield.symm⟩)
      rw [fillSlot, if_pos hfield, List.map_cons, if_pos hfield, hrest, List.map_id]
    · have hslots := ih hnodup.2 fun p hp => hempty p (List.mem_cons_of_mem _ hp)
      rw [fillSlot_cons_ne hfield, List.map_cons, if_neg hfield, hslots]
      rfl

/-- Fields of different names go to the slots of their names, in whatever order they come. -/
theorem fillSlots_eq {fields : List (List Piece × Tree)} {listed : Members}
    (h : List.Forall₂ SpellsField fields listed) (hkeys : (listed.map Prod.fst).Nodup)
    (hnodup : (slots.map Prod.fst).Nodup) (hempty : ∀ p ∈ slots, p.1 ∈ listed.map Prod.fst → p.2 = none) :
    fillSlots slots fields = some (slots.map fun p => (p.1, p.2 <|> member? p.1 fields)) := by
  induction h generalizing slots with
  | nil =>
    have hsame : slots.map (fun p => (p.1, p.2 <|> member? p.1 [])) = slots.map id := by
      refine List.map_congr_left fun p _ => ?_
      obtain ⟨name, slot⟩ := p
      cases slot <;> rfl
    rw [fillSlots, hsame, List.map_id]
  | @cons field q fields listed hq _ ih =>
    obtain ⟨key, t⟩ := field
    obtain ⟨name, v⟩ := q
    rw [List.map_cons, List.nodup_cons] at hkeys
    have hslot : fillSlot name t slots = some (filled name t slots) :=
      fillSlot_eq t hnodup fun p hp hname => hempty p hp (List.mem_cons.2 (.inl hname))
    -- the slot that was filled is that of a name which does not come again
    have hrest : ∀ p ∈ filled name t slots, p.1 ∈ listed.map Prod.fst → p.2 = none := by
      intro p hp hmem
      rcases mem_filled hp with hname | hp
      · exact absurd (hname ▸ hmem) hkeys.1
      · exact hempty p hp (List.mem_cons_of_mem _ hmem)
    have hnames := map_fst_filled name t slots
    rw [fillSlots, hq.1, Option.bind_eq_bind, Option.bind_some, hslot, Option.bind_eq_bind, Option.bind_some,
      ih hkeys.2 (hnames ▸ hnodup) hrest]
    unfold filled
    rw [List.map_map]
    refine congrArg some (List.map_congr_left fun p hp => ?_)
    show _ = (p.1, p.2 <|> member? p.1 ((key, t) :: fields))
    by_cases hname : p.1 = name
    · have hnone := hempty p hp (List.mem_cons.2 (.inl hname))
      rw [Function.comp_apply, if_pos hname, hname, hnone, member?_cons_self hq.1]
      rfl
    · rw [Function.comp_apply, if_neg hname, member?_cons_ne hq.1 hname]

end Slots

variable {names : List String} {values : List Value} {t : Tree}

/-- **The fields of a record that is written as an object are read by their names**, in any order and among
other members. -/
theorem record?_of_object {members : Members} (h : t.Spells (.object members)) (hnodup : names.Nodup)
    (hfields : List.Forall₂ (fun name v => (name, v) ∈ members) names values) (depth : Nat) :
    ∃ trees, t.record? names (depth + 1) = some (depth, trees.map some) ∧
      List.Forall₂ Spells trees values := by
  obtain ⟨hkeys, fields, listed, rfl, hperm, hspells⟩ := spells_object_iff.1 h
  have hkeys : (listed.map Prod.fst).Nodup := (hperm.map Prod.fst).nodup_iff.2 hkeys
  have hlisted : List.Forall₂ (fun name v => (name, v) ∈ listed) names values :=
    hfields.imp fun _ _ hmem => hperm.mem_iff.2 hmem
  obtain ⟨trees, htrees, hvalues⟩ := map_member?_of_spells hspells hkeys hlisted
  -- the slots are empty at the start, so each gets what its name is found with
  have hslots : ((names.map fun name => (name, (none : Option Tree))).map Prod.fst).Nodup := by
    rw [List.map_map]
    exact (List.map_id names).symm ▸ hnodup
  have hfill := fillSlots_eq hspells hkeys hslots fun p hp _ => by
    obtain ⟨name, -, rfl⟩ := List.mem_map.1 hp
    rfl
  refine ⟨trees, ?_, hvalues⟩
  rw [record?, hfill, Option.bind_eq_bind, Option.bind_some, List.map_map, List.map_map, ← htrees]
  rfl

/-- **The fields of a record that is written as an array are read by their places.** -/
theorem record?_of_array (h : t.Spells (.array values)) (hlength : values.length = names.length)
    (depth : Nat) : ∃ trees, t.record? names (depth + 1) = some (depth, trees.map some) ∧
      List.Forall₂ Spells trees values := by
  obtain ⟨items, rfl, hitems⟩ := spells_array_iff.1 h
  have hitemsLength : items.length = names.length := hitems.length_eq.trans hlength
  refine ⟨items, ?_, hitems⟩
  rw [record?, if_neg (by omega), hitemsLength, Nat.sub_self, List.replicate_zero, List.append_nil]

end Tree

/-! ## The compact form -/

namespace Value

theorem spells_tree_array {items : List Value} (h : ∀ v ∈ items, v.tree.Spells v) :
    (array items).tree.Spells (array items) := by
  rw [tree, treeItems_eq_map, Tree.spells_array_iff]
  exact ⟨_, rfl, List.forall₂_map_left_iff.2 (List.forall₂_same.2 h)⟩

theorem spells_tree_object {members : Members} (hnodup : (members.map Prod.fst).Nodup)
    (h : ∀ p ∈ members, p.2.tree.Spells p.2) : (object members).tree.Spells (object members) := by
  rw [tree, treeMembers_eq_map, Tree.spells_object_iff]
  refine ⟨hnodup, _, members, rfl, List.Perm.refl _, List.forall₂_map_left_iff.2 (List.forall₂_same.2 ?_)⟩
  intro p hp
  exact ⟨pieceText?_pieces p.1, h p hp⟩

theorem spells_tree_string (s : String) : (string s).tree.Spells (string s) := by
  rw [tree, Tree.spells_string_iff]
  exact ⟨_, rfl, pieceText?_pieces s⟩

/-- A held value is spelled by its tree, if there is no floating-point number in it. -/
theorem Held.spells_tree {v : Value} (h : v.Held) (hfree : v.FloatFree) : v.tree.Spells v := by
  obtain ⟨depth, h⟩ := h
  induction depth, v using Readable.induct with
  | case1 => rw [tree, Tree.spells_null_iff]
  | case2 => rw [tree, Tree.spells_bool_iff]
  | case3 depth s => exact spells_tree_string s
  | case4 depth x => exact absurd hfree id
  | case5 depth i =>
    rw [Readable] at h
    rw [tree, Tree.spells_number_iff]
    exact ⟨_, rfl, number?_literalOf h.1 h.2⟩
  | case6 | case7 => exact absurd h id
  | case8 depth items ih =>
    exact spells_tree_array fun v hv => ih v (floatFreeItems_iff.1 hfree v hv) (h v hv)
  | case9 depth members ih =>
    exact spells_tree_object h.1.nodup_keys fun p hp => ih p (floatFreeMembers_iff.1 hfree p hp) (h.2 p hp)

theorem Held.finite {v : Value} (h : v.Held) : v.Finite := h.elim fun _ h => h.finite

end Value

/-- **The compact form of a value spells it**, if its tree does. -/
theorem spells_bytes {v : Value} (hfinite : v.Finite) (h : v.tree.Spells v) : Spells v.bytes v :=
  ⟨v.tree, Tree.read?_bytes hfinite, h⟩

/-! ### The compact form is a text -/

/-- The bytes are those of some text. -/
def IsText (bytes : Bytes) : Prop := ∃ cs : List Char, cs.flatMap String.utf8EncodeChar = bytes

theorem isText_iff {bytes : Bytes} : IsText bytes ↔ ∃ s, Bytes.ofText s = bytes := by
  constructor
  · rintro ⟨cs, hcs⟩
    exact ⟨String.ofList cs, (Bytes.ofText_ofList cs).trans hcs⟩
  · rintro ⟨s, hs⟩
    refine ⟨s.toList, ?_⟩
    rw [← Bytes.ofText_ofList, String.ofList_toList, hs]

theorem IsText.append {bytes more : Bytes} (h : IsText bytes) (hmore : IsText more) :
    IsText (bytes ++ more) := by
  obtain ⟨cs, rfl⟩ := h
  obtain ⟨ds, rfl⟩ := hmore
  exact ⟨cs ++ ds, List.flatMap_append⟩

theorem isText_ascii {bytes : Bytes} (h : ∀ b ∈ bytes, b < 128) : IsText bytes :=
  isText_iff.2 ⟨_, Text.Base64.ofText_ofList h⟩

theorem isText_byte {b : UInt8} (h : b < 128) : IsText [b] := by
  apply isText_ascii
  intro c hc
  rwa [List.mem_singleton.1 hc]

/-- What stands for an ASCII byte between quotes is ASCII. -/
theorem escapeByte_ascii {b : UInt8} (h : b < 128) : ∀ c ∈ escapeByte b, c < 128 := by
  have hall : ∀ k : Fin 128, ∀ c ∈ escapeByte (UInt8.ofNat k.val), c < 128 := by decide +kernel
  exact Text.Base64.forall_lt_of_fin (P := fun b => ∀ c ∈ escapeByte b, c < 128) hall h

/-- A byte beyond ASCII stands for itself between quotes. -/
theorem escapeByte_of_le {b : UInt8} (h : 128 ≤ b) : escapeByte b = [b] := by
  have hall : ∀ k : Fin 256, 128 ≤ UInt8.ofNat k.val →
      escapeByte (UInt8.ofNat k.val) = [UInt8.ofNat k.val] := by
    decide +kernel
  exact Text.Base64.forall_lt_of_fin (P := fun b => 128 ≤ b → escapeByte b = [b]) hall b.toNat_lt h

/-- A character is encoded in one ASCII byte, or in bytes beyond ASCII. -/
theorem utf8EncodeChar_cases (c : Char) :
    (∀ b ∈ String.utf8EncodeChar c, b < 128) ∨ ∀ b ∈ String.utf8EncodeChar c, 128 ≤ b := by
  have hbeyond : ∀ n : Nat, 128 ≤ n % 256 → 128 ≤ UInt8.ofNat n := by
    intro n hn
    rw [UInt8.le_iff_toNat_le, UInt8.toNat_ofNat]
    exact hn
  unfold String.utf8EncodeChar
  dsimp only
  split
  · left
    intro b hb
    rw [List.mem_singleton.1 hb, UInt8.lt_iff_toNat_lt, UInt8.toNat_ofNat]
    show c.val.toNat % 256 < 128
    omega
  · right
    split
    · simp only [List.forall_mem_cons, List.not_mem_nil, false_imp_iff, implies_true, and_true]
      exact ⟨hbeyond _ (by omega), hbeyond _ (by omega)⟩
    split
    · simp only [List.forall_mem_cons, List.not_mem_nil, false_imp_iff, implies_true, and_true]
      exact ⟨hbeyond _ (by omega), hbeyond _ (by omega), hbeyond _ (by omega)⟩
    · simp only [List.forall_mem_cons, List.not_mem_nil, false_imp_iff, implies_true, and_true]
      exact ⟨hbeyond _ (by omega), hbeyond _ (by omega), hbeyond _ (by omega), hbeyond _ (by omega)⟩

/-- Between quotes, a character stands for itself or is written in ASCII. -/
theorem isText_escapeChar (c : Char) : IsText ((String.utf8EncodeChar c).flatMap escapeByte) := by
  rcases utf8EncodeChar_cases c with hascii | hbeyond
  · apply isText_ascii
    intro d hd
    obtain ⟨b, hb, hd⟩ := List.mem_flatMap.1 hd
    exact escapeByte_ascii (hascii b hb) d hd
  · refine ⟨[c], ?_⟩
    rw [List.flatMap_singleton, List.flatMap_congr fun b hb => escapeByte_of_le (hbeyond b hb),
      List.flatMap_singleton']

theorem isText_quote (s : String) : IsText (quote s) := by
  have hquote : IsText [34] := isText_byte (by decide)
  have hbody : IsText ((Bytes.ofText s).flatMap escapeByte) := by
    rw [← String.ofList_toList (s := s), Bytes.ofText_ofList]
    induction s.toList with
    | nil => exact ⟨[], rfl⟩
    | cons c cs ih =>
      rw [List.flatMap_cons, List.flatMap_append]
      exact (isText_escapeChar c).append ih
  exact (hquote.append hbody).append hquote

/-- The bytes of digits are ASCII. -/
theorem digitBytes_ascii {digits : List Nat} (h : ∀ d ∈ digits, d < 10) :
    ∀ b ∈ digitBytes digits, b < 128 := by
  intro b hb
  obtain ⟨d, hd, rfl⟩ := List.mem_map.1 hb
  have hall : ∀ k : Fin 10, Bytes.ascii (Nat.digitChar k) < 128 := by decide
  exact hall ⟨d, h d hd⟩

theorem isText_int (i : Int) : IsText (Value.number (.int i)).bytes := by
  have hsign : IsText (if (literalOf i).negative then [45] else []) := by
    split
    · exact isText_byte (by decide)
    · exact ⟨[], rfl⟩
  have hdigits : IsText (digitBytes (literalOf i).whole) :=
    isText_ascii (digitBytes_ascii (grammatical_literalOf i).whole.2)
  have hnone : IsText (fractionBytes (literalOf i).fraction ++ exponentBytes (literalOf i).exponent) :=
    ⟨[], rfl⟩
  rw [Value.bytes, chars_int]
  exact hsign.append (hdigits.append hnone)

mutual

/-- The compact form of a value without floating-point numbers is a text. -/
theorem Value.isText_bytes : (v : Value) → v.FloatFree → IsText v.bytes
  | .null, _ => isText_iff.2 ⟨"null", rfl⟩
  | .bool true, _ => isText_iff.2 ⟨"true", rfl⟩
  | .bool false, _ => isText_iff.2 ⟨"false", rfl⟩
  | .number (.int i), _ => isText_int i
  | .number (.float _), h => absurd h id
  | .string s, _ => isText_quote s
  | .array items, h => by
    have hopen : IsText [91] := isText_byte (by decide)
    have hclose : IsText [93] := isText_byte (by decide)
    rw [Value.bytes]
    exact (hopen.append (isText_itemBytes items h)).append hclose
  | .object members, h => by
    have hopen : IsText [123] := isText_byte (by decide)
    have hclose : IsText [125] := isText_byte (by decide)
    rw [Value.bytes]
    exact (hopen.append (isText_memberBytes members h)).append hclose

theorem Value.isText_itemBytes : (items : List Value) → FloatFreeItems items → IsText (itemBytes items)
  | [], _ => ⟨[], rfl⟩
  | [v], h => isText_bytes v h.1
  | v :: w :: vs, h => by
    have hcomma : IsText [44] := isText_byte (by decide)
    exact (isText_bytes v h.1).append (hcomma.append (isText_itemBytes (w :: vs) h.2))

theorem Value.isText_memberBytes : (members : Members) → FloatFreeMembers members → IsText (memberBytes members)
  | [], _ => ⟨[], rfl⟩
  | [(k, v)], h => by
    have hcolon : IsText [58] := isText_byte (by decide)
    exact (isText_quote k).append (hcolon.append (isText_bytes v h.1))
  | (k, v) :: (l, w) :: rest, h => by
    have hcolon : IsText [58] := isText_byte (by decide)
    have hcomma : IsText [44] := isText_byte (by decide)
    have hmember : IsText (quote k ++ 58 :: v.bytes) :=
      (isText_quote k).append (hcolon.append (isText_bytes v h.1))
    exact hmember.append (hcomma.append (isText_memberBytes ((l, w) :: rest) h.2))

end

/-- The text of the compact form. -/
theorem Value.ofText_text {v : Value} (h : v.FloatFree) : Bytes.ofText v.text = v.bytes := by
  obtain ⟨s, hs⟩ := isText_iff.1 (isText_bytes v h)
  unfold text
  rw [← hs, Bytes.toText?_ofText]
  rfl

/-- **The text of the compact form spells the value**, if there is no floating-point number in it. -/
theorem spells_text {v : Value} (hfinite : v.Finite) (hfree : v.FloatFree) (h : v.tree.Spells v) :
    Spells (Bytes.ofText v.text) v := by
  rw [Value.ofText_text hfree]
  exact spells_bytes hfinite h

end GatewayControl.Json
