import GatewayControl.Cli.Run
import GatewayControl.Proofs.Json.Spelling

/-!
# `GatewayControl.Proofs.Cli.WorkloadFile` -- workload files are read as they were written

A workload has several forms: an object of its four fields among whatever else, or an array of the four,
and its type is a name or an object with that one key (`Workload.Form`). Each form is read as the workload,
in whatever text spells it (`ofTree?_of_spells`), and a list of forms as the list (`listOf?_of_spells`).

A file holds a list of workloads or a single one, and both may be arrays. A single workload that is an array
starts with a text, and a list starts with a workload, so no tree is both (`not_listOf?_and_ofTree?`): the
order in which the two readings are tried does not matter (`readAll?_eq_some_iff`).
-/

namespace GatewayControl

open Json (Members Spells Tree Value maxDepth pieces)

namespace WorkloadType

/-- The JSON forms of a type: its name, or an object with the name as its only key. -/
def forms (t : WorkloadType) : List Value := [.string t.text, .object [(t.text, .null)]]

@[simp] theorem ofText?_text (t : WorkloadType) : ofText? t.text = some t := by
  cases t <;> decide

end WorkloadType

namespace Workload

/-- The names of the fields of a workload, in the order of its array form. -/
def fieldNames : List String := ["id", "type", "user", "data"]

/-- The JSON values that stand for a workload. -/
inductive Form (w : Workload) : Value → Prop
  /-- An object with the four fields; members of other names mean nothing. -/
  | object {members : Members} {type : Value} (htype : type ∈ w.type.forms)
    (hmembers : [("id", .string w.id), ("type", type), ("user", .string w.user), ("data", w.data)] ⊆ members) :
    Form w (.object members)
  /-- An array of the four fields in order. -/
  | array {type : Value} (htype : type ∈ w.type.forms) :
    Form w (.array [.string w.id, type, .string w.user, w.data])

theorem form_toValue (w : Workload) : w.Form w.toValue :=
  .object (List.mem_cons_self ..) (List.Subset.refl _)

variable {w : Workload} {t : Tree} {v : Value} {depth : Nat}

/-! ## Reading each form -/

theorem typeOf?_of_spells {type : WorkloadType} (hform : v ∈ type.forms) (h : t.Spells v) :
    typeOf? t = some type := by
  rcases List.mem_cons.1 hform with rfl | hform
  · obtain ⟨ps, rfl, hps⟩ := Tree.spells_string_iff.1 h
    rw [typeOf?, hps]
    exact type.ofText?_text
  · obtain rfl := List.mem_singleton.1 hform
    obtain ⟨-, fields, listed, rfl, hperm, hfields⟩ := Tree.spells_object_iff.1 h
    obtain rfl := List.perm_singleton.1 hperm
    -- the object has one field, whose tree is that of null
    cases hfields with
    | @cons field _ _ _ hfield hnil =>
      cases hnil
      obtain ⟨key, u⟩ := field
      obtain rfl : u = .null := Tree.spells_null_iff.1 hfield.2
      rw [typeOf?, hfield.1]
      exact type.ofText?_text

/-- A workload is read from the trees of its fields. -/
theorem ofTree?_of_fields {type : Value} {trees : List Tree}
    (hrecord : t.record? fieldNames (depth + 1) = some (depth, trees.map some))
    (htrees : List.Forall₂ Tree.Spells trees [.string w.id, type, .string w.user, w.data])
    (htype : type ∈ w.type.forms) (hheld : w.data.Held) (hdepth : w.data.nesting ≤ depth) :
    ofTree? (depth + 1) t = some w := by
  obtain _ | ⟨hid, _ | ⟨hkind, _ | ⟨huser, _ | ⟨hdata, _ | _⟩⟩⟩⟩ := htrees
  obtain ⟨ids, rfl, hids⟩ := Tree.spells_string_iff.1 hid
  obtain ⟨users, rfl, husers⟩ := Tree.spells_string_iff.1 huser
  have hkind := typeOf?_of_spells htype hkind
  have hvalue := Tree.value?_of_spells hdata hdepth
  rw [hheld.sorted_eq] at hvalue
  unfold fieldNames at hrecord
  unfold ofTree?
  rw [hrecord]
  simp only [Option.bind_eq_bind, Option.bind_some, List.map_cons, List.map_nil, Tree.text?, hids, husers, hkind,
    hvalue]
  rfl

/-- **Every form of a workload is read as the workload**, in whatever spelling. -/
theorem ofTree?_of_spells (hform : w.Form v) (hheld : w.data.Held) (h : t.Spells v)
    (hdepth : v.nesting ≤ depth) : ofTree? depth t = some w := by
  cases hform with
  | @object members type htype hmembers =>
    rw [Value.nesting] at hdepth
    obtain ⟨depth, rfl⟩ : ∃ n, depth = n + 1 := ⟨depth - 1, by omega⟩
    have hfields : List.Forall₂ (fun name v => (name, v) ∈ members) fieldNames
        [.string w.id, type, .string w.user, w.data] := by
      simpa [fieldNames] using hmembers
    have hdata : ("data", w.data) ∈ members := hmembers (by simp)
    obtain ⟨trees, hrecord, htrees⟩ := Tree.record?_of_object h (by decide : fieldNames.Nodup) hfields depth
    exact ofTree?_of_fields hrecord htrees htype hheld
      (Value.nestingMembers_le_iff.1 (Nat.le_of_succ_le_succ hdepth) _ hdata)
  | @array type htype =>
    rw [Value.nesting] at hdepth
    obtain ⟨depth, rfl⟩ : ∃ n, depth = n + 1 := ⟨depth - 1, by omega⟩
    have hlength : [.string w.id, type, .string w.user, w.data].length = fieldNames.length := rfl
    obtain ⟨trees, hrecord, htrees⟩ := Tree.record?_of_array h hlength depth
    exact ofTree?_of_fields hrecord htrees htype hheld
      (Value.nestingItems_le_iff.1 (Nat.le_of_succ_le_succ hdepth) _ (by simp))

/-- Items that spell forms are read one by one. -/
theorem mapM_ofTree?_of_spells {workloads : List Workload} {values : List Value} {items : List Tree}
    (hforms : List.Forall₂ Form workloads values) (hheld : ∀ w ∈ workloads, w.data.Held)
    (hitems : List.Forall₂ Tree.Spells items values) (hdepth : ∀ v ∈ values, v.nesting ≤ depth) :
    items.mapM (ofTree? depth) = some workloads := by
  induction hforms generalizing items with
  | nil =>
    obtain rfl := List.forall₂_nil_right_iff.1 hitems
    rfl
  | @cons w v workloads values hform _ ih =>
    obtain ⟨t, rest, ht, hrest, rfl⟩ := List.forall₂_cons_right_iff.1 hitems
    rw [List.forall_mem_cons] at hheld hdepth
    have hw := ofTree?_of_spells hform hheld.1 ht hdepth.1
    have hworkloads := ih hheld.2 hrest hdepth.2
    rw [List.mapM_cons, hw, hworkloads]
    rfl

/-- **A list of forms is read as the list of the workloads**, in order. -/
theorem listOf?_of_spells {workloads : List Workload} {values : List Value}
    (hforms : List.Forall₂ Form workloads values) (hheld : ∀ w ∈ workloads, w.data.Held)
    (h : t.Spells (.array values)) (hdepth : (Value.array values).nesting ≤ maxDepth) :
    listOf? t = some workloads := by
  obtain ⟨items, rfl, hitems⟩ := Tree.spells_array_iff.1 h
  have hvalues : ∀ v ∈ values, v.nesting ≤ 126 :=
    Value.nestingItems_le_iff.1 (Nat.le_of_succ_le_succ hdepth)
  show items.mapM (ofTree? 126) = some workloads
  exact mapM_ofTree?_of_spells hforms hheld hitems hvalues

/-! ## A list or a single workload -/

/-- What is read as a list is an array of what is read as workloads. -/
theorem exists_items_of_listOf? {workloads : List Workload} (h : listOf? t = some workloads) :
    ∃ items, t = .array items ∧ items.mapM (ofTree? 126) = some workloads := by
  cases t with
  | array items => exact ⟨items, rfl, h⟩
  | null | bool | number | string | object => cases h

theorem exists_pieces_of_text? {text : String} (h : t.text? = some text) : ∃ ps, t = .string ps := by
  cases t with
  | string ps => exact ⟨ps, rfl⟩
  | null | bool | number | array | object => cases h

/-- A workload that is an array starts with a text. -/
theorem exists_string_of_ofTree? {items : List Tree} (h : ofTree? depth (.array items) = some w) :
    ∃ ps rest, items = .string ps :: rest := by
  unfold ofTree? at h
  obtain ⟨⟨deeper, fields⟩, hrecord, h⟩ := Option.bind_eq_some_iff.1 h
  dsimp only at h
  split at h
  · next id type user data =>
    obtain ⟨text, htext, -⟩ := Option.bind_eq_some_iff.1 h
    obtain ⟨ps, rfl⟩ := exists_pieces_of_text? htext
    cases depth with
    | zero => cases hrecord
    | succ depth =>
      rw [Tree.record?] at hrecord
      split at hrecord
      · cases hrecord
      · -- an array with no items would leave the first field empty
        cases items with
        | nil => cases hrecord
        | cons t rest =>
          have hfields := congrArg Prod.snd (Option.some.inj hrecord)
          have hhead := (List.cons.inj hfields).1
          exact ⟨ps, rest, by rw [Option.some.inj hhead]⟩
  · cases h

/-- A text is no workload. -/
theorem ofTree?_string (ps : List Json.Piece) : ofTree? depth (.string ps) = none := by
  cases depth <;> rfl

/-- **No tree is both a list of workloads and a workload.** -/
theorem not_listOf?_and_ofTree? (t : Tree) :
    ¬ ((listOf? t).isSome = true ∧ (ofTree? depth t).isSome = true) := by
  rintro ⟨hlist, hsingle⟩
  obtain ⟨workloads, hlist⟩ := Option.isSome_iff_exists.1 hlist
  obtain ⟨w, hsingle⟩ := Option.isSome_iff_exists.1 hsingle
  obtain ⟨items, rfl, hitems⟩ := exists_items_of_listOf? hlist
  obtain ⟨ps, rest, rfl⟩ := exists_string_of_ofTree? hsingle
  rw [List.mapM_cons, ofTree?_string] at hitems
  cases hitems

/-- **A text is a workload file if it is proper JSON, and a list of workloads or a single one.** It does not
matter which of the two is tried first. -/
theorem readAll?_eq_some_iff {text : Bytes} {workloads : List Workload} :
    readAll? text = some workloads ↔ ∃ t, Tree.read? text = some t ∧ (t.value? maxDepth).isSome = true ∧
      (listOf? t = some workloads ∨ ∃ w, ofTree? maxDepth t = some w ∧ workloads = [w]) := by
  unfold readAll?
  constructor
  · intro h
    obtain ⟨t, ht, h⟩ := Option.bind_eq_some_iff.1 h
    obtain ⟨v, hv, h⟩ := Option.bind_eq_some_iff.1 h
    refine ⟨t, ht, Option.isSome_of_eq_some hv, ?_⟩
    split at h
    · next hlist =>
      cases h
      exact .inl hlist
    · obtain ⟨w, hw, h⟩ := Option.bind_eq_some_iff.1 h
      cases h
      exact .inr ⟨w, hw, rfl⟩
  · rintro ⟨t, ht, hvalue, hread⟩
    obtain ⟨v, hv⟩ := Option.isSome_iff_exists.1 hvalue
    rw [ht, Option.bind_eq_bind, Option.bind_some, hv, Option.bind_eq_bind, Option.bind_some]
    rcases hread with hlist | ⟨w, hw, rfl⟩
    · rw [hlist]
    · -- what is read as one workload is not read as a list
      have hlist : listOf? t = none := by
        cases hlist : listOf? t with
        | none => rfl
        | some workloads =>
          exact absurd ⟨by rw [hlist]; rfl, by rw [hw]; rfl⟩ (not_listOf?_and_ofTree? t)
      rw [hlist, hw]
      rfl

/-! ## The compact form -/

section Compact

variable {workloads : List Workload}

theorem spells_tree_toValue (hheld : w.data.Held) (hfree : w.data.FloatFree) :
    w.toValue.tree.Spells w.toValue := by
  apply Value.spells_tree_object
  · show fieldNames.Nodup
    decide
  · simp only [List.forall_mem_cons, List.not_mem_nil, false_imp_iff, implies_true, and_true]
    exact ⟨Value.spells_tree_string _, Value.spells_tree_string _, Value.spells_tree_string _,
      hheld.spells_tree hfree⟩

theorem finite_toValue (hheld : w.data.Held) : w.toValue.Finite :=
  ⟨trivial, trivial, trivial, hheld.finite, trivial⟩

theorem floatFree_toValue (hfree : w.data.FloatFree) : w.toValue.FloatFree :=
  ⟨trivial, trivial, trivial, hfree, trivial⟩

theorem spells_text_toValue (hheld : w.data.Held) (hfree : w.data.FloatFree) :
    Spells (Bytes.ofText w.toValue.text) w.toValue :=
  Json.spells_text (finite_toValue hheld) (floatFree_toValue hfree) (spells_tree_toValue hheld hfree)

theorem spells_text_list (h : ∀ w ∈ workloads, w.data.Held ∧ w.data.FloatFree) :
    Spells (Bytes.ofText (Value.array (workloads.map toValue)).text) (.array (workloads.map toValue)) := by
  apply Json.spells_text
  · apply Value.finiteItems_iff.2
    intro v hv
    obtain ⟨w, hw, rfl⟩ := List.mem_map.1 hv
    exact finite_toValue (h w hw).1
  · apply Value.floatFreeItems_iff.2
    intro v hv
    obtain ⟨w, hw, rfl⟩ := List.mem_map.1 hv
    exact floatFree_toValue (h w hw).2
  · apply Value.spells_tree_array
    intro v hv
    obtain ⟨w, hw, rfl⟩ := List.mem_map.1 hv
    exact spells_tree_toValue (h w hw).1 (h w hw).2

theorem forms_toValue (workloads : List Workload) : List.Forall₂ Form workloads (workloads.map toValue) :=
  List.forall₂_map_right_iff.2 (List.forall₂_same.2 fun w _ => w.form_toValue)

end Compact

end Workload

namespace Cli

open Workload

/-- What is read from a file with a text: the workloads that were written to it, and nothing else. -/
structure ReadsAsWritten (files : Files) (path text : String) : Prop where
  /-- A list of workloads in its compact form is read as the list. -/
  list : ∀ workloads : List Workload, (∀ w ∈ workloads, w.data.Held ∧ w.data.FloatFree) →
    (Value.array (workloads.map toValue)).nesting ≤ maxDepth →
    text = (Value.array (workloads.map toValue)).text → readWorkloads files path = .ok workloads
  /-- A workload in its compact form is read as the only one. -/
  single : ∀ w : Workload, w.data.Held → w.data.FloatFree → w.toValue.nesting ≤ maxDepth →
    text = w.toValue.text → readWorkloads files path = .ok [w]
  /-- A list of workloads is read as the list, whatever form each has and however the text spells them. -/
  spelledList : ∀ (workloads : List Workload) (values : List Value), List.Forall₂ Form workloads values →
    (∀ w ∈ workloads, w.data.Held) → (Value.array values).nesting ≤ maxDepth →
    Spells (Bytes.ofText text) (.array values) → readWorkloads files path = .ok workloads
  /-- A workload in any form, an array of its fields among them, is read as the only one. -/
  spelledSingle : ∀ (w : Workload) (v : Value), w.Form v → w.data.Held → v.nesting ≤ maxDepth →
    Spells (Bytes.ofText text) v → readWorkloads files path = .ok [w]
  /-- No text is both a list of workloads and a single one. -/
  unambiguous : ∀ t, Tree.read? (Bytes.ofText text) = some t →
    ¬ ((listOf? t).isSome = true ∧ (ofTree? maxDepth t).isSome = true)
  /-- What is read is what one of the two readings yields, whichever it is: neither hides the other. -/
  either : ∀ workloads, readWorkloads files path = .ok workloads ↔ ∃ t,
    Tree.read? (Bytes.ofText text) = some t ∧ (t.value? maxDepth).isSome = true ∧
      (listOf? t = some workloads ∨ ∃ w, ofTree? maxDepth t = some w ∧ workloads = [w])

variable {files : Files} {path text : String}

theorem readWorkloads_eq_ok_iff (hfile : files.readText path = .ok text) {workloads : List Workload} :
    readWorkloads files path = .ok workloads ↔ readAll? (Bytes.ofText text) = some workloads := by
  unfold readWorkloads
  rw [hfile]
  dsimp only
  cases readAll? (Bytes.ofText text) with
  | none => simp
  | some read => simp

theorem readWorkloads_of_spelledList (hfile : files.readText path = .ok text) {workloads : List Workload}
    {values : List Value} (hforms : List.Forall₂ Form workloads values)
    (hheld : ∀ w ∈ workloads, w.data.Held) (hdepth : (Value.array values).nesting ≤ maxDepth)
    (h : Spells (Bytes.ofText text) (.array values)) : readWorkloads files path = .ok workloads := by
  obtain ⟨t, ht, hspells⟩ := h
  have hvalue := Tree.value?_of_spells hspells hdepth
  have hlist := listOf?_of_spells hforms hheld hspells hdepth
  apply (readWorkloads_eq_ok_iff hfile).2
  exact readAll?_eq_some_iff.2 ⟨t, ht, Option.isSome_of_eq_some hvalue, .inl hlist⟩

theorem readWorkloads_of_spelledSingle (hfile : files.readText path = .ok text) {w : Workload} {v : Value}
    (hform : w.Form v) (hheld : w.data.Held) (hdepth : v.nesting ≤ maxDepth)
    (h : Spells (Bytes.ofText text) v) : readWorkloads files path = .ok [w] := by
  obtain ⟨t, ht, hspells⟩ := h
  have hvalue := Tree.value?_of_spells hspells hdepth
  have hw := ofTree?_of_spells hform hheld hspells hdepth
  apply (readWorkloads_eq_ok_iff hfile).2
  exact readAll?_eq_some_iff.2 ⟨t, ht, Option.isSome_of_eq_some hvalue, .inr ⟨w, hw, rfl⟩⟩

/-- **Workload files are read as they were written, and in one way only.** -/
theorem workloads_read_as_written (hfile : files.readText path = .ok text) :
    ReadsAsWritten files path text where
  list workloads h hdepth htext := by
    subst htext
    exact readWorkloads_of_spelledList hfile (forms_toValue workloads) (fun w hw => (h w hw).1) hdepth
      (spells_text_list h)
  single w hheld hfree hdepth htext := by
    subst htext
    exact readWorkloads_of_spelledSingle hfile w.form_toValue hheld hdepth (spells_text_toValue hheld hfree)
  spelledList _ _ hforms hheld hdepth h := readWorkloads_of_spelledList hfile hforms hheld hdepth h
  spelledSingle _ _ hform hheld hdepth h := readWorkloads_of_spelledSingle hfile hform hheld hdepth h
  unambiguous t _ := not_listOf?_and_ofTree? t
  either _ := (readWorkloads_eq_ok_iff hfile).trans readAll?_eq_some_iff

/-- Two workloads in a list, and one that is an array with blanks in it. -/
theorem workloads_read_as_written_row :
    (let zone : Workload := ⟨"w1", .delegate, "ann", .object [("domain", .string "ann.example")]⟩
     let row : Workload := ⟨"", .proxy, "a:b", .array [.null, .array []]⟩
     let text := (Value.array [zone.toValue, row.toValue]).text
     readWorkloads (Files.empty.add "w.json" (Bytes.ofText text)) "w.json" = .ok [zone, row]) ∧
    (let text := "[\"w2\", \"gateway-proxy\", \"ann\", [null, \"a\"]]"
     readWorkloads (Files.empty.add "w.json" (Bytes.ofText text)) "w.json" =
      .ok [⟨"w2", .proxy, "ann", .array [.null, .string "a"]⟩]) := by
  have hfile : ∀ text, (Files.empty.add "w.json" (Bytes.ofText text)).readText "w.json" = .ok text := by
    intro text
    have hread : (Files.empty.add "w.json" (Bytes.ofText text)).read "w.json" = .ok (Bytes.ofText text) := rfl
    unfold Files.readText
    rw [hread]
    dsimp only [bind, Except.bind]
    rw [Bytes.toText?_ofText]
    rfl
  constructor
  · intro zone row text
    have hzone : zone.data.Held ∧ zone.data.FloatFree :=
      ⟨⟨1, by simp [zone, Value.Readable, Json.Members.Ordered]⟩,
        by simp [zone, Value.FloatFree, Value.FloatFreeMembers]⟩
    have hrow : row.data.Held ∧ row.data.FloatFree :=
      ⟨⟨2, by simp [row, Value.Readable]⟩, by simp [row, Value.FloatFree, Value.FloatFreeItems]⟩
    have hall : ∀ w ∈ [zone, row], w.data.Held ∧ w.data.FloatFree := by
      simpa using ⟨hzone, hrow⟩
    exact (workloads_read_as_written (hfile text)).list [zone, row] hall (by decide) rfl
  · intro text
    have htree : Tree.read? (Bytes.ofText text) =
        some (.array [.string (pieces "w2"), .string (pieces "gateway-proxy"), .string (pieces "ann"),
          .array [.null, .string (pieces "a")]]) := rfl
    have hspells : Spells (Bytes.ofText text)
        (.array [.string "w2", .string "gateway-proxy", .string "ann", .array [.null, .string "a"]]) :=
      ⟨_, htree, by simp [Tree.Spells, Tree.SpellsItems, Json.pieceText?_pieces]⟩
    have hform := Form.array (w := ⟨"w2", .proxy, "ann", .array [.null, .string "a"]⟩) (List.mem_cons_self ..)
    have hheld : (Value.array [.null, .string "a"]).Held := ⟨1, by simp [Value.Readable]⟩
    exact (workloads_read_as_written (hfile text)).spelledSingle _ _ hform hheld (by decide) hspells

end Cli

end GatewayControl
