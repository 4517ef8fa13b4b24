import GatewayControl.Dns.RecordSet
import GatewayControl.Proofs.Json.Reread
import GatewayControl.Proofs.Net.IpText

/-!
# `GatewayControl.Proofs.Dns.RecordCodec` -- the stored form of record sets is read back

Each list of records is written as one member and read back as one list, whatever its type
(`listOf?_tree`): the four types differ in how they spell their data. `putAll_members` puts the
members of a set together, before whatever else stands in the object. A set that was read can always be
read again: `decode?_encode_eq_reread` gives the set that comes out, with the values of other types as
they are read back, and `decode?_encode_of_kept` says that it is the set itself if none of these values
holds a floating-point number.
-/

namespace GatewayControl
namespace RecordSet

open Json

/-! ## One record, one list -/

/-- A written record is read back. -/
theorem recordOf?_tree {α : Type} {key : String} (hkey : key ≠ "ttl") {data? : String → Option α}
    {text : α → String} (hdata : ∀ d, data? (text d) = some d) (depth : Nat) (r : Timed α) :
    recordOf? key data? (depth + 1) (recordValue key (text r.data) r.ttl).tree = some r := by
  have httl : (Tree.number (literalOf r.ttl.toNat)).natBelow? 0x100000000 = some r.ttl.toNat :=
    natBelow?_literalOf r.ttl.toNat_lt (Nat.le_trans (Nat.le_of_lt r.ttl.toNat_lt) (by decide))
  have htree : (recordValue key (text r.data) r.ttl).tree =
      .object [(pieces key, .string (pieces (text r.data))),
        (pieces "ttl", .number (literalOf r.ttl.toNat))] := rfl
  have hslots : Tree.record? [key, "ttl"] (depth + 1) (recordValue key (text r.data) r.ttl).tree =
      some (depth, [some (.string (pieces (text r.data))),
        some (.number (literalOf r.ttl.toNat))]) := by
    rw [htree]
    simp [Tree.record?, Tree.fillSlots, Tree.fillSlot, pieceText?_pieces, hkey]
  unfold recordOf?
  rw [hslots]
  simp [Tree.text?, pieceText?_pieces, hdata, httl]

/-- A written list of records is read back. -/
theorem listOf?_tree {α : Type} {key : String} (hkey : key ≠ "ttl") {data? : String → Option α}
    {text : α → String} (hdata : ∀ d, data? (text d) = some d) (depth : Nat)
    (records : List (Timed α)) :
    listOf? key data? (depth + 2)
      (Value.array (records.map fun r => recordValue key (text r.data) r.ttl)).tree =
        some records := by
  have hitems : ∀ rs : List (Timed α),
      (Value.treeItems (rs.map fun r => recordValue key (text r.data) r.ttl)).mapM
        (recordOf? key data? (depth + 1)) = some rs := by
    intro rs
    induction rs with
    | nil => rfl
    | cons r rs ih =>
      rw [List.map_cons, Value.treeItems, List.mapM_cons, recordOf?_tree hkey hdata, ih]
      rfl
  unfold listOf?
  rw [Value.tree, Tree.items?]
  exact hitems records

/-! ## Whole sets -/

/-- The members for the modelled types. -/
def members (set : RecordSet) : Members :=
  listMember "a" (set.a.map fun r => recordValue "ip" r.data.text r.ttl) ++
  listMember "aaaa" (set.aaaa.map fun r => recordValue "ip" r.data.text r.ttl) ++
  listMember "cname" (set.cname.map fun r => recordValue "host" r.data r.ttl) ++
  listMember "txt" (set.txt.map fun r => recordValue "text" r.data r.ttl)

theorem toValue_eq (set : RecordSet) : set.toValue = .object (set.members ++ set.foreign) := rfl

/-- A list as it is taken in: there is no member for an empty one. -/
def taken {α : Type} (records : List α) : Option (List α) :=
  if records = [] then none else some records

theorem treeMembers_append (m n : Members) :
    Value.treeMembers (m ++ n) = Value.treeMembers m ++ Value.treeMembers n := by
  induction m with
  | nil => rfl
  | cons p m ih =>
    rw [List.cons_append, Value.treeMembers, Value.treeMembers, ih]
    rfl

theorem finiteMembers_append (m n : Members) :
    Value.FiniteMembers (m ++ n) ↔ Value.FiniteMembers m ∧ Value.FiniteMembers n := by
  induction m with
  | nil => simp [Value.FiniteMembers]
  | cons p m ih => simp [Value.FiniteMembers, ih, and_assoc]

/-- One list is taken in if there is a member for it, and the rest after it. -/
theorem putAll_listMember {depth : Nat} {set : Partial} {key : String} {items : List Value}
    (next : Partial) (hput : items ≠ [] → set.put depth key (Value.array items).tree = some next)
    (hnone : items = [] → next = set) (rest : List (List Piece × Tree)) :
    Partial.putAll depth set (Value.treeMembers (listMember key items) ++ rest) =
      Partial.putAll depth next rest := by
  cases items with
  | nil =>
    rw [hnone rfl]
    rfl
  | cons v vs =>
    have hmember : Value.treeMembers (listMember key (v :: vs)) ++ rest =
        (pieces key, (Value.array (v :: vs)).tree) :: rest := rfl
    rw [hmember, Partial.putAll, pieceText?_pieces, Option.bind_eq_bind, Option.bind_some,
      hput (List.cons_ne_nil v vs)]
    rfl

theorem taken_of_map_eq_nil {α β : Type} {f : α → β} {records : List α} (h : records.map f = []) :
    taken records = none := if_pos (List.map_eq_nil_iff.1 h)

theorem taken_of_map_ne_nil {α β : Type} {f : α → β} {records : List α} (h : records.map f ≠ []) :
    taken records = some records := if_neg fun hnil => h (List.map_eq_nil_iff.2 hnil)

theorem getD_taken {α : Type} (records : List α) : (taken records).getD [] = records := by
  unfold taken
  split
  · next h => exact h.symm
  · rfl

/-- The lists are taken in type after type. -/
theorem putAll_members (depth : Nat) (set : RecordSet) (rest : List (List Piece × Tree)) :
    Partial.putAll (depth + 2) ⟨none, none, none, none, []⟩ (Value.treeMembers set.members ++ rest) =
      Partial.putAll (depth + 2)
        ⟨taken set.a, taken set.aaaa, taken set.cname, taken set.txt, []⟩ rest := by
  have hself : ∀ s : String, some (id s) = some s := fun _ => rfl
  have ha := listOf?_tree (show "ip" ≠ "ttl" by decide) Ipv4.parse?_text depth set.a
  have haaaa := listOf?_tree (show "ip" ≠ "ttl" by decide) Ipv6.parse?_text depth set.aaaa
  have hcname := listOf?_tree (show "host" ≠ "ttl" by decide) hself depth set.cname
  have htxt := listOf?_tree (show "text" ≠ "ttl" by decide) hself depth set.txt
  simp only [id_eq] at hcname htxt
  unfold members
  simp only [treeMembers_append, List.append_assoc]
  -- each step fixes what has been taken in after one more type
  rw [putAll_listMember ⟨taken set.a, none, none, none, []⟩,
    putAll_listMember ⟨taken set.a, taken set.aaaa, none, none, []⟩,
    putAll_listMember ⟨taken set.a, taken set.aaaa, taken set.cname, none, []⟩,
    putAll_listMember ⟨taken set.a, taken set.aaaa, taken set.cname, taken set.txt, []⟩]
  · intro hne
    simp [Partial.put, htxt, taken_of_map_ne_nil hne]
  · intro hnil
    rw [taken_of_map_eq_nil hnil]
  · intro hne
    simp [Partial.put, hcname, taken_of_map_ne_nil hne]
  · intro hnil
    rw [taken_of_map_eq_nil hnil]
  · intro hne
    simp [Partial.put, haaaa, taken_of_map_ne_nil hne]
  · intro hnil
    rw [taken_of_map_eq_nil hnil]
  · intro hne
    simp [Partial.put, ha, taken_of_map_ne_nil hne]
  · intro hnil
    rw [taken_of_map_eq_nil hnil]

theorem finiteMembers_listMember {α : Type} (key field : String) (text : α → String)
    (records : List (Timed α)) :
    Value.FiniteMembers
      (listMember key (records.map fun r => recordValue field (text r.data) r.ttl)) := by
  have hitems : ∀ rs : List (Timed α),
      Value.FiniteItems (rs.map fun r => recordValue field (text r.data) r.ttl) := by
    intro rs
    induction rs with
    | nil => exact trivial
    | cons r rs ih => exact ⟨⟨trivial, trivial, trivial⟩, ih⟩
  unfold listMember
  split
  · exact trivial
  · exact ⟨hitems records, trivial⟩

theorem finiteMembers_members (set : RecordSet) : Value.FiniteMembers set.members := by
  unfold members
  simp only [finiteMembers_append]
  refine ⟨⟨⟨?_, ?_⟩, ?_⟩, ?_⟩
  · exact finiteMembers_listMember "a" "ip" Ipv4.text set.a
  · exact finiteMembers_listMember "aaaa" "ip" Ipv6.text set.aaaa
  · exact finiteMembers_listMember "cname" "host" id set.cname
  · exact finiteMembers_listMember "txt" "text" id set.txt

/-! ## Values of other types -/

/-- What can stand in a set beside the modelled types: members in the order in which they are written,
under keys of no modelled type, whose values fit into the object around them. -/
structure Kept (foreign : Members) : Prop where
  ordered : foreign.Ordered
  unmodelled : ∀ p ∈ foreign, RecordType.ofKey? p.1 = none
  readable : ∀ p ∈ foreign, p.2.Readable (maxDepth - 1)

theorem kept_nil : Kept [] where
  ordered := List.Pairwise.nil
  unmodelled := fun _ hp => absurd hp List.not_mem_nil
  readable := fun _ hp => absurd hp List.not_mem_nil

theorem ofKey?_eq_none {key : String} :
    RecordType.ofKey? key = none ↔ key ≠ "a" ∧ key ≠ "aaaa" ∧ key ≠ "cname" ∧ key ≠ "txt" := by
  simp [RecordType.ofKey?, RecordType.all, RecordType.key, ne_comm (a := key)]

/-- A member under another key is taken in as it is. -/
theorem put_of_unmodelled {depth : Nat} (set : Partial) {key : String} {t : Tree} {v : Value}
    (hkey : RecordType.ofKey? key = none) (ht : t.value? depth = some v) :
    set.put depth key t = some { set with foreign := set.foreign.insert key v } := by
  obtain ⟨ha, haaaa, hcname, htxt⟩ := ofKey?_eq_none.1 hkey
  unfold Partial.put
  rw [if_neg ha, if_neg haaaa, if_neg hcname, if_neg htxt, ht]
  rfl

/-- A member is a list of a modelled type, or it is added to the others. -/
theorem foreign_put {depth : Nat} {set next : Partial} {key : String} {t : Tree}
    (h : set.put depth key t = some next) :
    next.foreign = set.foreign ∨ RecordType.ofKey? key = none ∧
      ∃ v, t.value? depth = some v ∧ next.foreign = set.foreign.insert key v := by
  have hlist : ∀ {α : Type} {taken : Bool} {read : Option (List (Timed α))}
      (put : List (Timed α) → Partial), (∀ list, (put list).foreign = set.foreign) →
      (if taken then none else read.bind fun list => some (put list)) = some next →
      next.foreign = set.foreign := by
    intro α taken read put hput h
    split at h
    · cases h
    · obtain ⟨list, -, hnext⟩ := Option.bind_eq_some_iff.1 h
      cases hnext
      exact hput list
  unfold Partial.put at h
  split at h
  · exact .inl (hlist (fun list => { set with a := some list }) (fun _ => rfl) h)
  split at h
  · exact .inl (hlist (fun list => { set with aaaa := some list }) (fun _ => rfl) h)
  split at h
  · exact .inl (hlist (fun list => { set with cname := some list }) (fun _ => rfl) h)
  split at h
  · exact .inl (hlist (fun list => { set with txt := some list }) (fun _ => rfl) h)
  · next ha haaaa hcname htxt =>
    obtain ⟨v, hv, hnext⟩ := Option.bind_eq_some_iff.1 h
    cases hnext
    exact .inr ⟨ofKey?_eq_none.2 ⟨ha, haaaa, hcname, htxt⟩, v, hv, rfl⟩

theorem Kept.insert {foreign : Members} (h : Kept foreign) {key : String} {v : Value}
    (hkey : RecordType.ofKey? key = none) (hv : v.Readable (maxDepth - 1)) :
    Kept (foreign.insert key v) where
  ordered := h.ordered.insert key v
  unmodelled := fun p hp => by
    rcases Members.mem_insert hp with rfl | hp
    · exact hkey
    · exact h.unmodelled p hp
  readable := fun p hp => by
    rcases Members.mem_insert hp with rfl | hp
    · exact hv
    · exact h.readable p hp

theorem Kept.putAll {fields : List (List Piece × Tree)} {set next : Partial}
    (h : Kept set.foreign) (hput : set.putAll (maxDepth - 1) fields = some next) :
    Kept next.foreign := by
  induction fields generalizing set with
  | nil =>
    cases hput
    exact h
  | cons field rest ih =>
    obtain ⟨key, t⟩ := field
    obtain ⟨name, -, hput⟩ := Option.bind_eq_some_iff.1 hput
    obtain ⟨mid, hmid, hrest⟩ := Option.bind_eq_some_iff.1 hput
    refine ih ?_ hrest
    rcases foreign_put hmid with heq | ⟨hkey, v, hv, heq⟩
    · rwa [heq]
    · rw [heq]
      exact h.insert hkey (Value.readable_of_value? hv)

/-- **Reading keeps what can be written again.** -/
theorem kept_of_decode? {bytes : Bytes} {set : RecordSet} (h : decode? bytes = some set) :
    Kept set.foreign := by
  obtain ⟨t, -, h⟩ := Option.bind_eq_some_iff.1 h
  cases t with
  | object fields =>
    obtain ⟨read, hread, hset⟩ := Option.bind_eq_some_iff.1 h
    cases hset
    exact kept_nil.putAll hread
  | null | bool | number | string | array => cases h

/-- Written members of other types are taken in one after the other, as they are read back. -/
theorem putAll_foreign {depth : Nat} (set : Partial) {foreign : Members}
    (hkeys : ∀ p ∈ foreign, RecordType.ofKey? p.1 = none)
    (hvalues : ∀ p ∈ foreign, p.2.Readable depth) :
    set.putAll depth (Value.treeMembers foreign) =
      some { set with
        foreign := set.foreign.insertAll (foreign.map fun p => (p.1, p.2.reread depth)) } := by
  induction foreign generalizing set with
  | nil => rfl
  | cons p rest ih =>
    have hput := put_of_unmodelled set (hkeys p (List.mem_cons_self ..))
      (Value.value?_tree_eq_reread (hvalues p (List.mem_cons_self ..)))
    have hrest := ih { set with foreign := set.foreign.insert p.1 (p.2.reread depth) }
      (fun q hq => hkeys q (List.mem_cons_of_mem _ hq))
      (fun q hq => hvalues q (List.mem_cons_of_mem _ hq))
    rw [Value.treeMembers, Partial.putAll, pieceText?_pieces, Option.bind_eq_bind, Option.bind_some,
      hput, Option.bind_eq_bind, Option.bind_some, hrest]
    rfl

/-- The set that comes out when a set is written and read. -/
def reread (set : RecordSet) : RecordSet :=
  { set with foreign := set.foreign.map fun p => (p.1, p.2.reread (maxDepth - 1)) }

theorem Kept.ordered_reread {foreign : Members} (h : Kept foreign) (depth : Nat) :
    Members.Ordered (foreign.map fun p => (p.1, p.2.reread depth)) :=
  List.pairwise_map.2 h.ordered

/-- **A set is read back** from its stored form: the lists as they are, and the values of all other types
as they are read back. -/
theorem decode?_encode_eq_reread {set : RecordSet} (h : Kept set.foreign) :
    decode? set.encode = some set.reread := by
  have hvalue : set.toValue.Finite := by
    rw [toValue_eq]
    exact (finiteMembers_append _ _).2
      ⟨finiteMembers_members set, Value.finiteMembers_iff.2 fun p hp => (h.readable p hp).finite⟩
  have hsorted := Members.ofList_of_ordered (h.ordered_reread (maxDepth - 1))
  have hputAll := putAll_members (maxDepth - 3) set (Value.treeMembers set.foreign)
  rw [show maxDepth - 3 + 2 = maxDepth - 1 from rfl, putAll_foreign _ h.unmodelled h.readable] at hputAll
  unfold decode? encode
  rw [Tree.read?_bytes hvalue, toValue_eq, Option.bind_eq_bind, Option.bind_some, Value.tree,
    treeMembers_append]
  refine Option.bind_eq_some_iff.2 ⟨_, hputAll, ?_⟩
  simp only [getD_taken]
  exact congrArg (fun foreign => some { set with foreign }) hsorted

/-- A value that stands for no records still does when it is read back, and no other value does. -/
theorem isVoid_reread {depth : Nat} {v : Value} (h : v.Readable depth) :
    isVoid (v.reread depth) = isVoid v := by
  have hback := Value.value?_tree_eq_reread h
  generalize v.reread depth = w at hback ⊢
  cases v with
  | null =>
    rw [Value.tree, Tree.value?] at hback
    cases hback
    rfl
  | bool b =>
    rw [Value.tree, Tree.value?] at hback
    cases hback
    rfl
  | number n =>
    rw [Value.tree, Tree.value?] at hback
    obtain ⟨n, -, rfl⟩ := Option.map_eq_some_iff.1 hback
    rfl
  | string s =>
    rw [Value.tree, Tree.value?] at hback
    obtain ⟨s, -, rfl⟩ := Option.map_eq_some_iff.1 hback
    rfl
  | array items =>
    cases depth with
    | zero => exact absurd h id
    | succ depth =>
      rw [Value.tree, Tree.value?] at hback
      obtain ⟨back, hitems, rfl⟩ := Option.map_eq_some_iff.1 hback
      -- as many items come back
      cases items with
      | nil =>
        cases hitems
        rfl
      | cons v vs =>
        rw [Value.treeItems, List.mapM_cons] at hitems
        obtain ⟨w, -, hitems⟩ := Option.bind_eq_some_iff.1 hitems
        obtain ⟨ws, -, hitems⟩ := Option.bind_eq_some_iff.1 hitems
        cases hitems
        rfl
  | object members =>
    cases depth with
    | zero => exact absurd h id
    | succ depth =>
      rw [Value.tree, Tree.value?] at hback
      obtain ⟨pairs, -, hback⟩ := Option.bind_eq_some_iff.1 hback
      cases hback
      rfl

/-- A set that is read back holds records if the set did. -/
theorem isEmpty_reread {set : RecordSet} (h : Kept set.foreign) : set.reread.isEmpty = set.isEmpty := by
  have hvoid : set.reread.foreign.all (fun p => isVoid p.2) = set.foreign.all (fun p => isVoid p.2) := by
    unfold reread
    rw [List.all_map, Bool.eq_iff_iff, List.all_eq_true, List.all_eq_true]
    refine forall₂_congr fun p hp => ?_
    rw [Function.comp_apply, isVoid_reread (h.readable p hp)]
  unfold isEmpty
  exact congrArg (set.toList.isEmpty && ·) hvoid

/-- A set is read back unchanged if there is no floating-point number in it. -/
theorem decode?_encode_of_kept {set : RecordSet} (h : Kept set.foreign)
    (hfree : Value.FloatFreeMembers set.foreign) : decode? set.encode = some set := by
  have hself : (set.foreign.map fun p => (p.1, p.2.reread (maxDepth - 1))) = set.foreign := by
    refine (List.map_congr_left fun p hp => ?_).trans (List.map_id _)
    rw [Value.reread_eq_self (h.readable p hp) (Value.floatFreeMembers_iff.1 hfree p hp), id]
  rw [decode?_encode_eq_reread h]
  exact congrArg (fun foreign => some { set with foreign }) hself

/-- A set of the modelled types is read back from its stored form. -/
theorem decode?_encode {set : RecordSet} (h : set.foreign = []) : decode? set.encode = some set := by
  apply decode?_encode_of_kept
  · rw [h]
    exact kept_nil
  · rw [h]
    trivial

end RecordSet
end GatewayControl
