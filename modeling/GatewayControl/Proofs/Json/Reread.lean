import GatewayControl.Proofs.Json.FloatText
import GatewayControl.Proofs.Json.Written

/-!
# `GatewayControl.Proofs.Json.Reread` -- values that were read survive being written

A value that comes from a text is in a normal form, `Value.Readable`: its integers have 64 bits, its
floating-point numbers are finite, the members of its objects are sorted and no key comes twice, and its
containers nest no deeper than the reader allowed. `readable_of_value?` says that the reader yields
nothing else, and `value?_tree` that a value in this form, written and read to the same depth, comes out
unchanged. Floating-point numbers are the exception: decoding rounds at each step, and what is certain is
only that some value comes out (`value?_tree_eq_reread`).
-/

namespace GatewayControl.Json

/-! ## Sorted members -/

namespace Members

/-- Sorted by key, and no key comes twice. -/
def Ordered (members : Members) : Prop := members.Pairwise fun p q => p.1 < q.1

theorem mem_insert {key : String} {value : Value} {members : Members} {p : String × Value}
    (h : p ∈ insert key value members) : p = (key, value) ∨ p ∈ members := by
  induction members with
  | nil => exact .inl (List.mem_singleton.1 h)
  | cons q rest ih =>
    obtain ⟨k, v⟩ := q
    rw [insert] at h
    split at h
    · exact List.mem_cons.1 h
    split at h
    · rcases List.mem_cons.1 h with rfl | hrest
      · exact .inl rfl
      · exact .inr (List.mem_cons_of_mem _ hrest)
    · rcases List.mem_cons.1 h with rfl | hrest
      · exact .inr (List.mem_cons_self ..)
      · exact (ih hrest).imp_right (List.mem_cons_of_mem _)

/-- A member goes to its place in the order, or takes the place of the one with its key. -/
theorem Ordered.insert {members : Members} (h : Ordered members) (key : String) (value : Value) :
    Ordered (Members.insert key value members) := by
  induction members with
  | nil => exact List.pairwise_singleton _ _
  | cons q rest ih =>
    obtain ⟨k, v⟩ := q
    obtain ⟨hhead, hrest⟩ := List.pairwise_cons.1 h
    rw [Members.insert]
    split
    · next hlt =>
      refine List.pairwise_cons.2 ⟨fun p hp => ?_, h⟩
      rcases List.mem_cons.1 hp with rfl | hp
      · exact hlt
      · exact String.lt_trans hlt (hhead p hp)
    split
    · next heq =>
      subst heq
      exact List.pairwise_cons.2 ⟨hhead, hrest⟩
    · next hge hne =>
      -- the keys of the rest and the new one are all beyond `k`
      refine List.pairwise_cons.2 ⟨fun p hp => ?_, ih hrest⟩
      rcases mem_insert hp with rfl | hp
      · exact Decidable.byContradiction fun hle =>
          hne (String.le_antisymm (String.not_lt.1 hle) (String.not_lt.1 hge))
      · exact hhead p hp

/-- A key beyond all others goes to the end. -/
theorem insert_of_lt {key : String} {members : Members} (h : ∀ p ∈ members, p.1 < key)
    (value : Value) : insert key value members = members ++ [(key, value)] := by
  induction members with
  | nil => rfl
  | cons q rest ih =>
    obtain ⟨k, v⟩ := q
    have hlt : k < key := h (k, v) (List.mem_cons_self ..)
    rw [insert, if_neg (String.lt_asymm hlt), if_neg, ih fun p hp => h p (List.mem_cons_of_mem _ hp)]
    · rfl
    · rintro rfl
      exact String.lt_irrefl _ hlt

/-- The members with one pair after the other set in them. -/
def insertAll (members : Members) (pairs : List (String × Value)) : Members :=
  pairs.foldl (fun members (k, v) => insert k v members) members

theorem insertAll_cons (members : Members) (p : String × Value) (pairs : List (String × Value)) :
    insertAll members (p :: pairs) = insertAll (insert p.1 p.2 members) pairs := rfl

theorem mem_insertAll {members : Members} {pairs : List (String × Value)} {p : String × Value}
    (h : p ∈ insertAll members pairs) : p ∈ members ∨ p ∈ pairs := by
  induction pairs generalizing members with
  | nil => exact .inl h
  | cons q pairs ih =>
    rw [insertAll_cons] at h
    rcases ih h with hp | hp
    · rcases mem_insert hp with rfl | hp
      · exact .inr (List.mem_cons_self ..)
      · exact .inl hp
    · exact .inr (List.mem_cons_of_mem _ hp)

theorem Ordered.insertAll {members : Members} (h : Ordered members)
    (pairs : List (String × Value)) : Ordered (members.insertAll pairs) := by
  induction pairs generalizing members with
  | nil => exact h
  | cons q pairs ih =>
    rw [insertAll_cons]
    exact ih (h.insert q.1 q.2)

/-- Members that were listed in any order are sorted. -/
theorem ordered_ofList (pairs : List (String × Value)) : Ordered (ofList pairs) :=
  Ordered.insertAll List.Pairwise.nil pairs

/-- Pairs that are sorted already, and beyond what is there, are put down as they are. -/
theorem insertAll_of_ordered {members pairs : Members} (h : Ordered (members ++ pairs)) :
    insertAll members pairs = members ++ pairs := by
  induction pairs generalizing members with
  | nil => exact (List.append_nil _).symm
  | cons q pairs ih =>
    obtain ⟨k, v⟩ := q
    have hbelow : ∀ p ∈ members, p.1 < k := fun p hp =>
      (List.pairwise_append.1 h).2.2 p hp (k, v) (List.mem_cons_self ..)
    have hnext : Ordered (members ++ [(k, v)] ++ pairs) := by
      rwa [List.append_assoc]
    rw [insertAll_cons, insert_of_lt hbelow, ih hnext, List.append_assoc]
    rfl

/-- Members that are sorted are left as they are. -/
theorem ofList_of_ordered {members : Members} (h : Ordered members) : ofList members = members :=
  insertAll_of_ordered h

/-- No key comes twice in sorted members. -/
theorem Ordered.nodup_keys {members : Members} (h : Ordered members) :
    (members.map Prod.fst).Nodup := by
  refine List.pairwise_map.2 (h.imp fun hlt heq => ?_)
  rw [heq] at hlt
  exact String.lt_irrefl _ hlt

end Members

/-! ## The parts of a container -/

namespace Value

theorem floatFreeItems_iff {items : List Value} :
    FloatFreeItems items ↔ ∀ v ∈ items, v.FloatFree := by
  induction items with
  | nil => simp [FloatFreeItems]
  | cons v vs ih => simp [FloatFreeItems, ih]

theorem floatFreeMembers_iff {members : Members} :
    FloatFreeMembers members ↔ ∀ p ∈ members, p.2.FloatFree := by
  induction members with
  | nil => simp [FloatFreeMembers]
  | cons p rest ih => simp [FloatFreeMembers, ih]

theorem finiteItems_iff {items : List Value} : FiniteItems items ↔ ∀ v ∈ items, v.Finite := by
  induction items with
  | nil => simp [FiniteItems]
  | cons v vs ih => simp [FiniteItems, ih]

theorem finiteMembers_iff {members : Members} : FiniteMembers members ↔ ∀ p ∈ members, p.2.Finite := by
  induction members with
  | nil => simp [FiniteMembers]
  | cons p rest ih => simp [FiniteMembers, ih]

theorem treeItems_eq_map (items : List Value) : treeItems items = items.map tree := by
  induction items with
  | nil => rfl
  | cons v vs ih => rw [treeItems, ih, List.map_cons]

theorem treeMembers_eq_map (members : Members) :
    treeMembers members = members.map fun p => (pieces p.1, p.2.tree) := by
  induction members with
  | nil => rfl
  | cons p rest ih => rw [treeMembers, ih, List.map_cons]

end Value

/-- Reading what was spelled item by item yields the items. -/
theorem mapM_map {α β : Type} {spell : α → β} {read? : β → Option α} {items : List α}
    (h : ∀ v ∈ items, read? (spell v) = some v) : (items.map spell).mapM read? = some items := by
  induction items with
  | nil => rfl
  | cons v vs ih =>
    have hv := h v (List.mem_cons_self ..)
    have hvs := ih fun w hw => h w (List.mem_cons_of_mem _ hw)
    rw [List.map_cons, List.mapM_cons, hv, hvs]
    rfl

/-- Items that can all be read are read. -/
theorem isSome_mapM {α β : Type} {read? : α → Option β} {items : List α}
    (h : ∀ t ∈ items, (read? t).isSome = true) : (items.mapM read?).isSome = true := by
  induction items with
  | nil => rfl
  | cons t ts ih =>
    obtain ⟨v, hv⟩ := Option.isSome_iff_exists.1 (h t (List.mem_cons_self ..))
    obtain ⟨vs, hvs⟩ := Option.isSome_iff_exists.1 (ih fun u hu => h u (List.mem_cons_of_mem _ hu))
    rw [List.mapM_cons, hv, hvs]
    rfl

/-- What was read item by item comes from an item each. -/
theorem exists_of_mem_mapM {α β : Type} {read? : α → Option β} {items : List α} {read : List β}
    (h : items.mapM read? = some read) {v : β} (hv : v ∈ read) : ∃ t ∈ items, read? t = some v := by
  induction items generalizing read with
  | nil =>
    cases h
    exact absurd hv List.not_mem_nil
  | cons t ts ih =>
    rw [List.mapM_cons] at h
    obtain ⟨w, hw, h⟩ := Option.bind_eq_some_iff.1 h
    obtain ⟨ws, hws, h⟩ := Option.bind_eq_some_iff.1 h
    cases h
    rcases List.mem_cons.1 hv with rfl | hv
    · exact ⟨t, List.mem_cons_self .., hw⟩
    · obtain ⟨u, hu, hread⟩ := ih hws hv
      exact ⟨u, List.mem_cons_of_mem _ hu, hread⟩

/-! ## The normal form -/

/-- The integers that fit 64 bits, signed or not. -/
def IsInt64 (i : Int) : Prop := -0x8000000000000000 ≤ i ∧ i ≤ maxNat64

/-- An integer that a literal stands for fits 64 bits. -/
theorem isInt64_of_number? {l : Literal} {i : Int} (h : l.number? = some (.int i)) : IsInt64 i := by
  rcases l.number?_cases with ⟨j, hint, hrange⟩ | hfloat
  · cases hint.symm.trans h
    exact hrange
  · rw [hfloat] at h
    obtain ⟨x, -, hx⟩ := Option.map_eq_some_iff.1 h
    cases hx

namespace Value

/-- The value can be the result of reading with at most so many containers inside each other. -/
def Readable : Nat → Value → Prop
  | _, null => True
  | _, bool _ => True
  | _, string _ => True
  | _, number (.float x) => (Number.float x).Finite
  | _, number (.int i) => IsInt64 i
  | 0, array _ => False
  | 0, object _ => False
  | depth + 1, array items => ∀ v ∈ items, Readable depth v
  | depth + 1, object members => Members.Ordered members ∧ ∀ p ∈ members, Readable depth p.2

/-- **The reader yields values in the normal form only.** -/
theorem readable_of_value? {depth : Nat} {t : Tree} {v : Value} (h : t.value? depth = some v) :
    v.Readable depth := by
  -- the leaves do not look at the depth, and a container goes one level down
  induction depth using Nat.strongRecOn generalizing t v with
  | ind depth ih =>
    cases t with
    | null =>
      rw [Tree.value?] at h
      cases h
      rw [Readable]
      trivial
    | bool b =>
      rw [Tree.value?] at h
      cases h
      rw [Readable]
      trivial
    | number l =>
      rw [Tree.value?] at h
      obtain ⟨n, hn, rfl⟩ := Option.map_eq_some_iff.1 h
      cases n with
      | int i =>
        rw [Readable]
        exact isInt64_of_number? hn
      | float x =>
        rw [Readable]
        exact finite_of_number? hn
    | string ps =>
      rw [Tree.value?] at h
      obtain ⟨s, -, rfl⟩ := Option.map_eq_some_iff.1 h
      rw [Readable]
      trivial
    | array items =>
      cases depth with
      | zero => cases h
      | succ depth =>
        obtain ⟨vs, hvs, rfl⟩ := Option.map_eq_some_iff.1 h
        intro v hv
        obtain ⟨t, -, ht⟩ := exists_of_mem_mapM hvs hv
        exact ih depth (Nat.lt_succ_self depth) ht
    | object fields =>
      cases depth with
      | zero => cases h
      | succ depth =>
        obtain ⟨pairs, hpairs, h⟩ := Option.bind_eq_some_iff.1 h
        cases h
        refine ⟨Members.ordered_ofList pairs, fun p hp => ?_⟩
        -- a member is one of the pairs that were read
        have hpair : p ∈ pairs := (Members.mem_insertAll hp).resolve_left List.not_mem_nil
        obtain ⟨field, -, hfield⟩ := exists_of_mem_mapM hpairs hpair
        obtain ⟨key, -, hfield⟩ := Option.bind_eq_some_iff.1 hfield
        obtain ⟨w, hw, hfield⟩ := Option.bind_eq_some_iff.1 hfield
        cases hfield
        exact ih depth (Nat.lt_succ_self depth) hw

theorem Readable.finite {depth : Nat} {v : Value} (h : v.Readable depth) : v.Finite := by
  induction depth, v using Readable.induct with
  | case1 | case2 | case3 | case5 => trivial
  | case4 depth x =>
    rw [Readable] at h
    exact h
  | case6 | case7 => exact absurd h id
  | case8 depth items ih => exact finiteItems_iff.2 fun v hv => ih v (h v hv)
  | case9 depth members ih => exact finiteMembers_iff.2 fun p hp => ih p (h.2 p hp)

/-- The value that comes out when a value is written and read. -/
def reread (depth : Nat) (v : Value) : Value := (v.tree.value? depth).getD v

/-- **A value in the normal form is read back as some value**, to any depth that it fits. -/
theorem value?_tree_eq_reread {depth : Nat} {v : Value} (h : v.Readable depth) :
    v.tree.value? depth = some (v.reread depth) := by
  have hsome : (v.tree.value? depth).isSome = true := by
    induction depth, v using Readable.induct with
    | case1 depth => rw [tree, Tree.value?]; rfl
    | case2 depth b => rw [tree, Tree.value?]; rfl
    | case3 depth s => rw [tree, Tree.value?, pieceText?_pieces]; rfl
    | case4 depth x =>
      rw [Readable] at h
      rw [tree, Tree.value?, Option.isSome_map]
      exact isSome_number? (isSome_float?_floatLiteral h)
    | case5 depth i =>
      rw [Readable] at h
      rw [tree, Tree.value?, Number.literal_int, number?_literalOf h.1 h.2]
      rfl
    | case6 | case7 => exact absurd h id
    | case8 depth items ih =>
      rw [tree, treeItems_eq_map, Tree.value?, Option.isSome_map]
      refine isSome_mapM fun t ht => ?_
      obtain ⟨v, hv, rfl⟩ := List.mem_map.1 ht
      exact ih v (h v hv)
    | case9 depth members ih =>
      have hpairs : ((members.map fun p : String × Value => (pieces p.1, p.2.tree)).mapM
          fun (key, t) => do return (← pieceText? key, ← Tree.value? depth t)).isSome = true := by
        refine isSome_mapM fun field hfield => ?_
        obtain ⟨p, hp, rfl⟩ := List.mem_map.1 hfield
        obtain ⟨w, hw⟩ := Option.isSome_iff_exists.1 (ih p (h.2 p hp))
        simp only [pieceText?_pieces, hw, Option.bind_eq_bind, Option.bind_some]
        rfl
      obtain ⟨pairs, hpairs⟩ := Option.isSome_iff_exists.1 hpairs
      rw [tree, treeMembers_eq_map, Tree.value?, hpairs]
      rfl
  obtain ⟨w, hw⟩ := Option.isSome_iff_exists.1 hsome
  unfold reread
  rw [hw]
  rfl

/-- **A value in the normal form is read back** from its tree, to any depth that it fits. -/
theorem value?_tree {depth : Nat} {v : Value} (h : v.Readable depth) (hfree : v.FloatFree) :
    v.tree.value? depth = some v := by
  induction depth, v using Readable.induct with
  | case1 depth => rw [tree, Tree.value?]
  | case2 depth b => rw [tree, Tree.value?]
  | case3 depth s => rw [tree, Tree.value?, pieceText?_pieces, Option.map_some]
  | case4 depth x => exact absurd hfree id
  | case5 depth i =>
    rw [Readable] at h
    rw [tree, Tree.value?, Number.literal_int, number?_literalOf h.1 h.2, Option.map_some]
  | case6 items => exact absurd h id
  | case7 members => exact absurd h id
  | case8 depth items ih =>
    have hitems : (items.map tree).mapM (Tree.value? depth) = some items :=
      mapM_map fun v hv => ih v (h v hv) (floatFreeItems_iff.1 hfree v hv)
    rw [tree, treeItems_eq_map, Tree.value?, hitems, Option.map_some]
  | case9 depth members ih =>
    rw [tree, treeMembers_eq_map, Tree.value?, Option.bind_eq_bind]
    refine Option.bind_eq_some_iff.2 ⟨members, mapM_map fun p hp => ?_, ?_⟩
    · have hvalue := ih p (h.2 p hp) (floatFreeMembers_iff.1 hfree p hp)
      simp only [pieceText?_pieces, hvalue, Option.bind_eq_bind, Option.bind_some]
      rfl
    · rw [Members.ofList_of_ordered h.1]
      rfl

theorem reread_eq_self {depth : Nat} {v : Value} (h : v.Readable depth) (hfree : v.FloatFree) :
    v.reread depth = v := by
  unfold reread
  rw [value?_tree h hfree]
  rfl

end Value

end GatewayControl.Json
