import GatewayControl.Proofs.Json.NumberText

/-!
# `GatewayControl.Proofs.Json.Written` -- reading JSON that was written

The reader inverts the printer on every value whose numbers are finite, whatever follows the value
(`readTree_bytes`, `Tree.read?_bytes`). What it yields is `Value.tree`, the value with its strings and
numbers spelled out; `pieceText?_pieces` decodes the strings, and `number?_literalOf` those numbers that
are integers. The proofs follow the grammar: strings byte after byte, numbers by their literals,
containers by a simultaneous induction over values, items and members in which twice the length of the
text is fuel enough.
-/

namespace GatewayControl.Json

/-! ## Strings -/

/-- The piece that a written byte is read as: the control characters that have no short escape are
written as `\u` escapes. -/
def piece (b : UInt8) : Piece :=
  if b < 32 ∧ b ≠ 8 ∧ b ≠ 9 ∧ b ≠ 10 ∧ b ≠ 12 ∧ b ≠ 13 then .unit b.toNat else .byte b

/-- The pieces that a written text is read as. -/
def pieces (s : String) : List Piece := (Bytes.ofText s).map piece

theorem hexValue?_of_lt {n : UInt8} (h : n < 16) :
    hexValue? (if n < 10 then 48 + n else 87 + n) = some n.toNat := by
  have hall : ∀ k : Fin 16, hexValue? (if UInt8.ofNat k < 10 then 48 + UInt8.ofNat k
      else 87 + UInt8.ofNat k) = some k.val := by decide
  have hn : n.toNat < 16 := UInt8.lt_iff_toNat_lt.1 h
  simpa using hall ⟨n.toNat, hn⟩

/-- A byte that needs no escape is read as itself. -/
theorem readString_plain {b : UInt8} (hq : b ≠ 34) (hs : b ≠ 92) (hc : ¬ b < 32) (rest : Bytes) :
    readString (b :: rest) = (readString rest).map fun (ps, rest) => (.byte b :: ps, rest) := by
  rw [readString]
  · have hplain : (decide (b < 32) || decide (b = 92)) = false := by simp [hc, hs]
    rw [hplain]
    cases readString rest <;> rfl
  · exact hq
  · exact fun _ _ _ _ _ h => absurd h hs
  · exact fun _ _ h => absurd h hs

/-- A short escape is read as the byte that it stands for. -/
theorem readString_short {e b : UInt8} (he : shortEscape? e = some b) (rest : Bytes) :
    readString (92 :: e :: rest) = (readString rest).map fun (ps, rest) => (.byte b :: ps, rest) := by
  have hu : e ≠ 117 := by
    rintro rfl
    have hnone : shortEscape? 117 = none := by decide
    simp [hnone] at he
  rw [readString]
  · rw [he]
    cases readString rest <;> rfl
  · exact fun _ _ _ _ _ h => absurd h hu

theorem readString_unit {c d : UInt8} {m n : Nat} (hc : hexValue? c = some m)
    (hd : hexValue? d = some n) (rest : Bytes) :
    readString (92 :: 117 :: 48 :: 48 :: c :: d :: rest) =
      (readString rest).map fun (ps, rest) => (.unit (m * 16 + n) :: ps, rest) := by
  have h0 : hexValue? 48 = some 0 := by decide
  rw [readString]
  simp only [h0, hc, hd, Option.bind_eq_bind, Option.bind_some, Nat.zero_mul, Nat.zero_add]
  cases readString rest <;> rfl

/-- The escape of a byte is read back as the byte. -/
theorem readString_escapeByte (b : UInt8) (rest : Bytes) :
    readString (escapeByte b ++ rest) =
      (readString rest).map fun (ps, rest) => (piece b :: ps, rest) := by
  unfold escapeByte
  -- seven bytes have a short escape, the other control characters a numeric one
  split
  · next h => rw [h]; exact readString_short (by decide) rest
  split
  · next h => rw [h]; exact readString_short (by decide) rest
  split
  · next h => rw [h]; exact readString_short (by decide) rest
  split
  · next h => rw [h]; exact readString_short (by decide) rest
  split
  · next h => rw [h]; exact readString_short (by decide) rest
  split
  · next h => rw [h]; exact readString_short (by decide) rest
  split
  · next h => rw [h]; exact readString_short (by decide) rest
  split
  · next hq hs h8 h12 h10 h13 h9 h32 =>
    have hpiece : piece b = .unit b.toNat := if_pos ⟨h32, h8, h9, h10, h12, h13⟩
    have h32 : b.toNat < 32 := UInt8.lt_iff_toNat_lt.1 h32
    have hdiv : (b / 16).toNat = b.toNat / 16 := UInt8.toNat_div b 16
    have hmod : (b % 16).toNat = b.toNat % 16 := UInt8.toNat_mod b 16
    have hhigh : hexValue? (48 + b / 16) = some (b / 16).toNat := by
      have hlt : b / 16 < 10 := by
        rw [UInt8.lt_iff_toNat_lt, hdiv]
        exact Nat.lt_of_lt_of_le (Nat.div_lt_of_lt_mul (by omega : b.toNat < 16 * 2)) (by decide)
      have hdigit := hexValue?_of_lt (n := b / 16) (UInt8.lt_trans hlt (by decide))
      rwa [if_pos hlt] at hdigit
    have hlow := hexValue?_of_lt (n := b % 16) (by
      rw [UInt8.lt_iff_toNat_lt, hmod]
      exact Nat.mod_lt _ (by decide))
    have hsum : (b / 16).toNat * 16 + (b % 16).toNat = b.toNat := by omega
    rw [hpiece]
    refine (readString_unit hhigh hlow rest).trans ?_
    rw [hsum]
  · next hq hs h8 h12 h10 h13 h9 h32 =>
    have hpiece : piece b = .byte b := if_neg fun h => h32 h.1
    rw [hpiece]
    exact readString_plain hq hs h32 rest

/-- A text between quotes is read up to its closing quote. -/
theorem readString_flatMap (bs rest : Bytes) :
    readString (bs.flatMap escapeByte ++ 34 :: rest) = some (bs.map piece, rest) := by
  induction bs with
  | nil => exact readString_end rest
  | cons b bs ih =>
    rw [List.flatMap_cons, List.append_assoc, readString_escapeByte, ih]
    rfl

/-- A text in quotes is read back up to the closing quote. -/
theorem readString_quote (s : String) (rest : Bytes) :
    ∃ body, quote s ++ rest = 34 :: body ∧ readString body = some (pieces s, rest) := by
  refine ⟨(Bytes.ofText s).flatMap escapeByte ++ 34 :: rest, ?_, readString_flatMap _ rest⟩
  simp [quote]

/-- A `\u` escape of a control character stands for one byte. -/
theorem pieceBytes?_unit {b : UInt8} (h : b < 32) (ps : List Piece) :
    pieceBytes? (.unit b.toNat :: ps) = (pieceBytes? ps).map (b :: ·) := by
  have hall : ∀ k : Fin 32, String.utf8EncodeChar (Char.ofNat k) = [UInt8.ofNat k] := by decide
  have hlt : b.toNat < 32 := UInt8.lt_iff_toNat_lt.1 h
  have henc : String.utf8EncodeChar (Char.ofNat b.toNat) = [b] := by simpa using hall ⟨_, hlt⟩
  have hplain : ¬ (0xD800 ≤ b.toNat ∧ b.toNat < 0xE000) := by omega
  have hhigh : ¬ (0xD800 ≤ b.toNat ∧ b.toNat < 0xDC00) := by omega
  have hlow : ¬ (0xDC00 ≤ b.toNat ∧ b.toNat < 0xE000) := by omega
  -- the decoder looks for a surrogate pair first, and this is no surrogate
  by_cases hps : ∃ m rest, ps = .unit m :: rest
  · obtain ⟨m, rest, rfl⟩ := hps
    rw [pieceBytes?, if_neg hhigh, if_neg hlow, henc]
    rfl
  · rw [pieceBytes?]
    · rw [if_neg hplain, henc]
      rfl
    · exact fun m rest h => hps ⟨m, rest, h⟩

theorem pieceBytes?_piece (b : UInt8) (ps : List Piece) :
    pieceBytes? (piece b :: ps) = (pieceBytes? ps).map (b :: ·) := by
  unfold piece
  split
  · next h => exact pieceBytes?_unit h.1 ps
  · exact pieceBytes?_byte b ps

theorem pieceBytes?_map_piece (bs : Bytes) : pieceBytes? (bs.map piece) = some bs := by
  induction bs with
  | nil => rfl
  | cons b bs ih => rw [List.map_cons, pieceBytes?_piece, ih]; rfl

/-- A written text is read back. -/
theorem pieceText?_pieces (s : String) : pieceText? (pieces s) = some s := by
  unfold pieceText? pieces
  rw [pieceBytes?_map_piece]
  exact Bytes.toText?_ofText s

/-! ## Trees -/

namespace Value

mutual

/-- No number in the value is a floating-point number. -/
def FloatFree : Value → Prop
  | number (.float _) => False
  | array items => FloatFreeItems items
  | object members => FloatFreeMembers members
  | _ => True

/-- No number in the items is a floating-point number. -/
def FloatFreeItems : List Value → Prop
  | [] => True
  | v :: vs => FloatFree v ∧ FloatFreeItems vs

/-- No number in the members is a floating-point number. -/
def FloatFreeMembers : List (String × Value) → Prop
  | [] => True
  | (_, v) :: rest => FloatFree v ∧ FloatFreeMembers rest

end

mutual

/-- No number in the value is beyond the double-precision range. -/
def Finite : Value → Prop
  | number n => n.Finite
  | array items => FiniteItems items
  | object members => FiniteMembers members
  | _ => True

/-- No number in the items is beyond the double-precision range. -/
def FiniteItems : List Value → Prop
  | [] => True
  | v :: vs => Finite v ∧ FiniteItems vs

/-- No number in the members is beyond the double-precision range. -/
def FiniteMembers : List (String × Value) → Prop
  | [] => True
  | (_, v) :: rest => Finite v ∧ FiniteMembers rest

end

mutual

/-- The tree that a written value is read as. -/
def tree : Value → Tree
  | null => .null
  | bool b => .bool b
  | number n => .number n.literal
  | string s => .string (pieces s)
  | array items => .array (treeItems items)
  | object members => .object (treeMembers members)

/-- The trees of the items of an array. -/
def treeItems : List Value → List Tree
  | [] => []
  | v :: vs => tree v :: treeItems vs

/-- The fields of an object, their names spelled out. -/
def treeMembers : List (String × Value) → List (List Piece × Tree)
  | [] => []
  | (k, v) :: rest => (pieces k, tree v) :: treeMembers rest

end

end Value

/-! ### How values start -/

/-- A byte that is no blank, and that neither closes nor separates anything. -/
def Opens (b : UInt8) : Prop := b ≠ 32 ∧ b ≠ 10 ∧ b ≠ 9 ∧ b ≠ 13 ∧ b ≠ 93 ∧ b ≠ 125

instance : DecidablePred Opens := fun b => by
  unfold Opens
  infer_instance

theorem skipBlanks_cons {b : UInt8} (h : b ≠ 32 ∧ b ≠ 10 ∧ b ≠ 9 ∧ b ≠ 13) (rest : Bytes) :
    skipBlanks (b :: rest) = b :: rest := by
  simp [skipBlanks, h]

theorem skipBlanks_of_opens {b : UInt8} (h : Opens b) (rest : Bytes) :
    skipBlanks (b :: rest) = b :: rest :=
  skipBlanks_cons ⟨h.1, h.2.1, h.2.2.1, h.2.2.2.1⟩ rest

theorem opens_of_isDigit {b : UInt8} (h : isDigit b = true) : Opens b := by
  refine ⟨?_, ?_, ?_, ?_, ?_, ?_⟩ <;> (rintro rfl; exact absurd h (by decide))

/-- A written number starts with a sign or a digit. -/
theorem exists_cons_number {n : Number} (h : n.Finite) :
    ∃ b bs, n.chars.map Bytes.ascii = b :: bs ∧ (b = 45 ∨ isDigit b = true) := by
  rw [n.chars_bytes]
  exact exists_cons_bytes (Number.grammatical_literal h)

/-- What is written for a value starts with a byte that a value may start with. -/
theorem Value.exists_opens {v : Value} (h : v.Finite) : ∃ b bs, v.bytes = b :: bs ∧ Opens b := by
  cases v with
  | null => exact ⟨110, _, rfl, by decide⟩
  | bool b =>
    cases b with
    | true => exact ⟨116, _, rfl, by decide⟩
    | false => exact ⟨102, _, rfl, by decide⟩
  | number n =>
    unfold Value.bytes
    obtain ⟨b, bs, hcons, hb⟩ := exists_cons_number h
    refine ⟨b, bs, hcons, ?_⟩
    rcases hb with rfl | hb
    · decide
    · exact opens_of_isDigit hb
  | string s => exact ⟨34, _, rfl, by decide⟩
  | array items => exact ⟨91, _, rfl, by decide⟩
  | object members => exact ⟨123, _, rfl, by decide⟩

/-! ### Values without parts -/

theorem afterWord_append (word : String) (rest : Bytes) :
    afterWord word (Bytes.ofText word ++ rest) = some rest := by
  unfold afterWord
  simp

theorem readTree_null (fuel : Nat) (rest : Bytes) :
    readTree (fuel + 1) (Value.null.bytes ++ rest) = some (.null, rest) := by
  have hword : Value.null.bytes ++ rest = 110 :: (Bytes.ofText "ull" ++ rest) := rfl
  rw [hword, readTree, skipBlanks_of_opens (by decide)]
  simp only [afterWord_append, Option.map_some]

theorem readTree_bool (fuel : Nat) (b : Bool) (rest : Bytes) :
    readTree (fuel + 1) ((Value.bool b).bytes ++ rest) = some (.bool b, rest) := by
  cases b with
  | true =>
    have hword : (Value.bool true).bytes ++ rest = 116 :: (Bytes.ofText "rue" ++ rest) := rfl
    rw [hword, readTree, skipBlanks_of_opens (by decide)]
    simp only [afterWord_append, Option.map_some]
  | false =>
    have hword : (Value.bool false).bytes ++ rest = 102 :: (Bytes.ofText "alse" ++ rest) := rfl
    rw [hword, readTree, skipBlanks_of_opens (by decide)]
    simp only [afterWord_append, Option.map_some]

theorem readTree_number (fuel : Nat) {n : Number} (h : n.Finite) {rest : Bytes}
    (hrest : EndsNumber rest) :
    readTree (fuel + 1) ((Value.number n).bytes ++ rest) = some (.number n.literal, rest) := by
  have hread := readNumber_chars h hrest
  obtain ⟨b, bs, hcons, hb⟩ := exists_cons_number h
  unfold Value.bytes
  rw [hcons, List.cons_append] at hread ⊢
  have hopens : Opens b := by
    rcases hb with rfl | hb
    · decide
    · exact opens_of_isDigit hb
  -- no value but a number starts like this
  have hnot : ∀ c : UInt8, c ≠ 45 → isDigit c = false → b ≠ c := by
    rintro c hc hdigit rfl
    rcases hb with hb | hb
    · exact hc hb
    · rw [hdigit] at hb
      cases hb
  rw [readTree, skipBlanks_of_opens hopens]
  split
  · next heq => cases heq
  · next heq => exact absurd (List.cons.inj heq).1 (hnot _ (by decide) (by decide))
  · next heq => exact absurd (List.cons.inj heq).1 (hnot _ (by decide) (by decide))
  · next heq => exact absurd (List.cons.inj heq).1 (hnot _ (by decide) (by decide))
  · next heq => exact absurd (List.cons.inj heq).1 (hnot _ (by decide) (by decide))
  · next heq => exact absurd (List.cons.inj heq).1 (hnot _ (by decide) (by decide))
  · next heq => exact absurd (List.cons.inj heq).1 (hnot _ (by decide) (by decide))
  · rw [hread]
    rfl

theorem readTree_string (fuel : Nat) (s : String) (rest : Bytes) :
    readTree (fuel + 1) ((Value.string s).bytes ++ rest) = some (.string (pieces s), rest) := by
  obtain ⟨body, hquote, hread⟩ := readString_quote s rest
  unfold Value.bytes
  rw [hquote, readTree, skipBlanks_of_opens (by decide)]
  simp only [hread, Option.map_some]

/-! ### Containers -/

/-- The items of a written array start like its first item. -/
theorem exists_opens_itemBytes {v : Value} (h : v.Finite) (vs : List Value) :
    ∃ b bs, Value.itemBytes (v :: vs) = b :: bs ∧ Opens b := by
  obtain ⟨b, bs, hcons, hopens⟩ := Value.exists_opens h
  cases vs with
  | nil => exact ⟨b, bs, hcons, hopens⟩
  | cons w vs =>
    refine ⟨b, bs ++ 44 :: Value.itemBytes (w :: vs), ?_, hopens⟩
    simp only [Value.itemBytes, hcons, List.cons_append]

theorem exists_cons_memberBytes (k : String) (v : Value) (rest : Members) :
    ∃ bs, Value.memberBytes ((k, v) :: rest) = 34 :: bs := by
  cases rest <;> exact ⟨_, rfl⟩

mutual

/-- **A written value is read back** up to its end, if there is fuel for it. -/
theorem readTree_bytes (v : Value) (h : v.Finite) (rest : Bytes) (hrest : EndsNumber rest)
    (fuel : Nat) (hfuel : 2 * v.bytes.length ≤ fuel) :
    readTree fuel (v.bytes ++ rest) = some (v.tree, rest) := by
  -- no value is written as nothing, so there is fuel for the first step
  obtain ⟨b, bs, hcons, -⟩ := Value.exists_opens h
  obtain ⟨fuel, rfl⟩ : ∃ n, fuel = n + 1 := by
    rw [hcons, List.length_cons] at hfuel
    exact ⟨fuel - 1, by omega⟩
  match v with
  | .null => exact readTree_null fuel rest
  | .bool b => exact readTree_bool fuel b rest
  | .number n => exact readTree_number fuel h hrest
  | .string s => exact readTree_string fuel s rest
  | .array [] =>
    have hbytes : (Value.array []).bytes ++ rest = 91 :: 93 :: rest := rfl
    rw [hbytes, readTree, skipBlanks_of_opens (by decide)]
    simp only
    rw [skipBlanks_cons (by decide)]
    rfl
  | .array (v :: vs) =>
    have hitems := readItems_itemBytes (v :: vs) h (List.cons_ne_nil _ _) rest fuel (by
      simp only [Value.bytes, List.length_cons, List.length_append] at hfuel
      omega)
    obtain ⟨b, bs, hcons, hopens⟩ := exists_opens_itemBytes h.1 vs
    have hbytes : (Value.array (v :: vs)).bytes ++ rest =
        91 :: (Value.itemBytes (v :: vs) ++ 93 :: rest) := by
      simp [Value.bytes]
    rw [hbytes, readTree, skipBlanks_of_opens (by decide)]
    simp only
    rw [hcons, List.cons_append] at hitems ⊢
    rw [skipBlanks_of_opens hopens]
    -- the first item does not start like the end of an array
    split
    · next heq => exact absurd (List.cons.inj heq).1 hopens.2.2.2.2.1
    · rw [hitems]
      rfl
  | .object [] =>
    have hbytes : (Value.object []).bytes ++ rest = 123 :: 125 :: rest := rfl
    rw [hbytes, readTree, skipBlanks_of_opens (by decide)]
    simp only
    rw [skipBlanks_cons (by decide)]
    rfl
  | .object ((k, v) :: members) =>
    have hfields := readFields_memberBytes ((k, v) :: members) h (List.cons_ne_nil _ _) rest fuel (by
      simp only [Value.bytes, List.length_cons, List.length_append] at hfuel
      omega)
    obtain ⟨bs, hcons⟩ := exists_cons_memberBytes k v members
    have hbytes : (Value.object ((k, v) :: members)).bytes ++ rest =
        123 :: (Value.memberBytes ((k, v) :: members) ++ 125 :: rest) := by
      simp [Value.bytes]
    rw [hbytes, readTree, skipBlanks_of_opens (by decide)]
    simp only
    rw [hcons, List.cons_append] at hfields ⊢
    rw [skipBlanks_of_opens (by decide)]
    exact congrArg (Option.map fun (fields, rest) => (Tree.object fields, rest)) hfields

/-- The items of a written array are read back. -/
theorem readItems_itemBytes (vs : List Value) (h : Value.FiniteItems vs) (hne : vs ≠ [])
    (rest : Bytes) (fuel : Nat) (hfuel : 2 * (Value.itemBytes vs).length + 1 ≤ fuel) :
    readItems fuel (Value.itemBytes vs ++ 93 :: rest) = some (Value.treeItems vs, rest) := by
  obtain ⟨fuel, rfl⟩ : ∃ n, fuel = n + 1 := ⟨fuel - 1, by omega⟩
  match vs with
  | [] => exact absurd rfl hne
  | [v] =>
    have hv := readTree_bytes v h.1 (93 :: rest) (endsNumber_cons (by decide) rest) fuel (by
      simp only [Value.itemBytes] at hfuel
      omega)
    rw [Value.itemBytes, readItems, hv, Option.bind_eq_bind, Option.bind_some]
    simp only
    rw [skipBlanks_cons (by decide)]
    rfl
  | v :: w :: vs =>
    have hv := readTree_bytes v h.1 (44 :: (Value.itemBytes (w :: vs) ++ 93 :: rest))
      (endsNumber_cons (by decide) _) fuel (by
        simp only [Value.itemBytes, List.length_cons, List.length_append] at hfuel
        omega)
    have hvs := readItems_itemBytes (w :: vs) h.2 (List.cons_ne_nil _ _) rest fuel (by
      rw [Value.itemBytes, List.length_append, List.length_cons] at hfuel
      · omega
      · exact List.cons_ne_nil _ _)
    have hbytes : Value.itemBytes (v :: w :: vs) ++ 93 :: rest =
        v.bytes ++ 44 :: (Value.itemBytes (w :: vs) ++ 93 :: rest) := by
      simp [Value.itemBytes]
    rw [hbytes, readItems, hv, Option.bind_eq_bind, Option.bind_some]
    simp only
    rw [skipBlanks_cons (by decide)]
    simp only [hvs]
    rfl

/-- The members of a written object are read back. -/
theorem readFields_memberBytes (members : Members) (h : Value.FiniteMembers members)
    (hne : members ≠ []) (rest : Bytes) (fuel : Nat)
    (hfuel : 2 * (Value.memberBytes members).length + 1 ≤ fuel) :
    readFields fuel (Value.memberBytes members ++ 125 :: rest) =
      some (Value.treeMembers members, rest) := by
  obtain ⟨fuel, rfl⟩ : ∃ n, fuel = n + 1 := ⟨fuel - 1, by omega⟩
  match members with
  | [] => exact absurd rfl hne
  | [(k, v)] =>
    have hv := readTree_bytes v h.1 (125 :: rest) (endsNumber_cons (by decide) rest) fuel (by
      simp only [Value.memberBytes, List.length_cons, List.length_append] at hfuel
      omega)
    have hbytes : Value.memberBytes [(k, v)] ++ 125 :: rest =
        quote k ++ 58 :: (v.bytes ++ 125 :: rest) := by
      simp [Value.memberBytes]
    obtain ⟨body, hquote, hread⟩ := readString_quote k (58 :: (v.bytes ++ 125 :: rest))
    rw [hbytes, hquote, readFields, skipBlanks_of_opens (by decide)]
    simp only [hread, Option.bind_eq_bind, Option.bind_some]
    rw [skipBlanks_cons (by decide)]
    simp only [hv, Option.bind_some]
    rw [skipBlanks_cons (by decide)]
    rfl
  | (k, v) :: (l, w) :: members =>
    have hv := readTree_bytes v h.1 (44 :: (Value.memberBytes ((l, w) :: members) ++ 125 :: rest))
      (endsNumber_cons (by decide) _) fuel (by
        simp only [Value.memberBytes, List.length_cons, List.length_append] at hfuel
        omega)
    have hmembers := readFields_memberBytes ((l, w) :: members) h.2 (List.cons_ne_nil _ _) rest fuel (by
      rw [Value.memberBytes, List.length_append, List.length_cons, List.length_append,
        List.length_cons] at hfuel
      · omega
      · exact List.cons_ne_nil _ _)
    have hbytes : Value.memberBytes ((k, v) :: (l, w) :: members) ++ 125 :: rest =
        quote k ++ 58 :: (v.bytes ++ 44 :: (Value.memberBytes ((l, w) :: members) ++ 125 :: rest)) := by
      simp [Value.memberBytes]
    obtain ⟨body, hquote, hread⟩ := readString_quote k
      (58 :: (v.bytes ++ 44 :: (Value.memberBytes ((l, w) :: members) ++ 125 :: rest)))
    rw [hbytes, hquote, readFields, skipBlanks_of_opens (by decide)]
    simp only [hread, Option.bind_eq_bind, Option.bind_some]
    rw [skipBlanks_cons (by decide)]
    simp only [hv, Option.bind_some]
    rw [skipBlanks_cons (by decide)]
    simp only [hmembers, Option.bind_some]
    rfl

end

/-- **A written value is read back** as its tree. -/
theorem Tree.read?_bytes {v : Value} (h : v.Finite) : Tree.read? v.bytes = some v.tree := by
  have hread := readTree_bytes v h [] (fun b hb => by cases hb) (2 * v.bytes.length + 2) (by omega)
  rw [List.append_nil] at hread
  unfold Tree.read?
  rw [hread]
  rfl

end GatewayControl.Json
