import GatewayControl.Text.Base64

/-!
# `GatewayControl.Proofs.Text.Base64` -- what is written in base64 is read back

Three bytes are cut into four numbers of six bits, and three identities of bits put them together
again (`first_of_group`, `second_of_group`, `third_of_group`). A shorter last group is one whose
missing bytes are zero, so the same identities serve it. Group by group, `decodeGroups_encode` reads
back what `encode` has written, and `decode_text` says so of texts.
-/

namespace GatewayControl.Text.Base64

/-! ## Symbols -/

/-- What holds of the first `n` bytes one by one holds of every byte below `n`. -/
theorem forall_lt_of_fin {n : Nat} {P : UInt8 → Prop} (h : ∀ k : Fin n, P (UInt8.ofNat k.val))
    {b : UInt8} (hb : b.toNat < n) : P b := by
  have hk := h ⟨b.toNat, hb⟩
  rwa [UInt8.ofNat_toNat] at hk

/-- A symbol stands for its number. -/
theorem value?_symbol {n : UInt8} (h : n < 64) : value? (symbol n) = some n := by
  have hall : ∀ k : Fin 64, value? (symbol (UInt8.ofNat k.val)) = some (UInt8.ofNat k.val) := by
    decide +kernel
  exact forall_lt_of_fin (P := fun n => value? (symbol n) = some n) hall h

theorem symbol_ne_pad {n : UInt8} (h : n < 64) : symbol n ≠ pad := by
  have hall : ∀ k : Fin 64, symbol (UInt8.ofNat k.val) ≠ pad := by decide +kernel
  exact forall_lt_of_fin (P := fun n => symbol n ≠ pad) hall h

theorem symbol_lt (n : UInt8) : symbol n < 128 := by
  have hall : ∀ k : Fin 256, symbol (UInt8.ofNat k.val) < 128 := by decide +kernel
  exact forall_lt_of_fin (P := fun n => symbol n < 128) hall n.toNat_lt

/-! ## Bits -/

/-- Bytes with the same bits are equal. -/
theorem eq_of_bits {a b : UInt8}
    (h : ∀ i, i < 8 → a.toBitVec.getLsbD i = b.toBitVec.getLsbD i) : a = b :=
  UInt8.eq_of_toBitVec_eq (BitVec.eq_of_getLsbD_eq h)

theorem lt_64_of_or {a b : UInt8} (ha : a < 64) (hb : b < 64) : a ||| b < 64 := by
  show (a ||| b).toNat < 64
  rw [UInt8.toNat_or]
  exact Nat.or_lt_two_pow (n := 6) ha hb

variable (a b c : UInt8)

/-- Two bits less make six at most. -/
theorem shiftRight_lt {i : UInt8} (hi : i = 2 ∨ i = 4 ∨ i = 6) : a >>> i < 64 := by
  have ha := a.toNat_lt
  rw [UInt8.lt_iff_toNat_lt, UInt8.toNat_shiftRight, Nat.shiftRight_eq_div_pow]
  rcases hi with rfl | rfl | rfl <;> simp <;> omega

theorem first_lt : a >>> 2 < 64 := shiftRight_lt a (.inl rfl)

theorem second_lt : (a &&& 3) <<< 4 ||| b >>> 4 < 64 := by
  have hmasked : a.toNat &&& 3 ≤ 3 := Nat.and_le_right
  have hhigh : (a &&& 3) <<< 4 < 64 := by
    simp [UInt8.lt_iff_toNat_lt, Nat.shiftLeft_eq]
    omega
  exact lt_64_of_or hhigh (shiftRight_lt b (.inr (.inl rfl)))

theorem third_lt : (b &&& 15) <<< 2 ||| c >>> 6 < 64 := by
  have hmasked : b.toNat &&& 15 ≤ 15 := Nat.and_le_right
  have hhigh : (b &&& 15) <<< 2 < 64 := by
    simp [UInt8.lt_iff_toNat_lt, Nat.shiftLeft_eq]
    omega
  exact lt_64_of_or hhigh (shiftRight_lt c (.inr (.inr rfl)))

theorem fourth_lt : c &&& 63 < 64 := by
  have hmasked : c.toNat &&& 63 ≤ 63 := Nat.and_le_right
  simp [UInt8.lt_iff_toNat_lt]
  omega

theorem first_of_group : (a >>> 2) <<< 2 ||| ((a &&& 3) <<< 4 ||| b >>> 4) >>> 4 = a := by
  refine eq_of_bits fun i hi => ?_
  match i, hi with
  | 0, _ | 1, _ | 2, _ | 3, _ | 4, _ | 5, _ | 6, _ | 7, _ => simp

theorem second_of_group :
    ((a &&& 3) <<< 4 ||| b >>> 4) <<< 4 ||| ((b &&& 15) <<< 2 ||| c >>> 6) >>> 2 = b := by
  refine eq_of_bits fun i hi => ?_
  match i, hi with
  | 0, _ | 1, _ | 2, _ | 3, _ | 4, _ | 5, _ | 6, _ | 7, _ => simp

theorem third_of_group : ((b &&& 15) <<< 2 ||| c >>> 6) <<< 6 ||| (c &&& 63) = c := by
  refine eq_of_bits fun i hi => ?_
  match i, hi with
  | 0, _ | 1, _ | 2, _ | 3, _ | 4, _ | 5, _ | 6, _ | 7, _ => simp

/-! ## Groups -/

variable {a b c}

/-- A symbol adds its number to the last group. -/
theorem lastGroup_symbol {n : UInt8} (h : n < 64) (start : Nat) (numbers : List UInt8) (rest : Bytes) :
    lastGroup start numbers 0 (symbol n :: rest) = lastGroup start (numbers ++ [n]) 0 rest := by
  rw [lastGroup]
  simp only [symbol_ne_pad h, if_false, Nat.lt_irrefl, value?_symbol h]

theorem lastGroup_pad {numbers : List UInt8} {pads : Nat} (h : 2 ≤ numbers.length + pads) (start : Nat)
    (rest : Bytes) :
    lastGroup start numbers pads (pad :: rest) = lastGroup start numbers (pads + 1) rest := by
  rw [lastGroup]
  simp only [if_true]
  exact if_neg (Nat.not_lt.2 h)

/-- A last group of one byte. -/
theorem decodeLast_one (start : Nat) (a : UInt8) : decodeLast start (encode [a]) = .ok [a] := by
  have hfirst := first_lt a
  have hsecond := second_lt a 0
  have ha := first_of_group a 0
  have hzero : (a &&& 3) <<< 4 ||| (0 : UInt8) >>> 4 = (a &&& 3) <<< 4 := by simp
  rw [hzero] at hsecond ha
  have hspare : (a &&& 3) <<< 4 &&& 15 = 0 := by
    refine eq_of_bits fun i hi => ?_
    match i, hi with
    | 0, _ | 1, _ | 2, _ | 3, _ | 4, _ | 5, _ | 6, _ | 7, _ => simp
  have hgroup : lastGroup start [] 0 (encode [a]) = .ok ([a >>> 2, (a &&& 3) <<< 4], 2) := by
    show lastGroup start [] 0 [symbol _, symbol _, pad, pad] = _
    rw [lastGroup_symbol hfirst, lastGroup_symbol hsecond, lastGroup_pad (by simp),
      lastGroup_pad (by simp)]
    rfl
  unfold decodeLast
  rw [hgroup]
  simp [encode, ha, hspare]

/-- A last group of two bytes. -/
theorem decodeLast_two (start : Nat) (a b : UInt8) : decodeLast start (encode [a, b]) = .ok [a, b] := by
  have hfirst := first_lt a
  have hsecond := second_lt a b
  have hthird := third_lt b 0
  have ha := first_of_group a b
  have hb := second_of_group a b 0
  have hzero : (b &&& 15) <<< 2 ||| (0 : UInt8) >>> 6 = (b &&& 15) <<< 2 := by simp
  rw [hzero] at hthird hb
  have hspare : (b &&& 15) <<< 2 &&& 3 = 0 := by
    refine eq_of_bits fun i hi => ?_
    match i, hi with
    | 0, _ | 1, _ | 2, _ | 3, _ | 4, _ | 5, _ | 6, _ | 7, _ => simp
  have hgroup : lastGroup start [] 0 (encode [a, b]) =
      .ok ([a >>> 2, (a &&& 3) <<< 4 ||| b >>> 4, (b &&& 15) <<< 2], 1) := by
    show lastGroup start [] 0 [symbol _, symbol _, symbol _, pad] = _
    rw [lastGroup_symbol hfirst, lastGroup_symbol hsecond, lastGroup_symbol hthird,
      lastGroup_pad (by simp)]
    rfl
  unfold decodeLast
  rw [hgroup]
  simp [encode, ha, hb, hspare]

/-- A last group of three bytes. -/
theorem decodeLast_three (start : Nat) (a b c : UInt8) :
    decodeLast start (encode [a, b, c]) = .ok [a, b, c] := by
  have hgroup : lastGroup start [] 0 (encode [a, b, c]) =
      .ok ([a >>> 2, (a &&& 3) <<< 4 ||| b >>> 4, (b &&& 15) <<< 2 ||| c >>> 6, c &&& 63], 0) := by
    show lastGroup start [] 0 [symbol _, symbol _, symbol _, symbol _] = _
    rw [lastGroup_symbol (first_lt a), lastGroup_symbol (second_lt a b),
      lastGroup_symbol (third_lt b c), lastGroup_symbol (fourth_lt c)]
    rfl
  unfold decodeLast
  rw [hgroup]
  simp [encode, first_of_group, second_of_group, third_of_group]

/-- The four symbols of three bytes stand for the three bytes. -/
theorem decodeGroup_symbols (start : Nat) (a b c : UInt8) :
    decodeGroup start (symbol (a >>> 2)) (symbol ((a &&& 3) <<< 4 ||| b >>> 4))
      (symbol ((b &&& 15) <<< 2 ||| c >>> 6)) (symbol (c &&& 63)) = .ok [a, b, c] := by
  unfold decodeGroup
  rw [value?_symbol (first_lt a), value?_symbol (second_lt a b), value?_symbol (third_lt b c),
    value?_symbol (fourth_lt c)]
  simp only [first_of_group, second_of_group, third_of_group]

/-- At most four symbols are the last group. -/
theorem decodeGroups_of_length_le {group : Bytes} (h : group.length ≤ 4) (start : Nat) :
    decodeGroups start group = decodeLast start group := by
  unfold decodeGroups
  split
  · simp only [List.length_cons] at h
    omega
  · rfl

theorem encode_ne_nil {bytes : Bytes} (h : bytes ≠ []) : encode bytes ≠ [] := by
  unfold encode
  split
  · exact absurd rfl h
  · simp
  · simp
  · simp

/-- **Group after group is read back.** -/
theorem decodeGroups_encode (start : Nat) (bytes : Bytes) :
    decodeGroups start (encode bytes) = .ok bytes := by
  induction bytes using encode.induct generalizing start with
  | case1 =>
    rw [encode, decodeGroups_of_length_le (by simp)]
    rfl
  | case2 a => rw [decodeGroups_of_length_le (by simp [encode]), decodeLast_one]
  | case3 a b => rw [decodeGroups_of_length_le (by simp [encode]), decodeLast_two]
  | case4 a b c rest ih =>
    by_cases hrest : rest = []
    · rw [hrest, decodeGroups_of_length_le (by simp [encode]), decodeLast_three]
    obtain ⟨first, more, hmore⟩ := List.exists_cons_of_ne_nil (encode_ne_nil hrest)
    have hstep : decodeGroups start (encode (a :: b :: c :: rest)) =
        (decodeGroups (start + 4) (encode rest)).map ([a, b, c] ++ ·) := by
      rw [encode, hmore, decodeGroups, decodeGroup_symbols]
    rw [hstep, ih]
    rfl

theorem length_encode (bytes : Bytes) : (encode bytes).length % 4 = 0 := by
  induction bytes using encode.induct with
  | case1 => simp [encode]
  | case2 a => simp [encode]
  | case3 a b => simp [encode]
  | case4 a b c rest ih =>
    rw [encode]
    simp only [List.length_cons]
    omega

theorem decode_encode (bytes : Bytes) : decode (encode bytes) = .ok bytes := by
  unfold decode
  cases hlast : (encode bytes).getLast? with
  | none =>
    have hnil : bytes = [] := by
      apply Classical.byContradiction
      intro hne
      exact encode_ne_nil hne (List.getLast?_eq_none_iff.1 hlast)
    rw [hnil]
  | some last =>
    simp only [length_encode, Nat.zero_ne_one, decide_false, Bool.false_and, Bool.false_eq_true,
      if_false]
    exact decodeGroups_encode 0 bytes

/-! ## Texts -/

/-- Nothing but symbols and padding is written. -/
theorem mem_encode {bytes : Bytes} {b : UInt8} (h : b ∈ encode bytes) : b = pad ∨ ∃ n, b = symbol n := by
  induction bytes using encode.induct with
  | case1 => cases h
  | case2 a =>
    simp only [encode, List.mem_cons, List.not_mem_nil, or_false] at h
    rcases h with rfl | rfl | rfl | rfl
    · exact .inr ⟨_, rfl⟩
    · exact .inr ⟨_, rfl⟩
    · exact .inl rfl
    · exact .inl rfl
  | case3 a c =>
    simp only [encode, List.mem_cons, List.not_mem_nil, or_false] at h
    rcases h with rfl | rfl | rfl | rfl
    · exact .inr ⟨_, rfl⟩
    · exact .inr ⟨_, rfl⟩
    · exact .inr ⟨_, rfl⟩
    · exact .inl rfl
  | case4 a c d rest ih =>
    simp only [encode, List.mem_cons] at h
    rcases h with rfl | rfl | rfl | rfl | h
    · exact .inr ⟨_, rfl⟩
    · exact .inr ⟨_, rfl⟩
    · exact .inr ⟨_, rfl⟩
    · exact .inr ⟨_, rfl⟩
    · exact ih h

theorem lt_of_mem_encode {bytes : Bytes} {b : UInt8} (h : b ∈ encode bytes) : b < 128 := by
  rcases mem_encode h with rfl | ⟨n, rfl⟩
  · decide
  · exact symbol_lt n

/-- A text of ASCII bytes has these bytes. -/
theorem ofText_ofList {bytes : Bytes} (h : ∀ b ∈ bytes, b < 128) :
    Bytes.ofText (String.ofList (bytes.map fun b => Char.ofNat b.toNat)) = bytes := by
  have hascii : ∀ k : Fin 128, String.utf8EncodeChar (Char.ofNat (UInt8.ofNat k.val).toNat) =
      [UInt8.ofNat k.val] := by decide +kernel
  have hbyte : ∀ b ∈ bytes, String.utf8EncodeChar (Char.ofNat b.toNat) = [b] := fun b hb =>
    forall_lt_of_fin (P := fun b => String.utf8EncodeChar (Char.ofNat b.toNat) = [b]) hascii (h b hb)
  rw [Bytes.ofText_ofList, List.flatMap_map]
  clear h
  induction bytes with
  | nil => rfl
  | cons b bytes ih =>
    rw [List.flatMap_cons, hbyte b List.mem_cons_self,
      ih fun c hc => hbyte c (List.mem_cons_of_mem b hc)]
    rfl

/-- **What is written in base64 is read back.** -/
theorem decode_text (bytes : Bytes) : decode (Bytes.ofText (text bytes)) = .ok bytes := by
  unfold text
  rw [ofText_ofList fun b => lt_of_mem_encode, decode_encode]

end GatewayControl.Text.Base64
