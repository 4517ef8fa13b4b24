import GatewayControl.Net.Percent

/-!
# `GatewayControl.Proofs.Net.Percent` -- what percent-encoding keeps

Decoding gives the UTF-8 bytes of the text that was encoded, provided that `%` is among the escaped
characters (`decode_encode`), and so different texts are encoded differently (`encode_inj`). An encoded
text has no character in it that was to be escaped (`mem_encode`).
-/

namespace GatewayControl.Percent

variable {escaped : Char → Bool} {c : Char} {cs cs' : List Char}

/-! ## Bytes -/

theorem value?_digit {n : Nat} (h : n < 16) : value? (digit n) = some n := by
  have hall : ∀ n : Fin 16, value? (digit n.val) = some n.val := by decide
  exact hall ⟨n, h⟩

/-- A character but `%` stands for itself. -/
theorem decode_cons_of_ne (h : c ≠ '%') (rest : List Char) :
    decode (c :: rest) = String.utf8EncodeChar c ++ decode rest := by
  rw [decode]
  rintro a b rest' rfl
  exact fun _ => h rfl

theorem decode_encodeByte_append (b : UInt8) (rest : List Char) :
    decode (encodeByte b ++ rest) = b :: decode rest := by
  have hlt := b.toNat_lt
  have hhigh : b.toNat / 16 < 16 := by omega
  have hlow : b.toNat % 16 < 16 := by omega
  have hbyte : (b.toNat / 16 * 16 + b.toNat % 16).toUInt8 = b := by
    rw [Nat.div_add_mod']
    exact UInt8.ofNat_toNat
  simp only [encodeByte, List.cons_append, List.nil_append, decode, value?_digit hhigh, value?_digit hlow,
    hbyte]

theorem decode_encodeBytes_append (bytes : Bytes) (rest : List Char) :
    decode (bytes.flatMap encodeByte ++ rest) = bytes ++ decode rest := by
  induction bytes with
  | nil => rfl
  | cons b bytes ih =>
    rw [List.flatMap_cons, List.append_assoc, decode_encodeByte_append, ih, List.cons_append]

/-! ## Texts -/

theorem decode_encodeChar_append (h : escaped '%' = true) (c : Char) (rest : List Char) :
    decode (encodeChar escaped c ++ rest) = String.utf8EncodeChar c ++ decode rest := by
  unfold encodeChar
  split
  · exact decode_encodeBytes_append _ rest
  · next hkept =>
    refine decode_cons_of_ne ?_ rest
    rintro rfl
    exact hkept (by simp [h])

/-- **What was encoded is read back**, as UTF-8. -/
theorem decode_encode (h : escaped '%' = true) (cs : List Char) :
    decode (encode escaped cs) = Bytes.ofText (String.ofList cs) := by
  rw [Bytes.ofText_ofList]
  unfold encode
  induction cs with
  | nil => rfl
  | cons c cs ih => rw [List.flatMap_cons, decode_encodeChar_append h, ih, List.flatMap_cons]

/-- Different texts are encoded differently. -/
theorem encode_inj (h : escaped '%' = true) : encode escaped cs = encode escaped cs' ↔ cs = cs' := by
  refine ⟨fun heq => ?_, fun heq => heq ▸ rfl⟩
  have hdecode := congrArg decode heq
  rw [decode_encode h, decode_encode h, Bytes.ofText_inj] at hdecode
  exact String.ofList_injective hdecode

/-! ## Characters of an encoded text -/

/-- The characters of an encoded text are `%`, digits of base sixteen, and those that are kept. -/
theorem mem_encode (h : c ∈ encode escaped cs) :
    c = '%' ∨ (∃ n < 16, c = digit n) ∨ escaped c = false := by
  obtain ⟨d, -, hc⟩ := List.mem_flatMap.1 h
  unfold encodeChar at hc
  split at hc
  · obtain ⟨b, -, hb⟩ := List.mem_flatMap.1 hc
    have hlt := b.toNat_lt
    simp only [encodeByte, List.mem_cons, List.not_mem_nil, or_false] at hb
    rcases hb with rfl | rfl | rfl
    · exact .inl rfl
    · exact .inr (.inl ⟨_, by omega, rfl⟩)
    · exact .inr (.inl ⟨_, by omega, rfl⟩)
  · next hkept =>
    obtain rfl := List.mem_singleton.1 hc
    simp only [Bool.or_eq_true, not_or, Bool.not_eq_true] at hkept
    exact .inr (.inr hkept.2)

end GatewayControl.Percent
