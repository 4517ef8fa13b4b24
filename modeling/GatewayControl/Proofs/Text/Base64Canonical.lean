import GatewayControl.Proofs.Text.Base64

/-!
# `GatewayControl.Proofs.Text.Base64Canonical` -- nothing else is read as these bytes

Reading undoes writing; here is the other direction, that writing undoes reading. Four numbers of six bits
are put together as three bytes and cut up again (`first_of_numbers` and the three after it). The last group
may have fewer numbers, and then the bits that no byte uses have to be zero, and the group has to be filled
up with padding: so it, too, is what would have been written. Hence the symbols of bytes are the only ones
that stand for them (`decode_eq_ok_iff`).
-/

namespace GatewayControl.Text.Base64

/-! ## Symbols and bits -/

/-- A symbol is the symbol of its number. -/
theorem symbol_of_value? {b n : UInt8} (h : value? b = some n) : n < 64 ∧ symbol n = b := by
  have hall : ∀ k : Fin 256,
      (value? (UInt8.ofNat k.val)).all (fun n => n < 64 && symbol n == UInt8.ofNat k.val) = true := by
    decide +kernel
  have hb := forall_lt_of_fin (P := fun b => (value? b).all (fun n => n < 64 && symbol n == b) = true)
    hall b.toNat_lt
  simpa [h] using hb

/-- A number of six bits has no seventh and no eighth. -/
theorem high_bits {n : UInt8} (h : n < 64) : n.toBitVec[6] = false ∧ n.toBitVec[7] = false := by
  have hlt : n.toBitVec.toNat < 2 ^ 6 := UInt8.lt_iff_toNat_lt.1 h
  simp only [BitVec.getElem_eq_testBit_toNat]
  exact ⟨Nat.testBit_lt_two_pow hlt, Nat.testBit_lt_two_pow (Nat.lt_trans hlt (by decide))⟩

/-- What a mask finds to be zero has no low bits. -/
theorem low_two_bits {n : UInt8} (h : n &&& 3 = 0) : n.toBitVec[0] = false ∧ n.toBitVec[1] = false := by
  have hbit : ∀ i (hi : i < 8), (n &&& 3).toBitVec[i] = false := fun i hi => by simp [h]
  exact ⟨by simpa using hbit 0 (by decide), by simpa using hbit 1 (by decide)⟩

theorem low_four_bits {n : UInt8} (h : n &&& 15 = 0) :
    (n.toBitVec[0] = false ∧ n.toBitVec[1] = false) ∧ n.toBitVec[2] = false ∧ n.toBitVec[3] = false := by
  have hbit : ∀ i (hi : i < 8), (n &&& 15).toBitVec[i] = false := fun i hi => by simp [h]
  exact ⟨⟨by simpa using hbit 0 (by decide), by simpa using hbit 1 (by decide)⟩,
    by simpa using hbit 2 (by decide), by simpa using hbit 3 (by decide)⟩

variable {p q r s : UInt8}

theorem first_of_numbers (hp : p < 64) (hq : q < 64) : (p <<< 2 ||| q >>> 4) >>> 2 = p := by
  refine eq_of_bits fun i hi => ?_
  match i, hi with
  | 0, _ | 1, _ | 2, _ | 3, _ | 4, _ | 5, _ | 6, _ | 7, _ => simp [high_bits hp, high_bits hq]

theorem second_of_numbers (hq : q < 64) (hr : r < 64) :
    ((p <<< 2 ||| q >>> 4) &&& 3) <<< 4 ||| (q <<< 4 ||| r >>> 2) >>> 4 = q := by
  refine eq_of_bits fun i hi => ?_
  match i, hi with
  | 0, _ | 1, _ | 2, _ | 3, _ | 4, _ | 5, _ | 6, _ | 7, _ => simp [high_bits hq, high_bits hr]

theorem third_of_numbers (hr : r < 64) (hs : s < 64) :
    ((q <<< 4 ||| r >>> 2) &&& 15) <<< 2 ||| (r <<< 6 ||| s) >>> 6 = r := by
  refine eq_of_bits fun i hi => ?_
  match i, hi with
  | 0, _ | 1, _ | 2, _ | 3, _ | 4, _ | 5, _ | 6, _ | 7, _ => simp [high_bits hr, high_bits hs]

theorem fourth_of_numbers (hs : s < 64) : (r <<< 6 ||| s) &&& 63 = s := by
  refine eq_of_bits fun i hi => ?_
  match i, hi with
  | 0, _ | 1, _ | 2, _ | 3, _ | 4, _ | 5, _ | 6, _ | 7, _ => simp [high_bits hs]

/-- The last number of a group of two, of which the low bits are no byte's. -/
theorem second_of_last (hq : q < 64) (hspare : q &&& 15 = 0) :
    ((p <<< 2 ||| q >>> 4) &&& 3) <<< 4 = q := by
  refine eq_of_bits fun i hi => ?_
  match i, hi with
  | 0, _ | 1, _ | 2, _ | 3, _ | 4, _ | 5, _ | 6, _ | 7, _ => simp [high_bits hq, low_four_bits hspare]

/-- The last number of a group of three. -/
theorem third_of_last (hr : r < 64) (hspare : r &&& 3 = 0) :
    ((q <<< 4 ||| r >>> 2) &&& 15) <<< 2 = r := by
  refine eq_of_bits fun i hi => ?_
  match i, hi with
  | 0, _ | 1, _ | 2, _ | 3, _ | 4, _ | 5, _ | 6, _ | 7, _ => simp [high_bits hr, low_two_bits hspare]

/-! ## Groups -/

variable {start pads pads' : Nat} {numbers numbers' : List UInt8} {group bytes symbols : Bytes}

/-- What the scan of a last group has found: symbols of numbers, and then padding. -/
theorem lastGroup_eq_ok (h : lastGroup start numbers pads group = .ok (numbers', pads')) :
    ∃ (more : List UInt8) (k : Nat), numbers' = numbers ++ more ∧ pads' = pads + k ∧
      group = more.map symbol ++ List.replicate k pad ∧ (∀ n ∈ more, n < 64) ∧
      (0 < pads → more = []) := by
  induction group generalizing numbers pads with
  | nil =>
    cases h
    exact ⟨[], 0, (List.append_nil _).symm, rfl, rfl, fun n hn => absurd hn List.not_mem_nil, fun _ => rfl⟩
  | cons b rest ih =>
    rw [lastGroup] at h
    by_cases hb : b = pad
    · rw [if_pos hb] at h
      split at h
      · cases h
      · -- a number after padding would have been refused
        obtain ⟨more, k, rfl, rfl, rfl, -, hnone⟩ := ih h
        obtain rfl : more = [] := hnone (Nat.succ_pos pads)
        refine ⟨[], k + 1, rfl, by omega, ?_, fun n hn => absurd hn List.not_mem_nil, fun _ => rfl⟩
        rw [hb]
        rfl
    · rw [if_neg hb] at h
      split at h
      · cases h
      next hpads =>
        cases hvalue : value? b with
        | none =>
          rw [hvalue] at h
          cases h
        | some n =>
          rw [hvalue] at h
          obtain ⟨hn, rfl⟩ := symbol_of_value? hvalue
          obtain ⟨more, k, rfl, rfl, rfl, hmore, -⟩ := ih h
          exact ⟨n :: more, k, by simp, rfl, rfl, List.forall_mem_cons.2 ⟨hn, hmore⟩,
            fun hpos => absurd hpos hpads⟩

/-- A last group is what is written for its bytes. -/
theorem encode_of_decodeLast (hlength : group.length ≤ 4) (h : decodeLast start group = .ok bytes) :
    encode bytes = group := by
  unfold decodeLast at h
  split at h
  · next hempty =>
    cases h
    rw [List.isEmpty_iff.1 hempty]
    rfl
  · split at h
    · cases h
    next numbers pads hscan =>
      obtain ⟨more, k, hmore, hk, rfl, hlt, -⟩ := lastGroup_eq_ok hscan
      obtain rfl : numbers = more := hmore
      obtain rfl : pads = k := hk.trans (Nat.zero_add k)
      simp only [List.length_append, List.length_map, List.length_replicate] at hlength
      split at h
      · cases h
      split at h
      · cases h
      next hmany hwhole =>
        clear hscan hk
        dsimp only at h
        match numbers with
        | [] | [_] => exact absurd (by simp) hmany
        | [p, q] =>
          obtain ⟨hp, hq⟩ : p < 64 ∧ q < 64 := by simpa using hlt
          obtain rfl : pads = 2 := by
            simp only [List.length_cons, List.length_nil] at hlength hwhole
            omega
          dsimp only at h
          split at h
          · next hspare =>
            cases h
            rw [encode, first_of_numbers hp hq, second_of_last hq hspare]
            rfl
          · cases h
        | [p, q, r] =>
          obtain ⟨hp, hq, hr⟩ : p < 64 ∧ q < 64 ∧ r < 64 := by simpa using hlt
          obtain rfl : pads = 1 := by
            simp only [List.length_cons, List.length_nil] at hlength hwhole
            omega
          dsimp only at h
          split at h
          · next hspare =>
            cases h
            rw [encode, first_of_numbers hp hq, second_of_numbers hq hr, third_of_last hr hspare]
            rfl
          · cases h
        | [p, q, r, s] =>
          obtain ⟨hp, hq, hr, hs⟩ : p < 64 ∧ q < 64 ∧ r < 64 ∧ s < 64 := by simpa using hlt
          obtain rfl : pads = 0 := by
            simp only [List.length_cons, List.length_nil] at hlength
            omega
          cases h
          rw [encode, first_of_numbers hp hq, second_of_numbers hq hr, third_of_numbers hr hs,
            fourth_of_numbers hs]
          rfl
        | _ :: _ :: _ :: _ :: _ :: _ =>
          simp only [List.length_cons] at hlength
          omega

/-- A group that is not the last is what is written for its three bytes, whatever follows them. -/
theorem encode_of_decodeGroup {a b c d : UInt8} (h : decodeGroup start a b c d = .ok bytes) (rest : Bytes) :
    encode (bytes ++ rest) = a :: b :: c :: d :: encode rest := by
  unfold decodeGroup at h
  split at h
  · cases h
  · cases h
  · cases h
  · cases h
  next p q r s ha hb hc hd =>
    cases h
    obtain ⟨hp, rfl⟩ := symbol_of_value? ha
    obtain ⟨hq, rfl⟩ := symbol_of_value? hb
    obtain ⟨hr, rfl⟩ := symbol_of_value? hc
    obtain ⟨hs, rfl⟩ := symbol_of_value? hd
    rw [List.cons_append, List.cons_append, List.cons_append, List.nil_append, encode,
      first_of_numbers hp hq, second_of_numbers hq hr, third_of_numbers hr hs, fourth_of_numbers hs]

theorem encode_of_decodeGroups (h : decodeGroups start symbols = .ok bytes) : encode bytes = symbols := by
  fun_induction decodeGroups start symbols generalizing bytes with
  | case1 => cases h
  | case2 start a b c d next more first hfirst ih =>
    cases hrest : decodeGroups (start + 4) (next :: more) with
    | error e =>
      rw [hrest] at h
      cases h
    | ok last =>
      rw [hrest] at h
      cases h
      rw [encode_of_decodeGroup hfirst, ih hrest]
  | case3 start last hshort =>
    refine encode_of_decodeLast ?_ h
    -- five symbols would be a group and something after it
    match last, hshort with
    | [], _ | [_], _ | [_, _], _ | [_, _, _], _ | [_, _, _, _], _ => simp
    | a :: b :: c :: d :: e :: rest, hshort => exact absurd rfl (hshort a b c d e rest)

/-- **The symbols of bytes, and no others, are read as these bytes.** -/
theorem decode_eq_ok_iff : decode symbols = .ok bytes ↔ symbols = encode bytes := by
  constructor
  · intro h
    unfold decode at h
    split at h
    · split at h
      · cases h
      · exact (encode_of_decodeGroups h).symm
    · next hnone =>
      cases h
      exact List.getLast?_eq_none_iff.1 hnone
  · rintro rfl
    exact decode_encode bytes

/-- **The text of bytes, and no other text, is read as these bytes.** -/
theorem decode_ofText_eq_ok_iff {t : String} :
    decode (Bytes.ofText t) = .ok bytes ↔ t = text bytes := by
  rw [decode_eq_ok_iff, ← Bytes.ofText_inj, text, ofText_ofList fun b => lt_of_mem_encode]

end GatewayControl.Text.Base64
