import GatewayControl.Decimal.Shortest
import GatewayControl.Proofs.Decimal.Rounding

/-!
# `GatewayControl.Proofs.Decimal.ShortestDigits` -- the shortest decimal of a number exists

The search for the shortest decimal ends: 18 places after the first one a number has room for a decimal
between itself and the next smaller number (`searchDown_spec`). What the search yields has digits other
than zero and lies no more than half of the last place of the number above it (`shortest_spec`).
-/

namespace GatewayControl.Decimal

open Binary64 (two_zpow_pos two_zpow_le)

variable {num den n m : Nat} {q e : ℤ} {d : Digits}

/-- The number that a decimal stands for. -/
def Digits.value (d : Digits) : ℚ := d.digits * (10 : ℚ) ^ d.exponent

theorem ten_zpow_pos (e : ℤ) : (0 : ℚ) < 10 ^ e := zpow_pos (by norm_num) e

/-! ## Scaling and the first place -/

/-- The denominator after scaling depends on the denominator before it. -/
theorem exists_scaleTen (hd : 0 < den) (e : ℤ) :
    ∃ d, 0 < d ∧ ∀ num, ∃ n, scaleTen num den (-e) = (n, d) ∧ (n / d : ℚ) = num / den / 10 ^ e := by
  unfold scaleTen
  split
  · next h =>
    obtain ⟨k, hk⟩ := Int.eq_ofNat_of_zero_le h
    obtain rfl : e = -k := by omega
    refine ⟨den, hd, fun num => ⟨_, rfl, ?_⟩⟩
    simp only [neg_neg, Int.toNat_natCast, Nat.pow_eq, Nat.cast_mul, Nat.cast_pow, Nat.cast_ofNat,
      zpow_neg, zpow_natCast]
    rw [div_inv_eq_mul]
    ring
  · next h =>
    obtain ⟨k, rfl⟩ := Int.eq_ofNat_of_zero_le (show 0 ≤ e by omega)
    refine ⟨den * Nat.pow 10 k, Nat.mul_pos hd (Nat.pow_pos (by decide)), fun num => ⟨num, ?_, ?_⟩⟩
    · rw [neg_neg, Int.toNat_natCast]
    · simp only [Nat.pow_eq, Nat.cast_mul, Nat.cast_pow, Nat.cast_ofNat, zpow_natCast]
      rw [div_div]

theorem digitCount_pos (n : Nat) : 0 < digitCount n := Nat.length_toDigits_pos

theorem lt_pow_digitCount (n : Nat) : (n : ℚ) < 10 ^ (digitCount n : ℤ) := by
  have h : n < 10 ^ digitCount n :=
    (Nat.length_toDigits_le_iff (by decide) (digitCount_pos n)).1 (Nat.le_refl _)
  rw [zpow_natCast]
  exact_mod_cast h

theorem pow_digitCount_le (hn : 0 < n) : (10 : ℚ) ^ (digitCount n - 1 : ℤ) ≤ n := by
  obtain ⟨k, hk⟩ : ∃ k, digitCount n = k + 1 := ⟨digitCount n - 1, by have := digitCount_pos n; omega⟩
  have h : 10 ^ k ≤ n := by
    rcases Nat.eq_zero_or_pos k with rfl | hpos
    · exact hn
    · exact Nat.not_lt.1 fun hlt => by
        have hlen := (Nat.length_toDigits_le_iff (by decide : 1 < 10) hpos).2 hlt
        unfold digitCount at hk
        omega
  rw [hk]
  push_cast
  rw [add_sub_cancel_right, zpow_natCast]
  exact_mod_cast h

/-- The first digit of a ratio stands at its first place, or further up. -/
theorem pow_firstPlace_le (hn : 0 < num) (hd : 0 < den) :
    (10 : ℚ) ^ firstPlace num den ≤ num / den := by
  have hd' : (0 : ℚ) < den := by exact_mod_cast hd
  have hguess : (10 : ℚ) ^ ((digitCount num : ℤ) - digitCount den - 1) ≤ num / den := by
    have hden := lt_pow_digitCount den
    have hsplit : (10 : ℚ) ^ (digitCount num - 1 : ℤ) =
        10 ^ ((digitCount num : ℤ) - digitCount den - 1) * 10 ^ (digitCount den : ℤ) := by
      rw [← zpow_add₀ (by norm_num)]
      congr 1
      ring
    rw [le_div_iff₀ hd']
    refine le_trans (mul_le_mul_of_nonneg_left hden.le (ten_zpow_pos _).le) ?_
    rw [← hsplit]
    exact pow_digitCount_le hn
  unfold firstPlace
  extract_lets guess
  obtain ⟨d, hd, hscale⟩ := exists_scaleTen hd guess
  obtain ⟨n, hscaled, hratio⟩ := hscale num
  have hd' : (0 : ℚ) < d := by exact_mod_cast hd
  rw [hscaled]
  dsimp only
  split
  · exact hguess
  · next h =>
    have hge : (1 : ℚ) ≤ num / den / 10 ^ guess := by
      rw [← hratio, le_div_iff₀ hd', one_mul]
      exact_mod_cast Nat.not_lt.1 h
    rwa [le_div_iff₀ (ten_zpow_pos guess), one_mul] at hge

/-! ## One place -/

/-- The bounds of an interval are two fourths of a place away, the lower one maybe one. -/
theorem exists_interval (hm : 0 < m) (q : ℤ) : ∃ low high den value,
    interval m q = (low, high, den, value) ∧ 0 < den ∧ (low / den : ℚ) ≤ (4 * m - 1) * 2 ^ (q - 2) ∧
      (high / den : ℚ) = (4 * m + 2) * 2 ^ (q - 2) ∧ (value / den : ℚ) = 4 * m * 2 ^ (q - 2) := by
  have hden := Binary64.scale_pos 1 Nat.one_pos (q - 2)
  have hunit := Binary64.scale_ratio 1 1 (q - 2)
  rw [Nat.cast_one, div_one, one_mul] at hunit
  refine ⟨_, _, _, _, rfl, hden, ?_, ?_, ?_⟩
  · rw [← hunit, ← mul_div_assoc, Nat.cast_mul]
    refine div_le_div_of_nonneg_right (mul_le_mul_of_nonneg_right ?_ (Nat.cast_nonneg _))
      (Nat.cast_nonneg _)
    have hlow : (if m = Nat.pow 2 52 ∧ -1074 < q then 4 * m - 1 else 4 * m - 2) + 1 ≤ 4 * m := by
      split <;> omega
    have hcast : (((if m = Nat.pow 2 52 ∧ -1074 < q then 4 * m - 1 else 4 * m - 2 : Nat) : ℚ)) + 1 ≤
        4 * m := by exact_mod_cast hlow
    linarith
  · rw [← hunit, ← mul_div_assoc]
    push_cast
    rfl
  · rw [← hunit, ← mul_div_assoc]
    push_cast
    rfl

/-- A multiple of the unit lies between the bounds, or on one of them if the digits `m` are even. -/
def within (m lo hi d k : Nat) : Bool :=
  if m % 2 = 0 then decide (lo ≤ k * d ∧ k * d ≤ hi) else decide (lo < k * d ∧ k * d < hi)

theorem le_of_within {lo hi d k : Nat} (h : within m lo hi d k = true) : k * d ≤ hi := by
  unfold within at h
  split at h
  · exact (of_decide_eq_true h).2
  · exact (of_decide_eq_true h).2.le

theorem within_of_lt {lo hi d k : Nat} (hlo : lo < k * d) (hhi : k * d < hi) :
    within m lo hi d k = true := by
  unfold within
  split
  · exact decide_eq_true ⟨hlo.le, hhi.le⟩
  · exact decide_eq_true ⟨hlo, hhi⟩

/-- What is tried at a place: the multiple of it below the number, and the one above. What is found lies
below the upper bound, and the lower multiple is found if it lies strictly between the bounds. -/
theorem atPlace_cases {low high den value lo hi v d d' d'' : Nat}
    (hinterval : interval m q = (low, high, den, value)) (hv : scaleTen value den (-e) = (v, d))
    (hlo : scaleTen low den (-e) = (lo, d')) (hhi : scaleTen high den (-e) = (hi, d'')) :
    (∃ k, atPlace m q e = some ⟨k, e⟩ ∧ 0 < k ∧ k * d ≤ hi) ∨
      atPlace m q e = none ∧ ¬ (0 < v / d ∧ lo < v / d * d ∧ v / d * d < hi) := by
  have hbelow : (decide (0 < v / d) && within m lo hi d (v / d)) = true ↔
      0 < v / d ∧ within m lo hi d (v / d) = true := by
    rw [Bool.and_eq_true, decide_eq_true_eq]
  generalize hchoice : atPlace m q e = choice
  unfold atPlace at hchoice
  rw [hinterval] at hchoice
  dsimp only at hchoice
  rw [hv, hlo, hhi] at hchoice
  dsimp only at hchoice
  split at hchoice
  · next hdown hup =>
    split at hchoice <;> subst hchoice
    · exact .inl ⟨_, rfl, (hbelow.1 hdown).1, le_of_within (hbelow.1 hdown).2⟩
    · exact .inl ⟨_, rfl, Nat.succ_pos _, le_of_within hup⟩
  · next hdown _ =>
    subst hchoice
    exact .inl ⟨_, rfl, (hbelow.1 hdown).1, le_of_within (hbelow.1 hdown).2⟩
  · next _ hup =>
    subst hchoice
    exact .inl ⟨_, rfl, Nat.succ_pos _, le_of_within hup⟩
  · next hdown _ =>
    subst hchoice
    refine .inr ⟨rfl, fun ⟨hpos, hlow, hhigh⟩ => ?_⟩
    have hin := hbelow.2 ⟨hpos, within_of_lt hlow hhigh⟩
    exact Bool.false_ne_true (hdown.symm.trans hin)

/-- A decimal that is found at a place is no more than half of the last place above the number, and one
is found where the place is a fourth of that last place or less. -/
theorem atPlace_spec (hm : 0 < m) (q e : ℤ) :
    (∃ k, atPlace m q e = some ⟨k, e⟩ ∧ 0 < k ∧ (k * 10 ^ e : ℚ) ≤ (4 * m + 2) * 2 ^ (q - 2)) ∨
      atPlace m q e = none ∧ (2 : ℚ) ^ (q - 2) < 10 ^ e := by
  obtain ⟨low, high, den, value, hinterval, hden, hlow, hhigh, hvalue⟩ := exists_interval hm q
  obtain ⟨d, hd, hscale⟩ := exists_scaleTen hden e
  obtain ⟨v, hv, hvratio⟩ := hscale value
  obtain ⟨lo, hlo, hloratio⟩ := hscale low
  obtain ⟨hi, hhi, hhiratio⟩ := hscale high
  have hd' : (0 : ℚ) < d := by exact_mod_cast hd
  have hten := ten_zpow_pos e
  have htwo := two_zpow_pos (q - 2)
  rcases atPlace_cases hinterval hv hlo hhi with ⟨k, hk, hpos, hle⟩ | ⟨hnone, hout⟩
  · refine .inl ⟨k, hk, hpos, ?_⟩
    have hkd : (k * d : ℚ) ≤ hi := by exact_mod_cast hle
    rwa [← le_div_iff₀ hd', hhiratio, hhigh, le_div_iff₀ hten] at hkd
  · refine .inr ⟨hnone, not_le.1 fun hfine => hout ?_⟩
    -- the lower multiple is less than one unit below the number, and the lower bound more than one
    have hunit : (1 : ℚ) ≤ 2 ^ (q - 2) / 10 ^ e := by rwa [le_div_iff₀ hten, one_mul]
    rw [hvalue, mul_div_assoc] at hvratio
    rw [hhigh, mul_div_assoc] at hhiratio
    have hloratio' : (lo / d : ℚ) ≤ (4 * m - 1) * (2 ^ (q - 2) / 10 ^ e) := by
      rw [hloratio, ← mul_div_assoc]
      exact div_le_div_of_nonneg_right hlow hten.le
    generalize (2 : ℚ) ^ (q - 2) / 10 ^ e = unit at hunit hvratio hhiratio hloratio'
    have hm' : (1 : ℚ) ≤ m := by exact_mod_cast hm
    have hfloor : (v : ℚ) < (v / d : Nat) * d + d := by exact_mod_cast Nat.lt_div_mul_add hd
    have hmul : ((v / d : Nat) * d : ℚ) ≤ v := by exact_mod_cast Nat.div_mul_le_self v d
    rw [div_eq_iff hd'.ne'] at hvratio hhiratio
    rw [div_le_iff₀ hd'] at hloratio'
    have hstep : (d : ℚ) ≤ unit * d := le_mul_of_one_le_left hd'.le hunit
    refine ⟨Nat.div_pos ?_ hd, ?_, ?_⟩
    · have hge : (d : ℚ) ≤ v := by nlinarith
      exact_mod_cast hge
    · have hlt : (lo : ℚ) < (v / d : Nat) * d := by nlinarith
      exact_mod_cast hlt
    · have hlt : ((v / d : Nat) * d : ℚ) < hi := by nlinarith
      exact_mod_cast hlt

/-! ## The search -/

/-- Dropping zeros changes the spelling only. -/
theorem dropZeros_spec (fuel : Nat) (d : Digits) :
    (dropZeros fuel d).value = d.value ∧ (0 < d.digits → 0 < (dropZeros fuel d).digits) := by
  induction fuel generalizing d with
  | zero => exact ⟨rfl, id⟩
  | succ fuel ih =>
    rw [dropZeros]
    split
    · next h =>
      obtain ⟨hvalue, hpos⟩ := ih ⟨d.digits / 10, d.exponent + 1⟩
      refine ⟨hvalue.trans ?_, fun _ => hpos (show 0 < d.digits / 10 by omega)⟩
      have hdigits : (d.digits : ℚ) = (d.digits / 10 : Nat) * 10 := by
        exact_mod_cast (Nat.div_mul_cancel (Nat.dvd_of_mod_eq_zero h.2)).symm
      unfold Digits.value
      rw [hdigits, zpow_add_one₀ (by norm_num)]
      dsimp only
      ring
    · exact ⟨rfl, id⟩

/-- The search ends if one of its places is fine enough. -/
theorem searchDown_spec (hm : 0 < m) (q : ℤ) (fuel : Nat) (e : ℤ)
    (h : (10 : ℚ) ^ (e - fuel) ≤ 2 ^ (q - 2)) :
    0 < (searchDown m q (fuel + 1) e).digits ∧
      (searchDown m q (fuel + 1) e).value ≤ (4 * m + 2) * 2 ^ (q - 2) := by
  induction fuel generalizing e with
  | zero =>
    rcases atPlace_spec hm q e with ⟨k, hk, hpos, hle⟩ | ⟨-, hcoarse⟩
    · obtain ⟨hvalue, hdigits⟩ := dropZeros_spec 20 ⟨k, e⟩
      rw [searchDown, hk]
      exact ⟨hdigits hpos, hvalue.trans_le hle⟩
    · rw [Nat.cast_zero, sub_zero] at h
      exact absurd h (not_le.2 hcoarse)
  | succ fuel ih =>
    rw [searchDown]
    rcases atPlace_spec hm q e with ⟨k, hk, hpos, hle⟩ | ⟨hnone, -⟩
    · obtain ⟨hvalue, hdigits⟩ := dropZeros_spec 20 ⟨k, e⟩
      rw [hk]
      exact ⟨hdigits hpos, hvalue.trans_le hle⟩
    · rw [hnone]
      refine ih (e - 1) ?_
      rwa [show e - 1 - (fuel : ℤ) = e - ((fuel + 1 : Nat) : ℤ) by push_cast; ring]

/-- **The shortest decimal** of a positive finite number has digits, and is close enough to the number
to be no more than half of its last place above it. -/
theorem shortest_spec {magnitude : Nat} (hpos : 0 < magnitude)
    (hfinite : magnitude < Binary64.infiniteMagnitude) :
    0 < (shortest magnitude).digits ∧ (shortest magnitude).value ≤
      ((Binary64.parts magnitude).1 + 1 / 2) * 2 ^ (Binary64.parts magnitude).2 := by
  obtain ⟨hlt, -, -, hm, -⟩ := Binary64.parts_spec hfinite
  have hden := Binary64.scale_pos (Binary64.parts magnitude).1 Nat.one_pos
    (Binary64.parts magnitude).2
  have hratio := Binary64.scale_ratio (Binary64.parts magnitude).1 1 (Binary64.parts magnitude).2
  unfold shortest
  generalize Binary64.parts magnitude = mq at hlt hm hden hratio ⊢
  obtain ⟨m, q⟩ := mq
  dsimp only at hlt hm hden hratio ⊢
  have hm := hm hpos
  generalize Binary64.scale m 1 q = ratio at hden hratio ⊢
  obtain ⟨num, den⟩ := ratio
  dsimp only at hden hratio ⊢
  rw [Nat.cast_one, div_one] at hratio
  have htwo := two_zpow_pos (q - 2)
  have hq : (2 : ℚ) ^ q = 4 * 2 ^ (q - 2) := by
    rw [show q = 2 + (q - 2) by ring, zpow_add₀ two_ne_zero, add_sub_cancel_left]
    norm_num
  have hm' : (1 : ℚ) ≤ m := by exact_mod_cast hm
  have hnum : 0 < num := by
    have hd' : (0 : ℚ) < den := by exact_mod_cast hden
    have hquotient : (0 : ℚ) < num / den := by
      rw [hratio]
      exact mul_pos (by linarith) (two_zpow_pos q)
    exact_mod_cast (div_pos_iff_of_pos_right hd').1 hquotient
  have hfirst := pow_firstPlace_le hnum hden
  rw [hratio, hq] at hfirst
  -- the number has 53 bits, and they are fewer than 17 digits
  have hfine : (10 : ℚ) ^ (firstPlace num den - (17 : Nat)) ≤ 2 ^ (q - 2) := by
    have hlt' : (m : ℚ) < 2 ^ 53 := by exact_mod_cast hlt
    rw [zpow_sub₀ (by norm_num), zpow_natCast, div_le_iff₀ (by norm_num)]
    nlinarith
  obtain ⟨hdigits, hvalue⟩ := searchDown_spec hm q 17 (firstPlace num den) hfine
  refine ⟨hdigits, hvalue.trans_eq ?_⟩
  rw [hq]
  ring

end GatewayControl.Decimal
