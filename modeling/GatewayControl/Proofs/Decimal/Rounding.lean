import GatewayControl.Decimal.Binary64
import Mathlib.Algebra.Order.Field.Power
import Mathlib.Data.Nat.Log
import Mathlib.Tactic.FieldSimp
import Mathlib.Tactic.Linarith
import Mathlib.Tactic.NormNum
import Mathlib.Tactic.Positivity
import Mathlib.Tactic.Ring

/-!
# `GatewayControl.Proofs.Decimal.Rounding` -- how far rounding goes

The number that a magnitude stands for is a rational, `value`. The last place of a number is where 53
bits of it end, unless that is below the least place of all (`HasLastPlace`); rounding a ratio moves it
by half of its last place at most, and the result is finite if the ratio is below `overflow`
(`magnitudeOfRatio_spec`). What later proofs need follows: rounding a natural number changes it by one
part in `2 ^ 53` at most (`magnitudeOfNat_spec`), and bounds for products and quotients.
-/

namespace GatewayControl.Binary64

variable {num den magnitude a b n r : Nat} {x : ℚ} {q : ℤ}

/-- The number that a finite magnitude stands for. -/
def value (magnitude : Nat) : ℚ := (parts magnitude).1 * (2 : ℚ) ^ (parts magnitude).2

/-- Half a place above the greatest finite number: what is below is rounded to a finite one. -/
def overflow : ℚ := (2 ^ 53 - 1 / 2) * 2 ^ (971 : ℤ)

/-- The last of the 53 bits of a positive number stands at place `q`, or further up than that if `q` is
the least place. -/
structure HasLastPlace (x : ℚ) (q : ℤ) : Prop where
  least : -1074 ≤ q
  lt : x < 2 ^ 53 * 2 ^ q
  le : q ≠ -1074 → 2 ^ 52 * 2 ^ q ≤ x

theorem two_zpow_pos (q : ℤ) : (0 : ℚ) < 2 ^ q := zpow_pos (by norm_num) q

theorem two_zpow_le {p q : ℤ} (h : p ≤ q) : (2 : ℚ) ^ p ≤ 2 ^ q :=
  zpow_le_zpow_right₀ (by norm_num) h

theorem overflow_le : overflow ≤ 2 ^ 53 * 2 ^ (971 : ℤ) :=
  mul_le_mul_of_nonneg_right (by norm_num) (two_zpow_pos 971).le

theorem lt_overflow : (2 : ℚ) ^ 64 < overflow := by
  have hpos := two_zpow_pos 971
  have hplace : (2 : ℚ) ^ (12 : ℤ) ≤ 2 ^ (971 : ℤ) := two_zpow_le (by norm_num)
  calc (2 : ℚ) ^ 64 < (2 ^ 53 - 1 / 2) * 2 ^ (12 : ℤ) := by norm_num
    _ ≤ overflow := mul_le_mul_of_nonneg_left hplace (by norm_num)

theorem le_of_cast_lt_add_one {m n : Nat} (h : (m : ℚ) < n + 1) : m ≤ n :=
  Nat.lt_succ_iff.1 (by exact_mod_cast h)

/-! ## Scaling and dividing -/

theorem scale_pos (num : Nat) (hd : 0 < den) (q : ℤ) : 0 < (scale num den q).2 := by
  unfold scale
  split
  · exact hd
  · exact Nat.mul_pos hd (Nat.pow_pos (by decide))

/-- Scaling multiplies the ratio. -/
theorem scale_ratio (num den : Nat) (q : ℤ) :
    ((scale num den q).1 / (scale num den q).2 : ℚ) = num / den * 2 ^ q := by
  unfold scale
  split
  · next h =>
    obtain ⟨k, rfl⟩ := Int.eq_ofNat_of_zero_le h
    simp only [Int.toNat_natCast, Nat.pow_eq, Nat.cast_mul, Nat.cast_pow, Nat.cast_ofNat,
      zpow_natCast]
    ring
  · next h =>
    obtain ⟨k, hk⟩ := Int.eq_ofNat_of_zero_le (show 0 ≤ -q by omega)
    obtain rfl : q = -k := by omega
    simp only [neg_neg, Int.toNat_natCast, Nat.pow_eq, Nat.cast_mul, Nat.cast_pow, Nat.cast_ofNat,
      zpow_neg, zpow_natCast]
    rw [div_mul_eq_div_div, div_eq_mul_inv (_ / _)]

theorem roundDiv_bounds (num : Nat) (hd : 0 < den) :
    2 * (roundDiv num den * den) ≤ 2 * num + den ∧ 2 * num ≤ 2 * (roundDiv num den * den) + den := by
  have hdiv := Nat.div_add_mod' num den
  have hmod := Nat.mod_lt num hd
  have hsucc : (num / den + 1) * den = num / den * den + den := Nat.succ_mul _ _
  unfold roundDiv
  dsimp only
  split
  · omega
  split
  · omega
  split <;> omega

/-- The rounded quotient is within one half of the quotient. -/
theorem abs_roundDiv_sub_le (num : Nat) (hd : 0 < den) :
    |(roundDiv num den : ℚ) - num / den| ≤ 1 / 2 := by
  have hd' : (0 : ℚ) < den := by exact_mod_cast hd
  obtain ⟨hupper, hlower⟩ := roundDiv_bounds num hd
  have hupper' : 2 * (roundDiv num den * den : ℚ) ≤ 2 * num + den := by exact_mod_cast hupper
  have hlower' : (2 * num : ℚ) ≤ 2 * (roundDiv num den * den) + den := by exact_mod_cast hlower
  have hnum : (num : ℚ) = num / den * den := by field_simp
  rw [abs_le]
  constructor <;> nlinarith

/-! ## The last place -/

theorem pow_log2_le (hn : 0 < n) : (2 : ℚ) ^ (Nat.log2 n : ℤ) ≤ n := by
  rw [zpow_natCast]
  exact_mod_cast Nat.log2_self_le (Nat.ne_of_gt hn)

theorem lt_pow_log2 (n : Nat) : (n : ℚ) < 2 ^ (Nat.log2 n + 1 : ℤ) := by
  have h : (n : ℚ) < 2 ^ (Nat.log2 n + 1) := by exact_mod_cast Nat.lt_log2_self
  exact_mod_cast h

/-- The logarithms place the ratio up to a factor of four. -/
theorem ratio_between (hn : 0 < num) (hd : 0 < den) :
    2 ^ 51 * 2 ^ ((Nat.log2 num : ℤ) - Nat.log2 den - 52) < (num / den : ℚ) ∧
      (num / den : ℚ) < 2 ^ 53 * 2 ^ ((Nat.log2 num : ℤ) - Nat.log2 den - 52) := by
  have hd' : (0 : ℚ) < den := by exact_mod_cast hd
  have hnum := pow_log2_le hn
  have hden := pow_log2_le hd
  have hnum' := lt_pow_log2 num
  have hden' := lt_pow_log2 den
  have hpos := two_zpow_pos ((Nat.log2 num : ℤ) - Nat.log2 den - 52)
  -- both logarithms as places above the guess
  have hlow : (2 : ℚ) ^ (Nat.log2 num : ℤ) =
      2 ^ 51 * 2 ^ ((Nat.log2 num : ℤ) - Nat.log2 den - 52) * 2 ^ (Nat.log2 den + 1 : ℤ) := by
    rw [← zpow_natCast, ← zpow_add₀ two_ne_zero, ← zpow_add₀ two_ne_zero]
    congr 1
    push_cast
    ring
  have hhigh : (2 : ℚ) ^ (Nat.log2 num + 1 : ℤ) =
      2 ^ 53 * 2 ^ ((Nat.log2 num : ℤ) - Nat.log2 den - 52) * 2 ^ (Nat.log2 den : ℤ) := by
    rw [← zpow_natCast, ← zpow_add₀ two_ne_zero, ← zpow_add₀ two_ne_zero]
    congr 1
    push_cast
    ring
  constructor
  · rw [lt_div_iff₀ hd']
    refine lt_of_lt_of_le ?_ hnum
    rw [hlow]
    exact mul_lt_mul_of_pos_left hden' (by positivity)
  · rw [div_lt_iff₀ hd']
    refine lt_of_lt_of_le hnum' ?_
    rw [hhigh]
    exact mul_le_mul_of_nonneg_left hden (by positivity)

/-- **The last place** is found for every positive ratio. -/
theorem hasLastPlace (hn : 0 < num) (hd : 0 < den) :
    HasLastPlace (num / den) (lastPlace num den) := by
  obtain ⟨hlow, hhigh⟩ := ratio_between hn hd
  have hratio := scale_ratio num den (-((Nat.log2 num : ℤ) - Nat.log2 den - 52))
  have hscaled := scale_pos num hd (-((Nat.log2 num : ℤ) - Nat.log2 den - 52))
  unfold lastPlace
  dsimp only
  generalize (Nat.log2 num : ℤ) - Nat.log2 den - 52 = guess at hlow hhigh hratio hscaled ⊢
  generalize scale num den (-guess) = scaled at hratio hscaled ⊢
  have hpos := two_zpow_pos guess
  rw [zpow_neg, ← div_eq_mul_inv] at hratio
  -- the quotient tells whether the guess was one too many
  have htest : scaled.1 < scaled.2 * Nat.pow 2 52 ↔ (num / den : ℚ) < 2 ^ 52 * 2 ^ guess := by
    rw [← div_lt_iff₀ hpos, ← hratio, div_lt_iff₀ (by exact_mod_cast hscaled), mul_comm]
    exact_mod_cast Iff.rfl
  obtain ⟨q, hq, hlt, hle⟩ : ∃ q, (if scaled.1 < scaled.2 * Nat.pow 2 52 then guess - 1 else guess) = q ∧
      (num / den : ℚ) < 2 ^ 53 * 2 ^ q ∧ 2 ^ 52 * 2 ^ q ≤ (num / den : ℚ) := by
    refine ⟨_, rfl, ?_⟩
    split
    · next h =>
      have hpred : (2 : ℚ) ^ (guess - 1) = 2 ^ guess / 2 := by rw [zpow_sub_one₀ two_ne_zero]; ring
      rw [hpred]
      have := htest.1 h
      constructor <;> linarith
    · next h => exact ⟨hhigh, not_lt.1 fun hlt => h (htest.2 hlt)⟩
  rw [hq]
  split
  · next h =>
    refine ⟨le_refl _, hlt.trans_le ?_, fun hne => absurd rfl hne⟩
    exact mul_le_mul_of_nonneg_left (two_zpow_le h.le) (by positivity)
  · next h => exact ⟨not_lt.1 h, hlt, fun _ => hle⟩

/-! ## Bits -/

/-- A place and 53 bits, one more after a carry, put together. -/
theorem value_bits (hq : -1074 ≤ q) (hr : r ≤ 2 ^ 53) (hnormal : q ≠ -1074 → 2 ^ 52 ≤ r) :
    value ((q + 1074).toNat * Nat.pow 2 52 + r) = r * 2 ^ q := by
  have hpow : Nat.pow 2 52 = 4503599627370496 := rfl
  obtain ⟨e, he⟩ := Int.eq_ofNat_of_zero_le (show 0 ≤ q + 1074 by omega)
  obtain rfl : q = e - 1074 := by omega
  unfold value parts
  simp only [hpow, sub_add_cancel, Int.toNat_natCast]
  rcases Nat.lt_or_ge r 4503599627370496 with hlt | hge
  · -- below the normal numbers
    obtain rfl : e = 0 := by
      by_contra hne
      have := hnormal (by omega)
      omega
    rw [if_pos (by omega)]
    simp only [Nat.zero_mul, Nat.zero_add, Nat.mod_eq_of_lt hlt]
    norm_num
  rcases Nat.lt_or_ge r (2 * 4503599627370496) with hlt | hcarry
  · have hdiv : (e * 4503599627370496 + r) / 4503599627370496 = e + 1 := by omega
    have hmod : 4503599627370496 + (e * 4503599627370496 + r) % 4503599627370496 = r := by omega
    rw [hdiv, if_neg (by omega), hmod]
    push_cast
    congr 2
    ring
  · -- the carry moves the place up by one
    obtain rfl : r = 2 * 4503599627370496 := by omega
    have hdiv : (e * 4503599627370496 + 2 * 4503599627370496) / 4503599627370496 = e + 2 := by omega
    have hmod : (e * 4503599627370496 + 2 * 4503599627370496) % 4503599627370496 = 0 := by omega
    have hplace : (((e + 2 : Nat) : ℤ) - 1075) = (e : ℤ) - 1074 + 1 := by push_cast; ring
    rw [hdiv, if_neg (by omega), hmod, hplace, zpow_add_one₀ two_ne_zero]
    push_cast
    ring

/-- The digits and the place of a finite magnitude. -/
theorem parts_spec (h : magnitude < infiniteMagnitude) :
    (parts magnitude).1 < 2 ^ 53 ∧ -1074 ≤ (parts magnitude).2 ∧ (parts magnitude).2 ≤ 971 ∧
      (0 < magnitude → 0 < (parts magnitude).1) ∧
      ((parts magnitude).2 = 971 → 2 ^ 53 + magnitude = infiniteMagnitude + (parts magnitude).1) := by
  have hpow : Nat.pow 2 52 = 4503599627370496 := rfl
  unfold infiniteMagnitude at h ⊢
  unfold parts
  simp only [hpow] at h ⊢
  split
  · dsimp only
    omega
  · dsimp only
    omega

theorem value_zero : value 0 = 0 := by
  have hparts : parts 0 = (0, -1074) := rfl
  unfold value
  rw [hparts]
  norm_num

theorem value_nonneg (magnitude : Nat) : 0 ≤ value magnitude :=
  mul_nonneg (Nat.cast_nonneg _) (two_zpow_pos _).le

/-! ## Rounding -/

theorem magnitudeOfRatio_zero (den : Nat) : magnitudeOfRatio 0 den = 0 := if_pos rfl

/-- Rounding to a place, where it does not lead beyond the range. -/
theorem magnitudeOfRatio_of_lt (hn : 0 < num) {n d : Nat}
    (hs : scale num den (-lastPlace num den) = (n, d))
    (h : (lastPlace num den + 1074).toNat * Nat.pow 2 52 + roundDiv n d < infiniteMagnitude) :
    magnitudeOfRatio num den = (lastPlace num den + 1074).toNat * Nat.pow 2 52 + roundDiv n d := by
  unfold magnitudeOfRatio
  refine (if_neg (Nat.ne_of_gt hn)).trans ?_
  extract_lets q
  split
  next n' d' hs' =>
    cases hs.symm.trans hs'
    exact if_neg (Nat.not_le.2 h)

/-- A quotient of 53 bits, or of fewer at the least place, rounds to as many or to the power of two
above them. -/
theorem HasLastPlace.rounded (h : HasLastPlace x q) (hr : |(r : ℚ) - x / 2 ^ q| ≤ 1 / 2) :
    r ≤ 2 ^ 53 ∧ (q ≠ -1074 → 2 ^ 52 ≤ r) := by
  have hpos := two_zpow_pos q
  obtain ⟨hlower, hupper⟩ := abs_le.1 hr
  refine ⟨?_, fun hne => ?_⟩
  · have hquotient : x / 2 ^ q < 2 ^ 53 := (div_lt_iff₀ hpos).2 h.lt
    refine le_of_cast_lt_add_one ?_
    push_cast
    linarith
  · have hquotient : (2 : ℚ) ^ 52 ≤ x / 2 ^ q := (le_div_iff₀ hpos).2 (h.le hne)
    refine le_of_cast_lt_add_one ?_
    push_cast
    linarith

/-- What is below the overflow does not round beyond the range. -/
theorem HasLastPlace.bits_lt (h : HasLastPlace x q) (hr : |(r : ℚ) - x / 2 ^ q| ≤ 1 / 2)
    (hx : x < overflow) : (q + 1074).toNat * Nat.pow 2 52 + r < infiniteMagnitude := by
  have hpow : Nat.pow 2 52 = 4503599627370496 := rfl
  have hpos := two_zpow_pos q
  have hle := (h.rounded hr).1
  have hleast := h.least
  unfold infiniteMagnitude
  rw [hpow]
  by_contra hinfinite
  refine absurd hx (not_lt.2 ?_)
  rcases eq_or_lt_of_le (show 971 ≤ q by omega) with hq | hbeyond
  · -- all bits are ones, and the rest rounds up
    have hr' : r = 2 ^ 53 := by omega
    have hupper := (abs_le.1 hr).2
    rw [hr'] at hupper
    push_cast at hupper
    have hquotient : (2 : ℚ) ^ 53 - 1 / 2 ≤ x / 2 ^ q := by linarith
    rw [overflow, hq]
    exact (le_div_iff₀ hpos).1 hquotient
  · have hbelow : (2 : ℚ) ^ (971 : ℤ) ≤ 2 ^ (q - 1) := two_zpow_le (by omega)
    rw [zpow_sub_one₀ two_ne_zero] at hbelow
    calc overflow ≤ 2 ^ 53 * 2 ^ (971 : ℤ) := overflow_le
      _ ≤ 2 ^ 53 * (2 ^ q * 2⁻¹) := mul_le_mul_of_nonneg_left hbelow (by positivity)
      _ = 2 ^ 52 * 2 ^ q := by ring
      _ ≤ x := h.le (by omega)

/-- **Rounding a positive ratio** that is not too large gives a finite number, half of the last place
away at most. -/
theorem magnitudeOfRatio_spec (hn : 0 < num) (hd : 0 < den) (h : (num / den : ℚ) < overflow) :
    magnitudeOfRatio num den < infiniteMagnitude ∧
      ∃ q, HasLastPlace (num / den) q ∧ |value (magnitudeOfRatio num den) - num / den| ≤ 2 ^ q / 2 := by
  have hplace := hasLastPlace hn hd
  obtain ⟨⟨n, d⟩, hs⟩ : ∃ ratio, scale num den (-lastPlace num den) = ratio := ⟨_, rfl⟩
  have hpos : 0 < d := by
    have hscaled := scale_pos num hd (-lastPlace num den)
    rwa [hs] at hscaled
  have hratio := scale_ratio num den (-lastPlace num den)
  rw [hs, zpow_neg, ← div_eq_mul_inv] at hratio
  have hround := abs_roundDiv_sub_le n hpos
  rw [hratio] at hround
  have hfinite := hplace.bits_lt hround h
  rw [magnitudeOfRatio_of_lt hn hs hfinite]
  refine ⟨hfinite, _, hplace, ?_⟩
  obtain ⟨hle, hge⟩ := hplace.rounded hround
  have hunit := two_zpow_pos (lastPlace num den)
  have hquotient : (num / den : ℚ) = num / den / 2 ^ lastPlace num den * 2 ^ lastPlace num den := by
    field_simp
  rw [value_bits hplace.least hle hge]
  calc |(roundDiv n d : ℚ) * 2 ^ lastPlace num den - num / den|
      = |(roundDiv n d : ℚ) - num / den / 2 ^ lastPlace num den| * 2 ^ lastPlace num den := by
        rw [← abs_of_pos hunit, ← abs_mul, abs_of_pos hunit, sub_mul, ← hquotient]
    _ ≤ 1 / 2 * 2 ^ lastPlace num den := mul_le_mul_of_nonneg_right hround hunit.le
    _ = 2 ^ lastPlace num den / 2 := by ring

/-- What is below the overflow rounds to a finite number. -/
theorem magnitudeOfRatio_lt (hd : 0 < den) (h : (num / den : ℚ) < overflow) :
    magnitudeOfRatio num den < infiniteMagnitude := by
  rcases Nat.eq_zero_or_pos num with rfl | hn
  · rw [magnitudeOfRatio_zero]
    decide
  · exact (magnitudeOfRatio_spec hn hd h).1

/-- A natural number changes by one part in `2 ^ 53` at most. -/
theorem magnitudeOfNat_spec (hn : 0 < n) (h : (n : ℚ) < overflow) :
    value (magnitudeOfNat n) ≤ n * (1 + 1 / 2 ^ 53) ∧ n * (1 - 1 / 2 ^ 53) ≤ value (magnitudeOfNat n) := by
  have hone : ((n : ℚ) / (1 : Nat)) = n := by rw [Nat.cast_one, div_one]
  obtain ⟨-, q, hplace, habs⟩ := magnitudeOfRatio_spec hn Nat.one_pos (by rwa [hone])
  rw [hone] at hplace habs
  -- a number from one on has all of its bits
  have hnormal : q ≠ -1074 := by
    rintro rfl
    have hge : (1 : ℚ) ≤ n := by exact_mod_cast hn
    have hsmall : (2 : ℚ) ^ (-1074 : ℤ) ≤ 2 ^ (-53 : ℤ) := two_zpow_le (by norm_num)
    have hlt : (n : ℚ) < 2 ^ 53 * 2 ^ (-53 : ℤ) :=
      hplace.lt.trans_le (mul_le_mul_of_nonneg_left hsmall (by positivity))
    norm_num at hlt
    linarith
  have hle := hplace.le hnormal
  obtain ⟨hlower, hupper⟩ := abs_le.1 habs
  have hmag : magnitudeOfNat n = magnitudeOfRatio n 1 := rfl
  rw [hmag]
  have hhalf : (2 : ℚ) ^ q / 2 ≤ n * (1 / 2 ^ 53) := by
    norm_num at hle ⊢
    linarith
  constructor <;> linarith

/-! ## Products and quotients -/

/-- A product below the overflow is finite. -/
theorem mulMagnitude_lt (h : value a * value b < overflow) : mulMagnitude a b < infiniteMagnitude := by
  unfold mulMagnitude
  dsimp only
  refine magnitudeOfRatio_lt (scale_pos _ Nat.one_pos _) ?_
  refine lt_of_eq_of_lt ?_ h
  rw [scale_ratio, zpow_add₀ two_ne_zero]
  unfold value
  push_cast
  ring

/-- The exact quotient that is rounded. -/
theorem ratio_divMagnitude (a b : Nat) :
    ((scale (parts a).1 (parts b).1 ((parts a).2 - (parts b).2)).1 /
      (scale (parts a).1 (parts b).1 ((parts a).2 - (parts b).2)).2 : ℚ) = value a / value b := by
  rw [scale_ratio, zpow_sub₀ two_ne_zero]
  unfold value
  rw [mul_div_mul_comm]

/-- **Dividing by four or more** does not leave a range of numbers up to `2 ^ 65`. -/
theorem divMagnitude_spec (ha : value a ≤ 2 ^ 65) (hb : 4 ≤ value b) :
    divMagnitude a b < infiniteMagnitude ∧ value (divMagnitude a b) ≤ 2 ^ 65 := by
  have hden : 0 < (parts b).1 := by
    by_contra hzero
    unfold value at hb
    rw [Nat.eq_zero_of_not_pos hzero] at hb
    norm_num at hb
  have hratio := ratio_divMagnitude a b
  have hpos : 0 < (scale (parts a).1 (parts b).1 ((parts a).2 - (parts b).2)).2 := scale_pos _ hden _
  have hunfold : divMagnitude a b =
      magnitudeOfRatio (scale (parts a).1 (parts b).1 ((parts a).2 - (parts b).2)).1
        (scale (parts a).1 (parts b).1 ((parts a).2 - (parts b).2)).2 := rfl
  rw [hunfold]
  generalize scale (parts a).1 (parts b).1 ((parts a).2 - (parts b).2) = ratio at hratio hpos ⊢
  have hquotient : (ratio.1 / ratio.2 : ℚ) ≤ 2 ^ 63 := by
    rw [hratio, div_le_iff₀ (by linarith)]
    linarith
  rcases Nat.eq_zero_or_pos ratio.1 with hzero | hnum
  · rw [hzero, magnitudeOfRatio_zero, value_zero]
    exact ⟨by decide, by positivity⟩
  · obtain ⟨hfinite, q, hplace, habs⟩ := magnitudeOfRatio_spec hnum hpos
      (lt_of_le_of_lt (hquotient.trans (by norm_num)) lt_overflow)
    refine ⟨hfinite, ?_⟩
    -- half of the last place is less than the quotient, or nearly nothing
    have hhalf : (2 : ℚ) ^ q / 2 ≤ 2 ^ 63 := by
      by_cases hq : q = -1074
      · have hone : (2 : ℚ) ^ q ≤ 2 ^ (0 : ℤ) := two_zpow_le (by omega)
        rw [zpow_zero] at hone
        linarith
      · have hle := hplace.le hq
        have hstep : (2 : ℚ) ^ q ≤ 2 ^ 52 * 2 ^ q := le_mul_of_one_le_left (two_zpow_pos q).le (by norm_num)
        linarith
    have hupper := (abs_le.1 habs).2
    linarith

end GatewayControl.Binary64
