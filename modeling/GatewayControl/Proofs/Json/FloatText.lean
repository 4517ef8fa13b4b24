import GatewayControl.Proofs.Json.NumberText

/-!
# `GatewayControl.Proofs.Json.FloatText` -- floating-point numbers stay in range when they are read again

A literal is decoded by the digits that fit 64 bits, scaled by a power of ten with a rounding at each
step. So a number that was written need not come back as the same number. But it comes back as some
number: the scaled significand is no more than the decimal that was written, which is half of the last
place above the number at most, and the roundings add less than two places more
(`mulMagnitude_lt_of_le`). Only next to the greatest number is that too much, and there the few numbers
are decoded one by one. Conversely, every number that is decoded is in range (`finite_of_number?`).
-/

namespace GatewayControl.Json

open Binary64 (value overflow magnitudeOfNat mulMagnitude divMagnitude infiniteMagnitude two_zpow_pos
  two_zpow_le)

variable {l : Literal} {magnitude m n k s : Nat} {q e : ℤ} {ds : List Nat}

/-! ## The digits that fit 64 bits -/

/-- The number of a significand and the digits after it. -/
def digitsFrom (s : Nat) (ds : List Nat) : Nat := ds.foldl (fun n d => n * 10 + d) s

theorem mul_pow_le_digitsFrom (s : Nat) (ds : List Nat) : s * 10 ^ ds.length ≤ digitsFrom s ds := by
  induction ds generalizing s with
  | nil => exact Nat.le_of_eq (Nat.mul_one s)
  | cons d ds ih =>
    have hstep : s * 10 * 10 ^ ds.length ≤ (s * 10 + d) * 10 ^ ds.length :=
      Nat.mul_le_mul_right _ (Nat.le_add_right _ _)
    calc s * 10 ^ (ds.length + 1) = s * 10 * 10 ^ ds.length := by ring
      _ ≤ (s * 10 + d) * 10 ^ ds.length := hstep
      _ ≤ digitsFrom (s * 10 + d) ds := ih _

theorem digitsFrom_lt (hd : ∀ d ∈ ds, d < 10) (s : Nat) : digitsFrom s ds < (s + 1) * 10 ^ ds.length := by
  induction ds generalizing s with
  | nil => exact Nat.lt_of_lt_of_eq (Nat.lt_succ_self s) (Nat.mul_one _).symm
  | cons d ds ih =>
    have hlt := hd d (List.mem_cons_self ..)
    calc digitsFrom (s * 10 + d) ds
        < (s * 10 + d + 1) * 10 ^ ds.length := ih (fun k hk => hd k (List.mem_cons_of_mem _ hk)) _
      _ ≤ ((s + 1) * 10) * 10 ^ ds.length := Nat.mul_le_mul_right _ (by omega)
      _ = (s + 1) * 10 ^ (ds.length + 1) := by ring

/-- Digits before the point are all taken in while there are few of them. -/
theorem takeWhole_of_le (hd : ∀ d ∈ ds, d < 10) (h : (s + 1) * 10 ^ ds.length ≤ maxNat64 + 1) :
    takeWhole s ds = (digitsFrom s ds, 0) := by
  induction ds generalizing s with
  | nil => rfl
  | cons d ds ih =>
    have hlt := hd d (List.mem_cons_self ..)
    have hnext : (s * 10 + d + 1) * 10 ^ ds.length ≤ maxNat64 + 1 :=
      calc (s * 10 + d + 1) * 10 ^ ds.length
          ≤ ((s + 1) * 10) * 10 ^ ds.length := Nat.mul_le_mul_right _ (by omega)
        _ = (s + 1) * 10 ^ (ds.length + 1) := by ring
        _ ≤ maxNat64 + 1 := h
    have hfits : s * 10 + d ≤ maxNat64 := by
      have hone : 1 ≤ 10 ^ ds.length := Nat.one_le_pow _ _ (by decide)
      have hle := Nat.le_trans (Nat.le_mul_of_pos_right (s * 10 + d + 1) hone) hnext
      omega
    rw [takeWhole, if_pos hfits]
    exact ih (fun k hk => hd k (List.mem_cons_of_mem _ hk)) hnext

/-- Of the digits after the point so many are taken in, and the others dropped. -/
theorem takeFraction_spec (s : Nat) (e : ℤ) (ds : List Nat) :
    ∃ j ≤ ds.length, (takeFraction s e ds).2 = e - j ∧
      (takeFraction s e ds).1 * 10 ^ (ds.length - j) ≤ digitsFrom s ds ∧
      (s ≤ maxNat64 → (takeFraction s e ds).1 ≤ maxNat64) := by
  induction ds generalizing s e with
  | nil => exact ⟨0, Nat.le_refl _, (sub_zero e).symm, Nat.le_of_eq (Nat.mul_one s), id⟩
  | cons d ds ih =>
    rw [takeFraction]
    split
    · next hfits =>
      obtain ⟨j, hj, hplaces, hle, hmax⟩ := ih (s * 10 + d) (e - 1)
      refine ⟨j + 1, Nat.succ_le_succ hj, ?_, ?_, fun _ => hmax hfits⟩
      · rw [hplaces]
        push_cast
        ring
      · rwa [List.length_cons, Nat.add_sub_add_right]
    · exact ⟨0, Nat.zero_le _, (sub_zero e).symm, mul_pow_le_digitsFrom s (d :: ds), id⟩

/-- The first digit after the point is taken in if there is room for any. -/
theorem takeFraction_lt {d : Nat} (hd : d < 10) (hs : s * 10 + 9 ≤ maxNat64) (e : ℤ) (ds : List Nat) :
    (takeFraction s e (d :: ds)).2 < e := by
  obtain ⟨j, -, hplaces, -⟩ := takeFraction_spec (s * 10 + d) (e - 1) ds
  rw [takeFraction, if_pos (by omega), hplaces]
  omega

/-! ## Powers of ten -/

theorem cast_pow_ten (k : Nat) : ((Nat.pow 10 k : Nat) : ℚ) = 10 ^ (k : ℤ) := by
  rw [Nat.pow_eq, zpow_natCast]
  push_cast
  rfl

theorem two_zpow_lt_ten_zpow : (2 : ℚ) ^ (1024 : ℤ) < 10 ^ (309 : ℤ) := by
  have h : (2 : Nat) ^ 1024 < 10 ^ 309 := by decide +kernel
  have hcast : ((2 ^ 1024 : Nat) : ℚ) < ((10 ^ 309 : Nat) : ℚ) := Nat.cast_lt.2 h
  rwa [Nat.cast_pow, Nat.cast_pow] at hcast

theorem pow_ten_lt_overflow (hk : k ≤ 308) : ((Nat.pow 10 k : Nat) : ℚ) < overflow := by
  have h : 10 ^ 308 < (2 ^ 53 - 1) * 2 ^ 971 := by decide +kernel
  have hmono : ∀ top, k ≤ top → 10 ^ k ≤ 10 ^ top := fun _ => Nat.pow_le_pow_right (by decide)
  have hcast : ((10 ^ k : Nat) : ℚ) < (((2 ^ 53 - 1) * 2 ^ 971 : Nat) : ℚ) :=
    Nat.cast_lt.2 (Nat.lt_of_le_of_lt (hmono 308 hk) h)
  rw [Nat.pow_eq]
  refine hcast.trans_le ?_
  rw [Nat.cast_mul, Nat.cast_pow]
  exact mul_le_mul_of_nonneg_right (by norm_num) (two_zpow_pos 971).le

theorem cast_lt_overflow (h : n ≤ maxNat64) : (n : ℚ) < overflow := by
  refine lt_of_le_of_lt ?_ Binary64.lt_overflow
  have hmax : n ≤ 2 ^ 64 := Nat.le_trans h (by decide)
  exact_mod_cast hmax

theorem value_magnitudeOfNat_le (h : (n : ℚ) < overflow) :
    value (magnitudeOfNat n) ≤ n * (1 + 1 / 2 ^ 53) := by
  rcases Nat.eq_zero_or_pos n with rfl | hn
  · have hzero : magnitudeOfNat 0 = 0 := Binary64.magnitudeOfRatio_zero 1
    rw [hzero, Binary64.value_zero, Nat.cast_zero, zero_mul]
  · exact (Binary64.magnitudeOfNat_spec hn h).1

theorem four_le_value_pow (hpos : 0 < k) (hk : k ≤ 308) : 4 ≤ value (magnitudeOfNat (Nat.pow 10 k)) := by
  have hspec := (Binary64.magnitudeOfNat_spec (n := Nat.pow 10 k) (Nat.pow_pos (by decide))
    (pow_ten_lt_overflow hk)).2
  have hten : ((10 : Nat) : ℚ) ≤ (Nat.pow 10 k : Nat) :=
    Nat.cast_le.2 (Nat.le_self_pow (Nat.ne_of_gt hpos) 10)
  rw [Nat.cast_ofNat] at hten
  linarith

/-! ## Scaling stays in range -/

/-- Scaling down never leaves the range. -/
theorem isSome_scaleMagnitude_of_neg (fuel magnitude : Nat) (he : e < 0) :
    (scaleMagnitude fuel magnitude e).isSome = true := by
  induction fuel generalizing magnitude e with
  | zero => rfl
  | succ fuel ih =>
    rw [scaleMagnitude]
    dsimp only
    rw [if_neg (by omega)]
    split
    · rfl
    split
    · rfl
    rw [if_neg (by omega)]
    exact ih _ (by omega)

theorem isSome_scaleMagnitude (fuel : Nat) (hk : k ≤ 308)
    (h : mulMagnitude magnitude (magnitudeOfNat (Nat.pow 10 k)) < infiniteMagnitude) :
    (scaleMagnitude (fuel + 1) magnitude k).isSome = true := by
  rw [scaleMagnitude]
  dsimp only
  rw [if_pos ⟨Int.natCast_nonneg k, by exact_mod_cast hk⟩, Int.toNat_natCast, if_neg (Nat.not_le.2 h)]
  rfl

/-- What is scaled is in range. -/
theorem scaleMagnitude_lt (fuel : Nat) {result : Nat} (hfinite : magnitude < infiniteMagnitude)
    (hvalue : value magnitude ≤ 2 ^ 65) (h : scaleMagnitude fuel magnitude e = some result) :
    result < infiniteMagnitude := by
  induction fuel generalizing magnitude e with
  | zero =>
    cases h
    exact hfinite
  | succ fuel ih =>
    rw [scaleMagnitude] at h
    dsimp only at h
    split at h
    · split at h
      · cases h
      · next hproduct =>
        cases h
        exact Nat.not_le.1 hproduct
    split at h
    · next hneg =>
      cases h
      have hpower := four_le_value_pow (k := (-e).toNat) (by omega) (by omega)
      exact (Binary64.divMagnitude_spec hvalue hpower).1
    split at h
    · cases h
      decide
    split at h
    · cases h
    · obtain ⟨hlt, hle⟩ := Binary64.divMagnitude_spec hvalue (four_le_value_pow (k := 308) (by decide)
        (by decide))
      exact ih hlt hle h

/-! ## Literals -/

/-- The significand of a literal, and its place. -/
def Literal.taken (l : Literal) : Nat × ℤ :=
  takeFraction (takeWhole 0 l.whole).1 (takeWhole 0 l.whole).2 l.fraction

/-- The magnitude of a significand with an exponent. -/
def scaledBy (significand : Nat) (places : ℤ) : Option (Bool × List Nat) → Option Nat
  | none => scaleMagnitude 8 (magnitudeOfNat significand) places
  | some (negative, digits) =>
    if maxExponent < digitsValue digits then if significand ≠ 0 ∧ !negative then none else some 0
    else
      scaleMagnitude 8 (magnitudeOfNat significand)
        (if negative then places - digitsValue digits else places + digitsValue digits)

theorem Literal.float?_eq (l : Literal) :
    l.float? = (scaledBy l.taken.1 l.taken.2 l.exponent).map (Binary64.ofMagnitude l.negative) := by
  unfold Literal.float? Literal.taken
  rcases takeWhole 0 l.whole with ⟨whole, dropped⟩
  dsimp only
  rcases takeFraction whole dropped l.fraction with ⟨significand, places⟩
  unfold scaledBy
  dsimp only
  have hmap : ∀ o : Option Nat, (o >>= fun m => pure (Binary64.ofMagnitude l.negative m)) =
      o.map (Binary64.ofMagnitude l.negative) := fun o => by cases o <;> rfl
  rcases l.exponent with _ | ⟨negative, digits⟩
  · exact hmap _
  · dsimp only
    split
    · split <;> rfl
    · exact hmap _

theorem scaledBy_lt {exponent : Option (Bool × List Nat)} {result : Nat} (hs : s ≤ maxNat64)
    (h : scaledBy s e exponent = some result) : result < infiniteMagnitude := by
  have hoverflow := cast_lt_overflow hs
  have hfinite : magnitudeOfNat s < infiniteMagnitude :=
    Binary64.magnitudeOfRatio_lt Nat.one_pos (by rwa [Nat.cast_one, div_one])
  have hvalue : value (magnitudeOfNat s) ≤ 2 ^ 65 := by
    have hmax : (s : ℚ) ≤ 2 ^ 64 := by
      exact_mod_cast Nat.le_trans hs (by decide : maxNat64 ≤ 2 ^ 64)
    have hle := value_magnitudeOfNat_le hoverflow
    linarith
  cases exponent with
  | none => exact scaleMagnitude_lt 8 hfinite hvalue h
  | some signed =>
    obtain ⟨negative, digits⟩ := signed
    rw [scaledBy] at h
    split at h
    · split at h
      · cases h
      · cases h
        decide
    · exact scaleMagnitude_lt 8 hfinite hvalue h

theorem takeWhole_le (hs : s ≤ maxNat64) (ds : List Nat) : (takeWhole s ds).1 ≤ maxNat64 := by
  induction ds generalizing s with
  | nil => exact hs
  | cons d ds ih =>
    rw [takeWhole]
    split
    · next hfits => exact ih hfits
    · exact hs

theorem taken_le (l : Literal) : l.taken.1 ≤ maxNat64 := by
  obtain ⟨j, -, -, -, hmax⟩ := takeFraction_spec (takeWhole 0 l.whole).1 (takeWhole 0 l.whole).2 l.fraction
  exact hmax (takeWhole_le (Nat.zero_le _) l.whole)

theorem magnitude_ofMagnitude (negative : Bool) (h : m < infiniteMagnitude) :
    (Binary64.ofMagnitude negative m).magnitude = m := by
  have hsign : Binary64.signBit = 9223372036854775808 := rfl
  have hinfinite : infiniteMagnitude = 9218868437227405312 := rfl
  rw [hinfinite] at h
  unfold Binary64.magnitude Binary64.ofMagnitude
  rw [hsign, UInt64.toNat_ofNat']
  cases negative
  · simp only [Bool.false_eq_true, if_false]
    omega
  · simp only [if_true]
    omega

/-- A literal is decoded as an integer of 64 bits, signed or not, or as a floating-point number. -/
theorem Literal.number?_cases (l : Literal) :
    (∃ i : Int, l.number? = some (.int i) ∧ -0x8000000000000000 ≤ i ∧ i ≤ maxNat64) ∨
      l.number? = l.float?.map .float := by
  have hmax : maxNat64 = 18446744073709551615 := rfl
  unfold Literal.number?
  dsimp only
  split
  · split
    · split
      · exact .inl ⟨_, rfl, by omega, by omega⟩
      · exact .inr rfl
    · split
      · exact .inl ⟨_, rfl, by omega, by omega⟩
      · exact .inr rfl
  · exact .inr rfl

/-- **What is decoded is in range**, whatever its text is. -/
theorem finite_of_number? {n : Number} (h : l.number? = some n) : n.Finite := by
  rcases l.number?_cases with ⟨i, hint, -⟩ | hfloat
  · obtain rfl := Option.some.inj (hint.symm.trans h)
    trivial
  · rw [hfloat, Literal.float?_eq] at h
    obtain ⟨x, hx, rfl⟩ := Option.map_eq_some_iff.1 h
    obtain ⟨m, hm, rfl⟩ := Option.map_eq_some_iff.1 hx
    have hlt := scaledBy_lt (taken_le l) hm
    show (Binary64.ofMagnitude l.negative m).magnitude < infiniteMagnitude
    rwa [magnitude_ofMagnitude l.negative hlt]

/-! ## Decimals that were written -/

/-- A product of the roundings of a significand and a power of ten is in range if they are enough
below the overflow. -/
theorem mulMagnitude_lt_of_le (hs : s ≤ maxNat64) (hk : k ≤ 308)
    (h : (s * 10 ^ (k : ℤ) : ℚ) * (1 + 1 / 2 ^ 53) ^ 2 < overflow) :
    mulMagnitude (magnitudeOfNat s) (magnitudeOfNat (Nat.pow 10 k)) < infiniteMagnitude := by
  have hsig := value_magnitudeOfNat_le (cast_lt_overflow hs)
  have hpower := value_magnitudeOfNat_le (pow_ten_lt_overflow hk)
  rw [cast_pow_ten] at hpower
  refine Binary64.mulMagnitude_lt (lt_of_le_of_lt ?_ h)
  calc value (magnitudeOfNat s) * value (magnitudeOfNat (Nat.pow 10 k))
      ≤ (s * (1 + 1 / 2 ^ 53)) * (10 ^ (k : ℤ) * (1 + 1 / 2 ^ 53)) :=
        mul_le_mul hsig hpower (Binary64.value_nonneg _) (by positivity)
    _ = (s * 10 ^ (k : ℤ)) * (1 + 1 / 2 ^ 53) ^ 2 := by ring

/-- The first digit of a decimal stands at the place of its exponent. -/
theorem pow_le_value {d : Decimal.Digits} (hd : 0 < d.digits) :
    (10 : ℚ) ^ (d.exponent + (Text.digitsOf 10 d.digits).length - 1) ≤ d.value := by
  have hcount : Decimal.digitCount d.digits = (Text.digitsOf 10 d.digits).length := by
    unfold Decimal.digitCount
    rw [Text.toDigits_eq_map (by decide), List.length_map]
  have hfirst := Decimal.pow_digitCount_le hd
  rw [hcount] at hfirst
  have hsplit : d.exponent + (Text.digitsOf 10 d.digits).length - 1 =
      ((Text.digitsOf 10 d.digits).length - 1 : ℤ) + d.exponent := by ring
  rw [hsplit, zpow_add₀ (by norm_num)]
  exact mul_le_mul_of_nonneg_right hfirst (Decimal.ten_zpow_pos _).le

theorem isSome_float? (l : Literal) :
    l.float?.isSome = (scaledBy l.taken.1 l.taken.2 l.exponent).isSome := by
  rw [Literal.float?_eq, Option.isSome_map]

/-- A literal with a fraction and few digits before the point is in range. -/
theorem isSome_float?_of_fraction {negative : Bool} {whole : List Nat} {d : Nat}
    (hwhole : ∀ k ∈ whole, k < 10) (hlength : whole.length ≤ 16) (hd : d < 10) :
    (Literal.float? ⟨negative, whole, d :: ds, none⟩).isSome = true := by
  have hpow : (0 + 1) * 10 ^ whole.length ≤ 10 ^ 16 := by
    rw [Nat.zero_add, Nat.one_mul]
    exact Nat.pow_le_pow_right (by decide) hlength
  have htaken := takeWhole_of_le hwhole (hpow.trans (by decide))
  have hlt := digitsFrom_lt hwhole 0
  have hroom : digitsFrom 0 whole * 10 + 9 ≤ maxNat64 := by
    have : maxNat64 = 18446744073709551615 := rfl
    omega
  rw [isSome_float?]
  unfold Literal.taken
  dsimp only
  rw [htaken]
  exact isSome_scaleMagnitude_of_neg 8 _ (takeFraction_lt hd hroom 0 ds)

/-- Of the digits of a number, the first before the point, the first few are taken in. -/
theorem exists_taken {n c : Nat} (hds : Text.digitsOf 10 n = c :: ds) (negative : Bool)
    (exponent : Option (Bool × List Nat)) :
    ∃ s j : Nat, Literal.taken ⟨negative, [c], ds, exponent⟩ = (s, -(j : ℤ)) ∧ s ≤ maxNat64 ∧ j ≤ ds.length ∧
      s * 10 ^ (ds.length - j) ≤ n := by
  have hc : c < 10 := lt_of_mem_digitsOf_ten (hds ▸ List.mem_cons_self ..)
  have hwhole : takeWhole 0 [c] = (0 * 10 + c, 0) :=
    takeWhole_of_le (fun k hk => List.mem_singleton.1 hk ▸ hc)
      (show (0 + 1) * 10 ^ 1 ≤ maxNat64 + 1 by decide)
  obtain ⟨j, hj, hplaces, hle, hmax⟩ := takeFraction_spec (0 * 10 + c) 0 ds
  have hdigits : digitsFrom (0 * 10 + c) ds = n := by
    have hall := digitsValue_digitsOf n
    rwa [hds] at hall
  refine ⟨(takeFraction (0 * 10 + c) 0 ds).1, j, ?_, hmax ?_, hj, hdigits ▸ hle⟩
  · unfold Literal.taken
    dsimp only
    rw [hwhole]
    exact Prod.ext rfl (hplaces.trans (zero_sub _))
  · rw [Nat.zero_mul, Nat.zero_add]
    exact Nat.le_trans hc.le (by decide)

/-- A literal with an exponent is in range if all products that its digits may lead to are. -/
theorem isSome_float?_of_exponent {negative : Bool} {d : Decimal.Digits} {c : Nat} (hd : 0 < d.digits)
    (hds : Text.digitsOf 10 d.digits = c :: ds)
    (he : e = d.exponent + (Text.digitsOf 10 d.digits).length - 1)
    (hvalue : d.value < 10 ^ (309 : ℤ))
    (hproduct : ∀ s k : Nat, s ≤ maxNat64 → k ≤ 308 → (s * 10 ^ (k : ℤ) : ℚ) ≤ d.value →
      mulMagnitude (magnitudeOfNat s) (magnitudeOfNat (Nat.pow 10 k)) < infiniteMagnitude) :
    (Literal.float? ⟨negative, [c], ds, some (decide (e < 0), Text.digitsOf 10 e.natAbs)⟩).isSome =
      true := by
  obtain ⟨s, j, htaken, hfits, hj, hle⟩ :=
    exists_taken hds negative (some (decide (e < 0), Text.digitsOf 10 e.natAbs))
  rw [isSome_float?, htaken, scaledBy, digitsValue_digitsOf]
  by_cases hneg : e < 0
  · rw [decide_eq_true hneg]
    split
    · rw [if_neg (by simp)]
      rfl
    · exact isSome_scaleMagnitude_of_neg 8 _ (by rw [if_pos rfl]; omega)
  · -- the exponent is no more than that of the greatest number
    have hexponent : e < 309 := by
      have hpow := lt_of_le_of_lt (pow_le_value hd) hvalue
      rw [← he] at hpow
      exact (zpow_lt_zpow_iff_right₀ (by norm_num)).1 hpow
    have hmaxExponent : maxExponent = 2147483647 := rfl
    rw [if_neg (by omega), decide_eq_false hneg, if_neg Bool.false_ne_true]
    by_cases hlow : -(j : ℤ) + e.natAbs < 0
    · exact isSome_scaleMagnitude_of_neg 8 _ hlow
    · obtain ⟨k, hk⟩ := Int.eq_ofNat_of_zero_le (not_lt.1 hlow)
      rw [hk]
      refine isSome_scaleMagnitude 7 (by omega) (hproduct s k hfits (by omega) ?_)
      have hplace : (k : ℤ) = ((ds.length - j : Nat) : ℤ) + d.exponent := by
        rw [hds, List.length_cons] at he
        omega
      rw [hplace, zpow_add₀ (by norm_num), ← mul_assoc, zpow_natCast]
      refine mul_le_mul_of_nonneg_right ?_ (Decimal.ten_zpow_pos _).le
      exact_mod_cast hle

/-- **A decimal in the layout of numbers is in range** if all products that its digits may lead to are. -/
theorem isSome_float?_literalOfDigits (negative : Bool) {d : Decimal.Digits} (hd : 0 < d.digits)
    (hvalue : d.value < 10 ^ (309 : ℤ))
    (hproduct : ∀ s k : Nat, s ≤ maxNat64 → k ≤ 308 → (s * 10 ^ (k : ℤ) : ℚ) ≤ d.value →
      mulMagnitude (magnitudeOfNat s) (magnitudeOfNat (Nat.pow 10 k)) < infiniteMagnitude) :
    (literalOfDigits numberLayout negative d).float?.isSome = true := by
  rcases literalOfDigits_cases numberLayout negative hd with
    ⟨whole, f, fs, heq, hlength, -, hwhole, -, hfraction⟩ | ⟨c, cs, e, hds, he, heq⟩ <;> rw [heq]
  · exact isSome_float?_of_fraction hwhole hlength (hfraction f (List.mem_cons_self ..))
  · exact isSome_float?_of_exponent hd hds he hvalue hproduct

/-- Half a place above a number, and two roundings, are below the overflow unless the number is one of
the greatest. -/
theorem rounded_lt_overflow (hm : m < 2 ^ 53) (hq : q ≤ 971) (htop : q = 971 → m + 9 ≤ 2 ^ 53) :
    ((m + 1 / 2) * 2 ^ q : ℚ) * (1 + 1 / 2 ^ 53) ^ 2 < overflow := by
  have hpos := two_zpow_pos 971
  have hbound : ((m + 1 / 2) * 2 ^ q : ℚ) ≤ (2 ^ 53 - 17 / 2) * 2 ^ (971 : ℤ) := by
    rcases eq_or_lt_of_le hq with rfl | hlt
    · have hm' : (m + 9 : ℚ) ≤ 2 ^ 53 := by exact_mod_cast htop rfl
      exact mul_le_mul_of_nonneg_right (by linarith) hpos.le
    · have hm' : (m + 1 : ℚ) ≤ 2 ^ 53 := by exact_mod_cast hm
      have hhalf : (2 : ℚ) ^ q ≤ 2 ^ (971 : ℤ) / 2 := by
        rw [le_div_iff₀ two_pos, ← zpow_add_one₀ two_ne_zero]
        exact two_zpow_le (by omega)
      calc ((m + 1 / 2) * 2 ^ q : ℚ) ≤ 2 ^ 53 * (2 ^ (971 : ℤ) / 2) :=
            mul_le_mul (by linarith) hhalf (two_zpow_pos q).le (by positivity)
        _ = 2 ^ 52 * 2 ^ (971 : ℤ) := by ring
        _ ≤ (2 ^ 53 - 17 / 2) * 2 ^ (971 : ℤ) := mul_le_mul_of_nonneg_right (by norm_num) hpos.le
  calc ((m + 1 / 2) * 2 ^ q : ℚ) * (1 + 1 / 2 ^ 53) ^ 2
      ≤ (2 ^ 53 - 17 / 2) * 2 ^ (971 : ℤ) * (1 + 1 / 2 ^ 53) ^ 2 :=
        mul_le_mul_of_nonneg_right hbound (by positivity)
    _ = ((2 ^ 53 - 17 / 2) * (1 + 1 / 2 ^ 53) ^ 2) * 2 ^ (971 : ℤ) := mul_right_comm _ _ _
    _ < overflow := mul_lt_mul_of_pos_right (by norm_num) hpos

/-- The eight greatest numbers, decoded one by one. -/
theorem isSome_float?_greatest : ∀ j < 8, ∀ negative : Bool,
    (literalOfDigits numberLayout negative
      (Decimal.shortest (infiniteMagnitude - 1 - j))).float?.isSome = true := by
  decide +kernel

/-- **A finite number is decoded from its text as some number.** -/
theorem isSome_float?_floatLiteral {x : Binary64} (h : x.magnitude < infiniteMagnitude) :
    (floatLiteral x).float?.isSome = true := by
  unfold floatLiteral
  split
  · exact isSome_float?_of_fraction (by decide) (by decide) (by decide)
  · next hzero =>
    obtain ⟨hm, -, hq, -, htop⟩ := Binary64.parts_spec h
    by_cases hnear : x.magnitude + 8 < infiniteMagnitude ∨ (Binary64.parts x.magnitude).2 ≠ 971
    · obtain ⟨hdigits, hvalue⟩ := Decimal.shortest_spec (Nat.pos_of_ne_zero hzero) h
      have hlt := rounded_lt_overflow hm hq fun hplace => by
        have := htop hplace
        omega
      have hpos : 0 ≤ (Decimal.shortest x.magnitude).value :=
        mul_nonneg (Nat.cast_nonneg _) (Decimal.ten_zpow_pos _).le
      refine isSome_float?_literalOfDigits _ hdigits ?_ fun s k hs hk hle => ?_
      · have hone : (1 : ℚ) ≤ (1 + 1 / 2 ^ 53) ^ 2 := by norm_num
        calc (Decimal.shortest x.magnitude).value
            ≤ (Decimal.shortest x.magnitude).value * (1 + 1 / 2 ^ 53) ^ 2 :=
              le_mul_of_one_le_right hpos hone
          _ ≤ _ := mul_le_mul_of_nonneg_right hvalue (by positivity)
          _ ≤ overflow := hlt.le
          _ ≤ 2 ^ 53 * 2 ^ (971 : ℤ) := Binary64.overflow_le
          _ = 2 ^ (1024 : ℤ) := by rw [← zpow_natCast, ← zpow_add₀ two_ne_zero]; rfl
          _ < 10 ^ (309 : ℤ) := two_zpow_lt_ten_zpow
      · refine mulMagnitude_lt_of_le hs hk (lt_of_le_of_lt ?_ hlt)
        exact mul_le_mul_of_nonneg_right (hle.trans hvalue) (by positivity)
    · obtain ⟨j, hj⟩ : ∃ j, x.magnitude = infiniteMagnitude - 1 - j := ⟨infiniteMagnitude - 1 - x.magnitude, by omega⟩
      rw [hj]
      exact isSome_float?_greatest j (by omega) x.isNegative

/-- A literal that is decoded as a floating-point number is decoded, if not as that. -/
theorem isSome_number? (h : l.float?.isSome = true) : l.number?.isSome = true := by
  rcases l.number?_cases with ⟨i, hint, -⟩ | hfloat
  · rw [hint]
    rfl
  · rwa [hfloat, Option.isSome_map]

end GatewayControl.Json
