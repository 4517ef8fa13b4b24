/-!
# `GatewayControl.Decimal.Binary64` -- double-precision numbers, exactly

A number is kept as the 64 bits of its interchange format. A finite magnitude is `m * 2 ^ q` for
natural `m` and integer `q` (`parts`); the rounding of a positive ratio to the nearest number, ties
to even, is `magnitudeOfRatio`, computed with natural numbers alone. Products and quotients round
the exact result.
-/

namespace GatewayControl

/-- The 64 bits of a double-precision number. -/
structure Binary64 where
  bits : UInt64
deriving DecidableEq, Repr

namespace Binary64

/-- The bit of the sign. -/
def signBit : Nat := Nat.pow 2 63

/-- The bits of infinity. -/
def infiniteMagnitude : Nat := 2047 * Nat.pow 2 52

/-- The number is below zero or is negative zero. -/
def isNegative (x : Binary64) : Bool := signBit ≤ x.bits.toNat

/-- The bits without the sign. -/
def magnitude (x : Binary64) : Nat := x.bits.toNat % signBit

/-- The number with these bits and this sign. -/
def ofMagnitude (negative : Bool) (magnitude : Nat) : Binary64 :=
  ⟨UInt64.ofNat (if negative then signBit + magnitude else magnitude)⟩

/-- `m` and `q` such that a finite magnitude is `m * 2 ^ q`. -/
def parts (magnitude : Nat) : Nat × Int :=
  let exponent : Nat := magnitude / Nat.pow 2 52
  let fraction : Nat := magnitude % Nat.pow 2 52
  if exponent = 0 then (fraction, -1074) else (Nat.pow 2 52 + fraction, (exponent : Int) - 1075)

/-- A ratio times a power of two, as a ratio. -/
def scale (num den : Nat) (q : Int) : Nat × Nat :=
  if 0 ≤ q then (num * Nat.pow 2 q.toNat, den) else (num, den * Nat.pow 2 (-q).toNat)

/-- The quotient rounded to the nearest natural number, ties to even. -/
def roundDiv (num den : Nat) : Nat :=
  let quotient := num / den
  let twice := 2 * (num % den)
  if twice < den then quotient
  else if den < twice then quotient + 1
  else if quotient % 2 = 0 then quotient else quotient + 1

/-- The exponent of the last place of the number nearest to a positive ratio. -/
def lastPlace (num den : Nat) : Int :=
  let guess : Int := (Nat.log2 num : Int) - (Nat.log2 den : Int) - 52
  let (n, d) := scale num den (-guess)
  -- the quotient has 53 bits unless the guess was one too many
  let q := if n < d * Nat.pow 2 52 then guess - 1 else guess
  if q < -1074 then -1074 else q

/-- The magnitude nearest to a ratio, ties to even; infinity if it is too large. -/
def magnitudeOfRatio (num den : Nat) : Nat :=
  if num = 0 then 0
  else
    let q := lastPlace num den
    let (n, d) := scale num den (-q)
    -- the leading bit of the quotient adds one to the exponent, and so does a carry
    let bits := (q + 1074).toNat * Nat.pow 2 52 + roundDiv n d
    if infiniteMagnitude ≤ bits then infiniteMagnitude else bits

/-- The magnitude nearest to a natural number. -/
def magnitudeOfNat (n : Nat) : Nat := magnitudeOfRatio n 1

/-- The rounded product of two finite magnitudes. -/
def mulMagnitude (a b : Nat) : Nat :=
  let (m, p) := parts a
  let (n, q) := parts b
  let (num, den) := scale (m * n) 1 (p + q)
  magnitudeOfRatio num den

/-- The rounded quotient of two finite magnitudes, the second not zero. -/
def divMagnitude (a b : Nat) : Nat :=
  let (m, p) := parts a
  let (n, q) := parts b
  let (num, den) := scale m n (p - q)
  magnitudeOfRatio num den

/-- Equality as numbers: the two zeros are one. -/
def same (x y : Binary64) : Bool := x == y || (x.magnitude == 0 && y.magnitude == 0)

end Binary64

end GatewayControl
