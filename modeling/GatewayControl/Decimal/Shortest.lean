import GatewayControl.Decimal.Binary64

/-!
# `GatewayControl.Decimal.Shortest` -- the fewest digits that name a double-precision number

Every decimal inside the rounding interval of a number reads back as that number. `shortest` tries
1, 2, ... 17 digits and takes, of the two multiples of the last place next to the number, the one
that lies in the interval, and the nearer one if both do.
-/

namespace GatewayControl.Decimal

/-- A decimal: its digits as a number, and the exponent of its last digit. -/
structure Digits where
  digits : Nat
  exponent : Int
deriving DecidableEq, Repr

/-- How many decimal digits a number has; zero has one. -/
def digitCount (n : Nat) : Nat := (Nat.toDigits 10 n).length

/-- A ratio times a power of ten, as a ratio. -/
def scaleTen (num den : Nat) (e : Int) : Nat × Nat :=
  if 0 ≤ e then (num * Nat.pow 10 e.toNat, den) else (num, den * Nat.pow 10 (-e).toNat)

/-- The decimal without zeros at its end; `fuel` bounds how many are dropped. -/
def dropZeros : Nat → Digits → Digits
  | 0, d => d
  | fuel + 1, d =>
    if d.digits ≠ 0 ∧ d.digits % 10 = 0 then dropZeros fuel ⟨d.digits / 10, d.exponent + 1⟩ else d

/-- The bounds of the decimals that read back as `m * 2 ^ q`, over the denominator of the third
component, and the number itself over the same one. -/
def interval (m : Nat) (q : Int) : Nat × Nat × Nat × Nat :=
  -- below a power of two the next number is half as far away
  let low := if m = Nat.pow 2 52 ∧ -1074 < q then 4 * m - 1 else 4 * m - 2
  let (unit, den) := Binary64.scale 1 1 (q - 2)
  (low * unit, (4 * m + 2) * unit, den, 4 * m * unit)

/-- The exponent of the first digit of a positive ratio. -/
def firstPlace (num den : Nat) : Int :=
  let guess : Int := (digitCount num : Int) - (digitCount den : Int)
  let (n, d) := scaleTen num den (-guess)
  if n < d then guess - 1 else guess

/-- The decimal with its last digit at place `e` that reads back, the nearer one if two do. -/
def atPlace (m : Nat) (q : Int) (e : Int) : Option Digits :=
  let (low, high, den, value) := interval m q
  let (v, d) := scaleTen value den (-e)
  let (lo, _) := scaleTen low den (-e)
  let (hi, _) := scaleTen high den (-e)
  let inside := fun k : Nat =>
    if m % 2 = 0 then decide (lo ≤ k * d ∧ k * d ≤ hi) else decide (lo < k * d ∧ k * d < hi)
  let below := v / d
  let above := below + 1
  match decide (0 < below) && inside below, inside above with
  | true, true =>
    let down := v - below * d
    let up := above * d - v
    if down < up ∨ (down = up ∧ below % 2 = 0) then some ⟨below, e⟩ else some ⟨above, e⟩
  | true, false => some ⟨below, e⟩
  | false, true => some ⟨above, e⟩
  | false, false => none

/-- The fewest digits that read back as `m * 2 ^ q`, for positive `m`; `fuel` more digits are
tried from place `e` down. -/
def searchDown (m : Nat) (q : Int) : Nat → Int → Digits
  | 0, e => ⟨0, e⟩
  | fuel + 1, e =>
    match atPlace m q e with
    | some d => dropZeros 20 d
    | none => searchDown m q fuel (e - 1)

/-- The shortest decimal of a positive finite magnitude. -/
def shortest (magnitude : Nat) : Digits :=
  let (m, q) := Binary64.parts magnitude
  let (num, den) := Binary64.scale m 1 q
  searchDown m q 18 (firstPlace num den)

/-- Where positional notation ends, and how an exponent is written. -/
structure Layout where
  /-- The least exponent of the first digit that is written positionally. -/
  least : Int
  /-- The greatest exponent of the first digit that is written positionally. -/
  greatest : Int
  /-- A sign stands before an exponent that is not negative. -/
  plusSign : Bool

/-- The digits of a decimal laid out as a text. -/
def Layout.layOut (layout : Layout) (d : Digits) : List Char :=
  let ds := Nat.toDigits 10 d.digits
  let e : Int := d.exponent + ds.length - 1
  if layout.least ≤ e ∧ e ≤ layout.greatest then
    if e < 0 then ['0', '.'] ++ List.replicate (-e - 1).toNat '0' ++ ds
    else
      let whole := (e + 1).toNat
      let padded := ds ++ List.replicate (whole - ds.length) '0'
      let rest := padded.drop whole
      padded.take whole ++ '.' :: (if rest.isEmpty then ['0'] else rest)
  else
    let sign := if e < 0 then ['-'] else if layout.plusSign then ['+'] else []
    let mantissa := match ds with
      | [] => []
      | [c] => [c]
      | c :: rest => c :: '.' :: rest
    mantissa ++ 'e' :: sign ++ Nat.toDigits 10 e.natAbs

/-- The text of a finite number in its fewest digits. -/
def Layout.render (layout : Layout) (x : Binary64) : List Char :=
  let sign := if x.isNegative then ['-'] else []
  if x.magnitude = 0 then sign ++ ['0', '.', '0']
  else sign ++ layout.layOut (shortest x.magnitude)

end GatewayControl.Decimal
