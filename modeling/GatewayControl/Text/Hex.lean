import GatewayControl.Text.Bytes
import GatewayControl.Text.Quoted

/-!
# `GatewayControl.Text.Hex` -- bytes as pairs of base-sixteen digits

`encode` writes lower-case digits, `decode` reads both cases. A byte is put together again from its two
halves (`join_nibbles`), each of which is read back from its digit (`digitValue?_digit`).
-/

namespace GatewayControl.Text.Hex

/-- Why a text is not the hexadecimal form of bytes. -/
inductive Fault where
  | oddLength
  | badDigit (digit : UInt8) (position : Nat)
deriving DecidableEq

/-- The wording of a fault; a byte is shown as the character of its number. -/
def Fault.message : Fault → String
  | oddLength => "Odd number of digits"
  | badDigit d i => "Invalid character " ++ quotedChar (Char.ofNat d.toNat) ++ " at position " ++ toString i

/-- The digit of a number below sixteen. -/
def digit (n : UInt8) : UInt8 := if n < 10 then 48 + n else 87 + n

/-- The number that a digit of either case stands for. -/
def digitValue? (b : UInt8) : Option UInt8 :=
  if 48 ≤ b && b ≤ 57 then some (b - 48)
  else if 97 ≤ b && b ≤ 102 then some (b - 87)
  else if 65 ≤ b && b ≤ 70 then some (b - 55)
  else none

/-- Two digits for each byte. -/
def encode (bytes : Bytes) : Bytes := bytes.flatMap fun (b : UInt8) => [digit (b >>> 4), digit (b &&& 15)]

/-- The hexadecimal form of bytes as a text. -/
def text (bytes : Bytes) : String :=
  String.ofList ((encode bytes).map fun (b : UInt8) => Char.ofNat b.toNat)

/-- Reads pairs of digits; `i` is the position of the first. -/
def decodePairs (i : Nat) : Bytes → Except Fault Bytes
  | [] => .ok []
  | [_] => .error .oddLength
  | hi :: lo :: rest =>
    match digitValue? hi, digitValue? lo with
    | none, _ => .error (.badDigit hi i)
    | _, none => .error (.badDigit lo (i + 1))
    | some h, some l => (decodePairs (i + 2) rest).map ((h <<< 4 ||| l) :: ·)

/-- The bytes that a text of digits stands for; an odd number of digits is found before a wrong
one. -/
def decode (digits : Bytes) : Except Fault Bytes :=
  if digits.length % 2 = 1 then .error .oddLength else decodePairs 0 digits

/-- The digit of a number stands for it. -/
theorem digitValue?_digit (n : UInt8) (h : n < 16) : digitValue? (digit n) = some n := by
  have key : ∀ m : Fin 256, m < 16 → digitValue? (digit (UInt8.ofFin m)) = some (UInt8.ofFin m) := by
    decide +kernel
  exact key n.toFin h

/-- A byte is its upper half moved up, and its lower half. -/
theorem join_nibbles (b : UInt8) : (b >>> 4) <<< 4 ||| (b &&& 15) = b := by
  have key : ∀ m : Fin 256, (UInt8.ofFin m >>> 4) <<< 4 ||| (UInt8.ofFin m &&& 15) = UInt8.ofFin m := by
    decide +kernel
  exact key b.toFin

theorem nibbles_lt (b : UInt8) : b >>> 4 < 16 ∧ b &&& 15 < 16 := by
  have key : ∀ m : Fin 256, UInt8.ofFin m >>> 4 < 16 ∧ UInt8.ofFin m &&& 15 < 16 := by decide +kernel
  exact key b.toFin

theorem encode_cons (b : UInt8) (bytes : Bytes) :
    encode (b :: bytes) = digit (b >>> 4) :: digit (b &&& 15) :: encode bytes := rfl

end GatewayControl.Text.Hex
