import GatewayControl.Text.Bytes

/-!
# `GatewayControl.Net.Percent` -- percent-encoding

A character outside the allowed set is replaced by its UTF-8 bytes, each as `%` and two upper-case
digits of base sixteen; non-ASCII characters are always replaced.
-/

namespace GatewayControl.Percent

/-- A digit of base sixteen, in upper case. -/
def digit (n : Nat) : Char := if n < 10 then Char.ofNat (48 + n) else Char.ofNat (55 + n)

/-- A byte as `%` and two digits. -/
def encodeByte (b : UInt8) : List Char := ['%', digit (b.toNat / 16), digit (b.toNat % 16)]

/-- A character, replaced if it is to be `escaped`. -/
def encodeChar (escaped : Char → Bool) (c : Char) : List Char :=
  if 0x7f ≤ c.toNat || c.toNat < 0x20 || escaped c then
    (String.utf8EncodeChar c).flatMap encodeByte
  else [c]

/-- A text with the `escaped` characters replaced, and all control and non-ASCII characters. -/
def encode (escaped : Char → Bool) (cs : List Char) : List Char := cs.flatMap (encodeChar escaped)

/-- The number of a digit of base sixteen. -/
def value? (c : Char) : Option Nat :=
  if c.isDigit then some (c.toNat - 48)
  else if 'a' ≤ c ∧ c ≤ 'f' then some (c.toNat - 87)
  else if 'A' ≤ c ∧ c ≤ 'F' then some (c.toNat - 55)
  else none

/-- The bytes of a text in which `%` and two digits stand for a byte. -/
def decode : List Char → Bytes
  | [] => []
  | '%' :: a :: b :: rest =>
    match value? a, value? b with
    | some h, some l => (h * 16 + l).toUInt8 :: decode rest
    | _, _ => 37 :: decode (a :: b :: rest)
  | c :: rest => String.utf8EncodeChar c ++ decode rest

end GatewayControl.Percent
