import GatewayControl.Text.Bytes

/-!
# `GatewayControl.Text.Base64` -- bytes in the standard base64 alphabet, padded

Three bytes are written as four symbols; a last group of one or two bytes is filled up with `=`.
`decode` accepts the canonical form alone: full padding, and no bits set that no byte uses.
-/

namespace GatewayControl.Text.Base64

/-- Why a text is not the base64 form of bytes. -/
inductive Fault where
  | badSymbol (symbol : UInt8) (offset : Nat)
  | badLength (symbols : Nat)
  | badLastSymbol (symbol : UInt8) (offset : Nat)
  | badPadding
deriving DecidableEq

/-- The wording of a fault. -/
def Fault.message : Fault → String
  | badSymbol b i => "Invalid symbol " ++ toString b.toNat ++ ", offset " ++ toString i ++ "."
  | badLength n => "Invalid input length: " ++ toString n
  | badLastSymbol b i => "Invalid last symbol " ++ toString b.toNat ++ ", offset " ++ toString i ++ "."
  | badPadding => "Invalid padding"

/-- The padding symbol, `=`. -/
def pad : UInt8 := 61

/-- The symbol of a number below 64. -/
def symbol (n : UInt8) : UInt8 :=
  if n < 26 then 65 + n
  else if n < 52 then 71 + n
  else if n < 62 then n - 4
  else if n = 62 then 43
  else 47

/-- The number that a symbol stands for. -/
def value? (b : UInt8) : Option UInt8 :=
  if 65 ≤ b && b ≤ 90 then some (b - 65)
  else if 97 ≤ b && b ≤ 122 then some (b - 71)
  else if 48 ≤ b && b ≤ 57 then some (b + 4)
  else if b = 43 then some 62
  else if b = 47 then some 63
  else none

/-- Four symbols for each three bytes, the last group padded. -/
def encode : Bytes → Bytes
  | [] => []
  | [a] => [symbol (a >>> 2), symbol ((a &&& 3) <<< 4), pad, pad]
  | [a, b] => [symbol (a >>> 2), symbol ((a &&& 3) <<< 4 ||| b >>> 4), symbol ((b &&& 15) <<< 2), pad]
  | a :: b :: c :: rest =>
    symbol (a >>> 2) :: symbol ((a &&& 3) <<< 4 ||| b >>> 4)
      :: symbol ((b &&& 15) <<< 2 ||| c >>> 6) :: symbol (c &&& 63) :: encode rest

/-- The base64 form of bytes as a text. -/
def text (bytes : Bytes) : String :=
  String.ofList ((encode bytes).map fun b => Char.ofNat b.toNat)

/-- The numbers of the symbols of a last group, and how many padding symbols follow them. Padding
comes third at the earliest, and nothing but padding follows it. -/
def lastGroup (start : Nat) (numbers : List UInt8) (pads : Nat) :
    Bytes → Except Fault (List UInt8 × Nat)
  | [] => .ok (numbers, pads)
  | b :: rest =>
    let i := numbers.length + pads
    if b = pad then
      if i < 2 then .error (.badSymbol b (start + i)) else lastGroup start numbers (pads + 1) rest
    else if 0 < pads then .error (.badSymbol pad (start + numbers.length))
    else match value? b with
      | none => .error (.badSymbol b (start + i))
      | some n => lastGroup start (numbers ++ [n]) pads rest

/-- Reads the last group, of at most four symbols. -/
def decodeLast (start : Nat) (group : Bytes) : Except Fault Bytes :=
  if group.isEmpty then .ok []
  else match lastGroup start [] 0 group with
    | .error e => .error e
    | .ok (numbers, pads) =>
      if numbers.length < 2 then .error (.badLength (start + numbers.length))
      else if (pads + numbers.length) % 4 ≠ 0 then .error .badPadding
      else
        let unused := fun used spare =>
          if spare = (0 : UInt8) then .ok used
          else .error (.badLastSymbol (group.getD (numbers.length - 1) 0) (start + numbers.length - 1))
        match numbers with
        | [a, b] => unused [a <<< 2 ||| b >>> 4] (b &&& 15)
        | [a, b, c] => unused [a <<< 2 ||| b >>> 4, b <<< 4 ||| c >>> 2] (c &&& 3)
        | [a, b, c, d] => .ok [a <<< 2 ||| b >>> 4, b <<< 4 ||| c >>> 2, c <<< 6 ||| d]
        | _ => .error .badPadding

/-- Reads one group that is not the last: four symbols and no padding. -/
def decodeGroup (start : Nat) (a b c d : UInt8) : Except Fault Bytes :=
  match value? a, value? b, value? c, value? d with
  | none, _, _, _ => .error (.badSymbol a start)
  | _, none, _, _ => .error (.badSymbol b (start + 1))
  | _, _, none, _ => .error (.badSymbol c (start + 2))
  | _, _, _, none => .error (.badSymbol d (start + 3))
  | some a, some b, some c, some d => .ok [a <<< 2 ||| b >>> 4, b <<< 4 ||| c >>> 2, c <<< 6 ||| d]

/-- Reads group after group; the first four symbols are the last group if nothing follows them. -/
def decodeGroups (start : Nat) : Bytes → Except Fault Bytes
  | a :: b :: c :: d :: rest@(_ :: _) =>
    match decodeGroup start a b c d with
    | .error e => .error e
    | .ok bytes => (decodeGroups (start + 4) rest).map (bytes ++ ·)
  | last => decodeLast start last

/-- The bytes that a text of symbols stands for. A foreign byte that makes the length one more
than whole groups, such as a line end, is reported before any other fault. -/
def decode (symbols : Bytes) : Except Fault Bytes :=
  match symbols.getLast? with
  | some b =>
    if symbols.length % 4 = 1 && b != pad && (value? b).isNone then
      .error (.badSymbol b (symbols.length - 1))
    else decodeGroups 0 symbols
  | none => .ok []

end GatewayControl.Text.Base64
