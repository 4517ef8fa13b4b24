import GatewayControl.Json.Value

/-!
# `GatewayControl.Json.Tree` -- reading JSON text

Reading goes in two steps. `Tree.read?` checks the grammar and yields a tree whose strings and
numbers are still spelled out. `Tree.value?` turns a tree into a value: it decodes escapes, refuses
unpaired surrogates, bytes that are no UTF-8, numbers beyond the double-precision range, and
containers nested too deeply. A record reads only the fields it knows, so what stands in any other
field needs to be grammatical and no more.
-/

namespace GatewayControl.Json

/-- A part of a string between quotes: a byte that stands for itself, or a `\u` escape. -/
inductive Piece where
  | byte (b : UInt8)
  | unit (n : Nat)
deriving DecidableEq, Repr

/-- A number as it is spelled: its digits before and after the point, and its exponent. -/
structure Literal where
  negative : Bool
  whole : List Nat
  fraction : List Nat
  exponent : Option (Bool × List Nat)
deriving DecidableEq, Repr

/-- JSON text whose strings and numbers are still spelled out. -/
inductive Tree where
  | null
  | bool (b : Bool)
  | number (literal : Literal)
  | string (pieces : List Piece)
  | array (items : List Tree)
  | object (fields : List (List Piece × Tree))
deriving Repr, Inhabited

/-- How many containers may stand inside each other. -/
def maxDepth : Nat := 127

/-! ## The grammar -/

/-- The text without the blanks at its start. -/
def skipBlanks (bs : Bytes) : Bytes := bs.dropWhile fun b => b = 32 || b = 10 || b = 9 || b = 13

/-- The text after a word that it starts with. -/
def afterWord (word : String) (bs : Bytes) : Option Bytes :=
  let w := Bytes.ofText word
  if w.isPrefixOf bs then some (bs.drop w.length) else none

/-- The byte is a decimal digit. -/
def isDigit (b : UInt8) : Bool := 48 ≤ b && b ≤ 57

/-- The digits at the start of a text, and what follows them. -/
def readDigits (bs : Bytes) : List Nat × Bytes :=
  ((bs.takeWhile isDigit).map fun b => b.toNat - 48, bs.dropWhile isDigit)

/-- The number that a digit of base sixteen stands for. -/
def hexValue? (b : UInt8) : Option Nat :=
  if 48 ≤ b && b ≤ 57 then some (b.toNat - 48)
  else if 97 ≤ b && b ≤ 102 then some (b.toNat - 87)
  else if 65 ≤ b && b ≤ 70 then some (b.toNat - 55)
  else none

/-- The byte that a backslash and a letter stand for. -/
def shortEscape? (b : UInt8) : Option UInt8 :=
  if b = 34 then some 34
  else if b = 92 then some 92
  else if b = 47 then some 47
  else if b = 98 then some 8
  else if b = 102 then some 12
  else if b = 110 then some 10
  else if b = 114 then some 13
  else if b = 116 then some 9
  else none

/-- The pieces of a string up to its closing quote, and what follows the quote. -/
def readString : Bytes → Option (List Piece × Bytes)
  | [] => none
  | 34 :: rest => some ([], rest)
  | 92 :: 117 :: a :: b :: c :: d :: rest => do
    let a ← hexValue? a
    let b ← hexValue? b
    let c ← hexValue? c
    let d ← hexValue? d
    let (pieces, rest) ← readString rest
    return (.unit (((a * 16 + b) * 16 + c) * 16 + d) :: pieces, rest)
  | 92 :: e :: rest => do
    let b ← shortEscape? e
    let (pieces, rest) ← readString rest
    return (.byte b :: pieces, rest)
  | b :: rest =>
    if b < 32 || b = 92 then none
    else do
      let (pieces, rest) ← readString rest
      return (.byte b :: pieces, rest)

/-- A string ends at its quote. -/
theorem readString_end (rest : Bytes) : readString (34 :: rest) = some ([], rest) := by
  rw [readString]

/-- The digits after a point, if there is one. -/
def readFraction : Bytes → Option (List Nat × Bytes)
  | 46 :: rest =>
    match readDigits rest with
    | ([], _) => none
    | (digits, rest) => some (digits, rest)
  | rest => some ([], rest)

/-- The exponent, if there is one. -/
def readExponent : Bytes → Option (Option (Bool × List Nat) × Bytes)
  | [] => some (none, [])
  | e :: rest =>
    if e = 101 || e = 69 then
      let (negative, rest) := match rest with
        | 43 :: rest => (false, rest)
        | 45 :: rest => (true, rest)
        | rest => (false, rest)
      match readDigits rest with
      | ([], _) => none
      | (digits, rest) => some (some (negative, digits), rest)
    else some (none, e :: rest)

/-- A number after its sign: no zero stands before another digit. -/
def readMagnitude (negative : Bool) (bs : Bytes) : Option (Literal × Bytes) :=
  match readDigits bs with
  | ([], _) => none
  | (0 :: _ :: _, _) => none
  | (whole, rest) => do
    let (fraction, rest) ← readFraction rest
    let (exponent, rest) ← readExponent rest
    return (⟨negative, whole, fraction, exponent⟩, rest)

/-- A number. -/
def readNumber : Bytes → Option (Literal × Bytes)
  | 45 :: rest => readMagnitude true rest
  | rest => readMagnitude false rest

mutual

/-- A value, and what follows it; each call in a chain uses one unit of `fuel`. -/
def readTree : Nat → Bytes → Option (Tree × Bytes)
  | 0, _ => none
  | fuel + 1, bs =>
    match skipBlanks bs with
    | [] => none
    | 34 :: rest => (readString rest).map fun (pieces, rest) => (.string pieces, rest)
    | 91 :: rest =>
      match skipBlanks rest with
      | 93 :: rest => some (.array [], rest)
      | rest => (readItems fuel rest).map fun (items, rest) => (.array items, rest)
    | 123 :: rest =>
      match skipBlanks rest with
      | 125 :: rest => some (.object [], rest)
      | rest => (readFields fuel rest).map fun (fields, rest) => (.object fields, rest)
    | 110 :: rest => (afterWord "ull" rest).map fun rest => (.null, rest)
    | 116 :: rest => (afterWord "rue" rest).map fun rest => (.bool true, rest)
    | 102 :: rest => (afterWord "alse" rest).map fun rest => (.bool false, rest)
    | rest => (readNumber rest).map fun (literal, rest) => (.number literal, rest)

/-- The items of an array up to its closing bracket. -/
def readItems : Nat → Bytes → Option (List Tree × Bytes)
  | 0, _ => none
  | fuel + 1, bs => do
    let (item, rest) ← readTree fuel bs
    match skipBlanks rest with
    | 44 :: rest =>
      let (items, rest) ← readItems fuel rest
      return (item :: items, rest)
    | 93 :: rest => return ([item], rest)
    | _ => none

/-- The fields of an object up to its closing brace. -/
def readFields : Nat → Bytes → Option (List (List Piece × Tree) × Bytes)
  | 0, _ => none
  | fuel + 1, bs =>
    match skipBlanks bs with
    | 34 :: rest => do
      let (key, rest) ← readString rest
      match skipBlanks rest with
      | 58 :: rest =>
        let (value, rest) ← readTree fuel rest
        match skipBlanks rest with
        | 44 :: rest =>
          let (fields, rest) ← readFields fuel rest
          return ((key, value) :: fields, rest)
        | 125 :: rest => return ([(key, value)], rest)
        | _ => none
      | _ => none
    | _ => none

end

/-- The tree that a whole text spells. -/
def Tree.read? (bs : Bytes) : Option Tree := do
  let (tree, rest) ← readTree (2 * bs.length + 2) bs
  if skipBlanks rest = [] then some tree else none

/-! ## Values -/

/-- The bytes that pieces stand for; a surrogate has to be the first of a pair or the second. -/
def pieceBytes? : List Piece → Option Bytes
  | [] => some []
  | .byte b :: rest => (pieceBytes? rest).map (b :: ·)
  | .unit n :: .unit m :: rest =>
    if 0xD800 ≤ n ∧ n < 0xDC00 then
      if 0xDC00 ≤ m ∧ m < 0xE000 then
        (pieceBytes? rest).map
          (String.utf8EncodeChar (Char.ofNat (0x10000 + (n - 0xD800) * 0x400 + (m - 0xDC00))) ++ ·)
      else none
    else if 0xDC00 ≤ n ∧ n < 0xE000 then none
    else (pieceBytes? (.unit m :: rest)).map (String.utf8EncodeChar (Char.ofNat n) ++ ·)
  | .unit n :: rest =>
    if 0xD800 ≤ n ∧ n < 0xE000 then none
    else (pieceBytes? rest).map (String.utf8EncodeChar (Char.ofNat n) ++ ·)

/-- A byte stands for itself, whatever follows it. -/
theorem pieceBytes?_byte (b : UInt8) (rest : List Piece) :
    pieceBytes? (.byte b :: rest) = (pieceBytes? rest).map (b :: ·) := by
  rw [pieceBytes?]

/-- The text that pieces stand for. -/
def pieceText? (pieces : List Piece) : Option String := do Bytes.toText? (← pieceBytes? pieces)

/-- The largest natural number of 64 bits. -/
def maxNat64 : Nat := 0xffffffffffffffff

/-- Takes in whole digits while the number fits 64 bits; what is left over is counted. -/
def takeWhole (significand : Nat) : List Nat → Nat × Nat
  | [] => (significand, 0)
  | d :: ds =>
    if significand * 10 + d ≤ maxNat64 then takeWhole (significand * 10 + d) ds
    else (significand, ds.length + 1)

/-- Takes in digits after the point while the number fits 64 bits, and drops the others. -/
def takeFraction (significand : Nat) (exponent : Int) : List Nat → Nat × Int
  | [] => (significand, exponent)
  | d :: ds =>
    if significand * 10 + d ≤ maxNat64 then takeFraction (significand * 10 + d) (exponent - 1) ds
    else (significand, exponent)

/-- The magnitude times a power of ten, with the rounding of each step; `none` beyond the range.
`fuel` bounds the steps of 308 places that bring a small exponent into range. -/
def scaleMagnitude : Nat → Nat → Int → Option Nat
  | 0, magnitude, _ => some magnitude
  | fuel + 1, magnitude, e =>
    let power := fun k : Nat => Binary64.magnitudeOfNat (Nat.pow 10 k)
    if 0 ≤ e ∧ e ≤ 308 then
      let product := Binary64.mulMagnitude magnitude (power e.toNat)
      if Binary64.infiniteMagnitude ≤ product then none else some product
    else if -308 ≤ e ∧ e < 0 then some (Binary64.divMagnitude magnitude (power (-e).toNat))
    else if magnitude = 0 then some 0
    else if 0 ≤ e then none
    else scaleMagnitude fuel (Binary64.divMagnitude magnitude (power 308)) (e + 308)

/-- The number of a list of decimal digits. -/
def digitsValue (digits : List Nat) : Nat := digits.foldl (fun n d => n * 10 + d) 0

/-- The largest exponent that is told from a larger one. -/
def maxExponent : Nat := 0x7fffffff

/-- The double-precision number of a literal: the digits that fit 64 bits, scaled. -/
def Literal.float? (l : Literal) : Option Binary64 := do
  let (whole, dropped) := takeWhole 0 l.whole
  let (significand, places) := takeFraction whole dropped l.fraction
  let magnitude ← match l.exponent with
    | none => scaleMagnitude 8 (Binary64.magnitudeOfNat significand) places
    | some (negative, digits) =>
      let e := digitsValue digits
      if maxExponent < e then if significand ≠ 0 ∧ !negative then none else some 0
      else
        scaleMagnitude 8 (Binary64.magnitudeOfNat significand) (if negative then places - e else places + e)
  return Binary64.ofMagnitude l.negative magnitude

/-- The number of a literal: an integer if it is spelled as one and fits 64 bits. Negative zero is
no integer. -/
def Literal.number? (l : Literal) : Option Number :=
  let n := digitsValue l.whole
  if l.fraction = [] ∧ l.exponent = none then
    if l.negative then
      if 0 < n ∧ n ≤ 0x8000000000000000 then some (.int (-n)) else l.float?.map .float
    else if n ≤ maxNat64 then some (.int n) else l.float?.map .float
  else l.float?.map .float

namespace Tree

/-- The value that a tree spells, with at most `depth` containers inside each other. -/
def value? : Nat → Tree → Option Value
  | _, null => some .null
  | _, bool b => some (.bool b)
  | _, number l => l.number?.map .number
  | _, string pieces => (pieceText? pieces).map .string
  | 0, array _ => none
  | 0, object _ => none
  | depth + 1, array items => (items.mapM (value? depth)).map .array
  | depth + 1, object fields => do
    let pairs ← fields.mapM fun (key, tree) => do
      return (← pieceText? key, ← value? depth tree)
    return .object (Members.ofList pairs)

/-- The text that a tree spells. -/
def text? : Tree → Option String
  | string pieces => pieceText? pieces
  | _ => none

/-- The integer that a tree spells; a number with a point or an exponent is none. -/
def int? : Tree → Option Int
  | number l =>
    match l.number? with
    | some (.int i) => some i
    | _ => none
  | _ => none

/-- The integer that a tree spells, if it is a natural number below `bound`. -/
def natBelow? (bound : Nat) (t : Tree) : Option Nat := do
  let i ← t.int?
  if 0 ≤ i ∧ i < bound then some i.toNat else none

/-- The items of an array that stands at most `depth` containers above its deepest part, and the
depth left for them. -/
def items? : Nat → Tree → Option (Nat × List Tree)
  | depth + 1, array items => some (depth, items)
  | _, _ => none

/-- Puts a tree in the slot of its name; a name that is no field is passed over, one that comes
twice is refused. -/
def fillSlot (name : String) (tree : Tree) : List (String × Option Tree) → Option (List (String × Option Tree))
  | [] => some []
  | (field, slot) :: slots =>
    if field = name then
      match slot with
      | none => some ((field, some tree) :: slots)
      | some _ => none
    else (fillSlot name tree slots).map ((field, slot) :: ·)

/-- The members of an object, in the slots of the fields they name. -/
def fillSlots (slots : List (String × Option Tree)) :
    List (List Piece × Tree) → Option (List (String × Option Tree))
  | [] => some slots
  | (key, tree) :: rest => do
    let slots ← fillSlot (← pieceText? key) tree slots
    fillSlots slots rest

/-- The fields of a record in the order of `names`, absent ones as `none`, and the depth left for
them. A record is an object, or an array of its fields in order; the array may end early and must
not be longer. -/
def record? (names : List String) : Nat → Tree → Option (Nat × List (Option Tree))
  | depth + 1, object fields => do
    let slots ← fillSlots (names.map (·, none)) fields
    return (depth, slots.map (·.2))
  | depth + 1, array items =>
    if names.length < items.length then none
    else
      some (depth, items.map some ++ List.replicate (names.length - items.length) none)
  | _, _ => none

end Tree

/-- The value that a whole text spells. -/
def Value.read? (bs : Bytes) : Option Value := do (← Tree.read? bs).value? maxDepth

end GatewayControl.Json
