import GatewayControl.Decimal.Shortest
import GatewayControl.Text.Bytes

/-!
# `GatewayControl.Json.Value` -- JSON values and how they are written

A number is an integer of 64 bits (signed or not) or a double-precision number. The members of an
object are a list: `Members.insert` keeps it sorted by key, and the printers write it in list
order, so a record type chooses the order of its own fields.
-/

namespace GatewayControl.Json

/-- A JSON number. -/
inductive Number where
  | int (i : Int)
  | float (x : Binary64)
deriving DecidableEq, Repr

/-- A JSON value. -/
inductive Value where
  | null
  | bool (b : Bool)
  | number (n : Number)
  | string (s : String)
  | array (items : List Value)
  | object (members : List (String × Value))
deriving Repr, Inhabited

/-- The members of an object. -/
abbrev Members := List (String × Value)

/-- Sets a key in members that are sorted by key. -/
def Members.insert (key : String) (value : Value) : Members → Members
  | [] => [(key, value)]
  | (k, v) :: rest =>
    if key < k then (key, value) :: (k, v) :: rest
    else if key = k then (key, value) :: rest
    else (k, v) :: Members.insert key value rest

/-- Members sorted by key; of two with one key the later counts. -/
def Members.ofList (pairs : List (String × Value)) : Members :=
  pairs.foldl (fun members (k, v) => Members.insert k v members) []

/-- Positional notation for exponents from -5 to 15, and a sign on every other exponent. -/
def numberLayout : Decimal.Layout := ⟨-5, 15, true⟩

/-- The text of a number. -/
def Number.chars : Number → List Char
  | int i => (toString i).toList
  | float x => numberLayout.render x

/-- Equality of numbers of one kind. -/
def Number.same : Number → Number → Bool
  | int i, int j => i == j
  | float x, float y => x.same y
  | _, _ => false

namespace Value

mutual

/-- Equality of values, numbers compared as numbers. -/
def same : Value → Value → Bool
  | null, null => true
  | bool a, bool b => a == b
  | number a, number b => a.same b
  | string a, string b => a == b
  | array a, array b => sameItems a b
  | object a, object b => sameMembers a b
  | _, _ => false

/-- Equality of the items of two arrays. -/
def sameItems : List Value → List Value → Bool
  | [], [] => true
  | a :: as, b :: bs => same a b && sameItems as bs
  | _, _ => false

/-- Equality of the members of two objects. -/
def sameMembers : List (String × Value) → List (String × Value) → Bool
  | [], [] => true
  | (k, a) :: as, (l, b) :: bs => k == l && same a b && sameMembers as bs
  | _, _ => false

end

mutual

/-- The value with the members of every object in it sorted by key. -/
def sorted : Value → Value
  | array items => array (sortedItems items)
  | object members => object (Members.ofList (sortedMembers members))
  | v => v

/-- The items of an array with their objects sorted. -/
def sortedItems : List Value → List Value
  | [] => []
  | v :: vs => sorted v :: sortedItems vs

/-- The members of an object with the objects in them sorted. -/
def sortedMembers : List (String × Value) → List (String × Value)
  | [] => []
  | (k, v) :: rest => (k, sorted v) :: sortedMembers rest

end

end Value

/-- One byte of a text as it is written between quotes. -/
def escapeByte (b : UInt8) : Bytes :=
  if b = 34 then [92, 34]
  else if b = 92 then [92, 92]
  else if b = 8 then [92, 98]
  else if b = 12 then [92, 102]
  else if b = 10 then [92, 110]
  else if b = 13 then [92, 114]
  else if b = 9 then [92, 116]
  else if b < 32 then
    [92, 117, 48, 48, 48 + b / 16, if b % 16 < 10 then 48 + b % 16 else 87 + b % 16]
  else [b]

/-- A text between quotes. -/
def quote (s : String) : Bytes := 34 :: (Bytes.ofText s).flatMap escapeByte ++ [34]

namespace Value

mutual

/-- The compact form of a value: no blanks. -/
def bytes : Value → Bytes
  | null => Bytes.ofText "null"
  | bool true => Bytes.ofText "true"
  | bool false => Bytes.ofText "false"
  | number n => n.chars.map Bytes.ascii
  | string s => quote s
  | array items => 91 :: itemBytes items ++ [93]
  | object members => 123 :: memberBytes members ++ [125]

/-- The items of an array, separated by commas. -/
def itemBytes : List Value → Bytes
  | [] => []
  | [v] => bytes v
  | v :: vs => bytes v ++ 44 :: itemBytes vs

/-- The members of an object, separated by commas. -/
def memberBytes : List (String × Value) → Bytes
  | [] => []
  | [(k, v)] => quote k ++ 58 :: bytes v
  | (k, v) :: rest => quote k ++ 58 :: bytes v ++ 44 :: memberBytes rest

end

/-- The compact form of a value as a text. -/
def text (v : Value) : String := (Bytes.toText? v.bytes).getD ""

/-- The start of a line at a depth of nesting. -/
def newLine (depth : Nat) : Bytes := 10 :: List.replicate (2 * depth) 32

mutual

/-- The indented form of a value: an item or member on each line, two blanks for each level. -/
def indented (depth : Nat) : Value → Bytes
  | array [] => [91, 93]
  | array items => 91 :: indentedItems (depth + 1) items ++ newLine depth ++ [93]
  | object [] => [123, 125]
  | object members => 123 :: indentedMembers (depth + 1) members ++ newLine depth ++ [125]
  | v => bytes v

/-- The items of an array, a line each. -/
def indentedItems (depth : Nat) : List Value → Bytes
  | [] => []
  | [v] => newLine depth ++ indented depth v
  | v :: vs => newLine depth ++ indented depth v ++ 44 :: indentedItems depth vs

/-- The members of an object, a line each. -/
def indentedMembers (depth : Nat) : List (String × Value) → Bytes
  | [] => []
  | [(k, v)] => newLine depth ++ quote k ++ [58, 32] ++ indented depth v
  | (k, v) :: rest =>
    newLine depth ++ quote k ++ [58, 32] ++ indented depth v ++ 44 :: indentedMembers depth rest

end

/-- The indented form of a value as a text. -/
def prettyText (v : Value) : String := (Bytes.toText? (indented 0 v)).getD ""

end Value

end GatewayControl.Json
