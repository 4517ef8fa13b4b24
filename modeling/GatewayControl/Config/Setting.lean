import GatewayControl.Json.Value
import GatewayControl.Toml.Reader

/-!
# `GatewayControl.Config.Setting` -- settings as they are written

A configuration is written in TOML, or as a JSON value. `Setting` is what both have in common, and
a `Dialect` says where they differ: how a choice without content may be spelled out, and whether a
list of fields may be longer than there are fields.
-/

namespace GatewayControl

/-- A setting as it is written. -/
inductive Setting where
  | null
  | bool (b : Bool)
  | int (i : Int)
  | float
  | text (s : String)
  | list (items : List Setting)
  | group (members : List (String × Setting))
deriving Inhabited

/-- Where ways of writing settings differ. -/
structure Dialect where
  /-- What may stand for the content of a choice that has none. -/
  isNoContent : Setting → Bool
  /-- A list of fields may have items beyond the fields. -/
  allowsExtra : Bool

/-- The dialect of JSON values. -/
def Dialect.json : Dialect where
  isNoContent
    | .null => true
    | _ => false
  allowsExtra := false

/-- The dialect of TOML. -/
def Dialect.toml : Dialect where
  isNoContent
    | .list [] => true
    | .group [] => true
    | _ => false
  allowsExtra := true

/-- The name under which TOML's dates and times appear as a group. -/
def dateTimeKey : String := "$__toml_private_datetime"

namespace Setting

mutual

/-- The setting of a JSON value. -/
def ofJson : Json.Value → Setting
  | .null => .null
  | .bool b => .bool b
  | .number (.int i) => .int i
  | .number (.float _) => .float
  | .string s => .text s
  | .array items => .list (ofJsonItems items)
  | .object members => .group (ofJsonMembers members)

/-- The settings of the items of a JSON array. -/
def ofJsonItems : List Json.Value → List Setting
  | [] => []
  | v :: vs => ofJson v :: ofJsonItems vs

/-- The settings of the members of a JSON object. -/
def ofJsonMembers : List (String × Json.Value) → List (String × Setting)
  | [] => []
  | (key, v) :: rest => (key, ofJson v) :: ofJsonMembers rest

end

mutual

/-- The setting of a TOML value; a date or time is a group of its text. -/
def ofToml : Toml.Value → Setting
  | .string s => .text s
  | .integer i => .int i
  | .float _ => .float
  | .boolean b => .bool b
  | .dateTime s => .group [(dateTimeKey, .text s)]
  | .array items => .list (ofTomlItems items)
  | .table members => .group (ofTomlMembers members)

/-- The settings of the items of a TOML array. -/
def ofTomlItems : List Toml.Value → List Setting
  | [] => []
  | v :: vs => ofToml v :: ofTomlItems vs

/-- The settings of the members of a TOML table. -/
def ofTomlMembers : List (String × Toml.Value) → List (String × Setting)
  | [] => []
  | (key, v) :: rest => (key, ofToml v) :: ofTomlMembers rest

end

/-! ## Contents -/

/-- A text. -/
def text? : Setting → Option String
  | .text s => some s
  | _ => none

/-- A flag. -/
def bool? : Setting → Option Bool
  | .bool b => some b
  | _ => none

/-- A natural number below a bound. -/
def natBelow? (bound : Nat) : Setting → Option Nat
  | .int i => if 0 ≤ i ∧ i < bound then some i.toNat else none
  | _ => none

/-- A text or nothing. -/
def optionalText? : Setting → Option (Option String)
  | .null => some none
  | .text s => some (some s)
  | _ => none

/-- Texts by name, sorted by name. -/
def textMap? : Setting → Option (List (String × String))
  | .group members => do
    let pairs ← members.mapM fun (key, v) => do return (key, ← v.text?)
    return pairs.mergeSort fun p q => p.1 ≤ q.1
  | _ => none

/-- One of some choices without content: its name, or a group whose only member has that name. -/
def choice? {α : Type} (d : Dialect) (choice : String → Option α) : Setting → Option α
  | .text s => choice s
  | .group [(name, content)] => if d.isNoContent content then choice name else none
  | _ => none

/-- The fields of a record in the order of `names`, absent ones as `none`: a group with unknown
members passed over, or a list of the fields in order with at least `required` of them. -/
def fields? (d : Dialect) (names : List String) (required : Nat) : Setting → Option (List (Option Setting))
  | .group members => some (names.map fun name => members.lookup name)
  | .list items =>
    if items.length < required then none
    else if names.length < items.length ∧ !d.allowsExtra then none
    else some ((items.map some ++ List.replicate names.length none).take names.length)
  | _ => none

/-- The content of a field that may be absent. -/
def orElse? {α : Type} (default : α) (read : Setting → Option α) : Option Setting → Option α
  | none => some default
  | some s => read s

end Setting

end GatewayControl
