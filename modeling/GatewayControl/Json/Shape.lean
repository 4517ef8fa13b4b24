import GatewayControl.Json.Value
import GatewayControl.Text.Quoted

/-!
# `GatewayControl.Json.Shape` -- reading records out of values

A record is described by the types of its fields. It is read from an object, whose members come in
the order of their keys, or from an array of the fields in order. The first fault in that order is
reported; fields that are missing from an object are looked for last, in the order of the record.
-/

namespace GatewayControl.Json

/-- Why a value does not have the shape of a record. -/
inductive ShapeFault where
  | missingField (name : String)
  | invalidType (found expected : String)
  | invalidValue (found expected : String)
  | invalidLength (length : Nat) (expected : String)
deriving DecidableEq, Repr

/-- The wording of a fault. -/
def ShapeFault.message : ShapeFault → String
  | missingField name => "missing field \x60" ++ name ++ "\x60"
  | invalidType found expected => "invalid type: " ++ found ++ ", expected " ++ expected
  | invalidValue found expected => "invalid value: " ++ found ++ ", expected " ++ expected
  | invalidLength n expected => "invalid length " ++ toString n ++ ", expected " ++ expected

/-- What a value is called where another was expected. -/
def Value.described : Value → String
  | .null => "null"
  | .bool b => "boolean \x60" ++ toString b ++ "\x60"
  | .number (.int i) => "integer \x60" ++ toString i ++ "\x60"
  | .number (.float x) => "floating point \x60" ++ String.ofList (numberLayout.render x) ++ "\x60"
  | .string s => "string " ++ Text.quoted s
  | .array _ => "sequence"
  | .object _ => "map"

/-- The types of the fields of a record. -/
inductive FieldType where
  | text | port | texts
deriving DecidableEq, Repr

/-- What a field of a type holds. -/
abbrev FieldType.Content : FieldType → Type
  | text => String
  | port => UInt16
  | texts => List String

/-- Reads a text. -/
def readText : Value → Except ShapeFault String
  | .string s => .ok s
  | v => .error (.invalidType v.described "a string")

/-- Reads the content of a field. -/
def FieldType.read : (t : FieldType) → Value → Except ShapeFault t.Content
  | text, v => readText v
  | port, v =>
    match v with
    | .number (.int i) =>
      if 0 ≤ i ∧ i < 0x10000 then .ok i.toNat.toUInt16
      else .error (.invalidValue v.described "u16")
    | v => .error (.invalidType v.described "u16")
  | texts, v =>
    match v with
    | .array items => items.mapM readText
    | v => .error (.invalidType v.described "a sequence")

/-- The fields of a record by name. -/
abbrev Fields := List (String × FieldType)

namespace Fields

/-- What a record with these fields holds. -/
abbrev Record : Fields → Type
  | [] => Unit
  | (_, t) :: fs => t.Content × Record fs

/-- What has been read of a record. -/
abbrev Slots : Fields → Type
  | [] => Unit
  | (_, t) :: fs => Option t.Content × Slots fs

/-- Nothing read. -/
def noSlots : (fs : Fields) → Slots fs
  | [] => ()
  | _ :: fs => (none, noSlots fs)

/-- Reads a member into the slot of its name; a name that is no field is passed over. -/
def put (name : String) (v : Value) : (fs : Fields) → Slots fs → Except ShapeFault (Slots fs)
  | [], () => .ok ()
  | (field, t) :: fs, (slot, slots) =>
    if field = name then (t.read v).map fun content => (some content, slots)
    else (put name v fs slots).map fun slots => (slot, slots)

/-- Reads the members of an object one after the other. -/
def putAll (fs : Fields) : Members → Slots fs → Except ShapeFault (Slots fs)
  | [], slots => .ok slots
  | (name, v) :: rest, slots =>
    match put name v fs slots with
    | .error fault => .error fault
    | .ok slots => putAll fs rest slots

/-- The record, if no slot is empty. -/
def complete : (fs : Fields) → Slots fs → Except ShapeFault (Record fs)
  | [], () => .ok ()
  | (name, _) :: fs, (slot, slots) =>
    match slot with
    | none => .error (.missingField name)
    | some content => (complete fs slots).map fun record => (content, record)

/-- Reads the items of an array in the order of the fields; `i` is the number of items before, and
`wanted` names what is read. -/
def inOrder (wanted : String) (i : Nat) : (fs : Fields) → List Value → Except ShapeFault (Record fs)
  | [], _ => .ok ()
  | _ :: _, [] => .error (.invalidLength i wanted)
  | (_, t) :: fs, v :: vs =>
    match t.read v with
    | .error fault => .error fault
    | .ok content => (inOrder wanted (i + 1) fs vs).map fun record => (content, record)

/-- Reads a record of a name. -/
def read (name : String) (fs : Fields) : Value → Except ShapeFault (Record fs)
  | .object members => do complete fs (← putAll fs members (noSlots fs))
  | .array items => do
    let count := toString fs.length ++ (if fs.length = 1 then " element" else " elements")
    let record ← inOrder ("struct " ++ name ++ " with " ++ count) 0 fs items
    if fs.length < items.length then
      throw (.invalidLength items.length "fewer elements in array")
    return record
  | v => .error (.invalidType v.described ("struct " ++ name))

end Fields

end GatewayControl.Json
