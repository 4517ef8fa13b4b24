import GatewayControl.Json.Tree
import GatewayControl.Store.Tables
import GatewayControl.Text.Hex

/-!
# `GatewayControl.Store.Saved` -- a store of two tables as text

Between runs a store is kept as JSON: the rows of each table in order, every row a list of its
columns, values in hexadecimal.
-/

namespace GatewayControl.TableStore

/-- Bytes as they are saved. -/
def savedBytes (bytes : Bytes) : Json.Value := .string (Text.Hex.text bytes)

/-- The bytes that a saved text stands for. -/
def bytes? : Json.Value → Option Bytes
  | .string s => (Text.Hex.decode (Bytes.ofText s)).toOption
  | _ => none

/-- The saved form of a store. -/
def toValue (t : TableStore) : Json.Value :=
  .object [
    ("values", .array (t.values.map fun r => .array [.string r.key, savedBytes r.value])),
    ("fields", .array (t.fields.map fun r => .array [.string r.key, .string r.field, savedBytes r.value]))]

/-- A saved row of the table of plain values. -/
def valueRow? : Json.Value → Option ValueRow
  | .array [.string key, value] => do return ⟨key, ← bytes? value⟩
  | _ => none

/-- A saved row of the table of fields. -/
def fieldRow? : Json.Value → Option FieldRow
  | .array [.string key, .string field, value] => do return ⟨key, field, ← bytes? value⟩
  | _ => none

/-- The store of a saved form. -/
def ofValue? : Json.Value → Option TableStore
  | .object members =>
    match members.lookup "values", members.lookup "fields" with
    | some (.array values), some (.array fields) => do
      return ⟨← values.mapM valueRow?, ← fields.mapM fieldRow?⟩
    | _, _ => none
  | _ => none

end GatewayControl.TableStore
