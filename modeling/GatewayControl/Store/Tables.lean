import GatewayControl.Store.Call

/-!
# `GatewayControl.Store.Tables` -- a store in two tables

The layout of a relational database: a table of plain values keyed by name, and a table of fields
keyed by name and field. A name stands in one of them at most, because every write looks into the
other table first. Rows have no order of their own.
-/

namespace GatewayControl

/-- A row of the table of plain values. -/
structure ValueRow where
  key : String
  value : Bytes
deriving DecidableEq

/-- A row of the table of fields. -/
structure FieldRow where
  key : String
  field : String
  value : Bytes
deriving DecidableEq

/-- The contents of the two tables. -/
structure TableStore where
  values : List ValueRow
  fields : List FieldRow
deriving DecidableEq

namespace TableStore

/-- The tables without rows. -/
def empty : TableStore := ⟨[], []⟩

/-- Some row of the table of fields has this name. -/
def isHash (key : String) (t : TableStore) : Bool := t.fields.any fun r => r.key = key

/-- Some row of the table of plain values has this name. -/
def isPlain (key : String) (t : TableStore) : Bool := t.values.any fun r => r.key = key

/-- The plain value of a name. -/
def value? (key : String) (t : TableStore) : Option Bytes :=
  (t.values.find? fun r => r.key = key).map (·.value)

/-- The value of a field. -/
def field? (key field : String) (t : TableStore) : Option Bytes :=
  (t.fields.find? fun r => r.key = key ∧ r.field = field).map (·.value)

/-- The fields of a name, sorted. -/
def fieldNames (key : String) (t : TableStore) : List String :=
  ((t.fields.filter fun r => r.key = key).map (·.field)).mergeSort fun a b => a ≤ b

/-- Inserts a plain value, or updates the row that has its name. -/
def upsertValue (key : String) (value : Bytes) (t : TableStore) : TableStore :=
  { t with values := ⟨key, value⟩ :: t.values.filter fun r => r.key ≠ key }

/-- Deletes the row of a plain value. -/
def deleteValue (key : String) (t : TableStore) : TableStore :=
  { t with values := t.values.filter fun r => r.key ≠ key }

/-- Inserts a field, or updates the row that has its name and field. -/
def upsertField (key field : String) (value : Bytes) (t : TableStore) : TableStore :=
  { t with fields := ⟨key, field, value⟩ :: t.fields.filter fun r => ¬(r.key = key ∧ r.field = field) }

/-- Deletes the row of a field. -/
def deleteField (key field : String) (t : TableStore) : TableStore :=
  { t with fields := t.fields.filter fun r => ¬(r.key = key ∧ r.field = field) }

/-- Deletes the rows of all fields of a name. -/
def deleteFields (key : String) (t : TableStore) : TableStore :=
  { t with fields := t.fields.filter fun r => r.key ≠ key }

/-- The names in either table, sorted and without repetition. -/
def names (t : TableStore) : List String :=
  ((t.values.map (·.key) ++ t.fields.map (·.key)).eraseDups).mergeSort fun a b => a ≤ b

/-- Answers one call. -/
def step (c : Call) (t : TableStore) : c.Reply × TableStore :=
  match c with
  | .get key => if t.isHash key then (.error (.wrongType key), t) else (.ok (t.value? key), t)
  | .set key value =>
    if t.isHash key then (.error (.wrongType key), t) else (.ok (), t.upsertValue key value)
  | .delete key => (.ok (t.isPlain key || t.isHash key), (t.deleteValue key).deleteFields key)
  | .compareAndSet key expected new =>
    if t.isHash key then (.error (.wrongType key), t)
    else if t.value? key = expected then
      match new with
      | some value => (.ok true, t.upsertValue key value)
      | none => (.ok true, t.deleteValue key)
    else (.ok false, t)
  | .hget key field =>
    if t.isPlain key then (.error (.wrongType key), t) else (.ok (t.field? key field), t)
  | .hset key field value =>
    if t.isPlain key then (.error (.wrongType key), t) else (.ok (), t.upsertField key field value)
  | .hsetIfAbsent key field value =>
    if t.isPlain key then (.error (.wrongType key), t)
    else if (t.field? key field).isSome then (.ok false, t)
    else (.ok true, t.upsertField key field value)
  | .hdel key field =>
    if t.isPlain key then (.error (.wrongType key), t)
    else (.ok (t.field? key field).isSome, t.deleteField key field)
  | .hkeys key => if t.isPlain key then (.error (.wrongType key), t) else (.ok (t.fieldNames key), t)

instance : Backend TableStore := ⟨empty, step⟩

end TableStore

end GatewayControl
