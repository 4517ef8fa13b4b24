import GatewayControl.Store.Call
import Std.Data.ExtTreeMap

/-!
# `GatewayControl.Store.Memory` -- a store in memory

A sorted map from names to slots. A slot holds a plain value or a hash, and a hash has at least one
field: removing the last one removes the name.
-/

namespace GatewayControl

/-- A sorted map from texts. -/
abbrev TextMap (α : Type) := Std.ExtTreeMap String α

/-- The fields of a hash; there is at least one. -/
structure Hash where
  fields : TextMap Bytes
  nonempty : fields ≠ ∅

/-- What a name holds. -/
inductive Slot where
  | value (bytes : Bytes)
  | hash (hash : Hash)

/-- The contents of a store in memory. -/
structure MemoryStore where
  slots : TextMap Slot

namespace MemoryStore

/-- The store without names. -/
def empty : MemoryStore := ⟨∅⟩

/-- How many names there are. -/
def size (s : MemoryStore) : Nat := s.slots.size

/-- There are no names. -/
def isEmpty (s : MemoryStore) : Bool := s.slots.isEmpty

/-- The names, sorted. -/
def names (s : MemoryStore) : List String := s.slots.keys

/-- The plain value of a name; a hash is a fault. -/
def plain (key : String) (s : MemoryStore) : Except StoreFault (Option Bytes) :=
  match s.slots[key]? with
  | none => .ok none
  | some (.value bytes) => .ok (some bytes)
  | some (.hash _) => .error (.wrongType key)

/-- The fields of a name, none if it is absent; a plain value is a fault. -/
def fields (key : String) (s : MemoryStore) : Except StoreFault (TextMap Bytes) :=
  match s.slots[key]? with
  | none => .ok ∅
  | some (.hash h) => .ok h.fields
  | some (.value _) => .error (.wrongType key)

/-- Writes a plain value, or removes the name. -/
def put (key : String) (value : Option Bytes) (s : MemoryStore) : MemoryStore :=
  match value with
  | some bytes => ⟨s.slots.insert key (.value bytes)⟩
  | none => ⟨s.slots.erase key⟩

/-- Replaces the fields of a name; without fields the name is removed. -/
def putFields (key : String) (fields : TextMap Bytes) (s : MemoryStore) : MemoryStore :=
  if h : fields = ∅ then ⟨s.slots.erase key⟩ else ⟨s.slots.insert key (.hash ⟨fields, h⟩)⟩

/-- Answers one call. -/
def step (c : Call) (s : MemoryStore) : c.Reply × MemoryStore :=
  match c with
  | .get key => (s.plain key, s)
  | .set key value =>
    match s.plain key with
    | .error fault => (.error fault, s)
    | .ok _ => (.ok (), s.put key (some value))
  | .delete key => (.ok (s.slots.contains key), s.put key none)
  | .compareAndSet key expected new =>
    match s.plain key with
    | .error fault => (.error fault, s)
    | .ok current => if current = expected then (.ok true, s.put key new) else (.ok false, s)
  | .hget key field => ((s.fields key).map (·[field]?), s)
  | .hset key field value =>
    match s.fields key with
    | .error fault => (.error fault, s)
    | .ok fields => (.ok (), s.putFields key (fields.insert field value))
  | .hsetIfAbsent key field value =>
    match s.fields key with
    | .error fault => (.error fault, s)
    | .ok fields =>
      if fields.contains field then (.ok false, s)
      else (.ok true, s.putFields key (fields.insert field value))
  | .hdel key field =>
    match s.fields key with
    | .error fault => (.error fault, s)
    | .ok fields =>
      if fields.contains field then (.ok true, s.putFields key (fields.erase field))
      else (.ok false, s)
  | .hkeys key => ((s.fields key).map (·.keys), s)

instance : Backend MemoryStore := ⟨empty, step⟩

end MemoryStore

end GatewayControl
