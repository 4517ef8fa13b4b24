import GatewayControl.Store.Memory
import GatewayControl.Store.Tables

/-!
# `GatewayControl.Store.View` -- what a store holds, as it can be observed

The view of a store lists its names, sorted, each with the plain value or the sorted fields that it
holds. Stores of both kinds with one view are indistinguishable to their callers.
-/

namespace GatewayControl

/-- What a name holds. -/
inductive Held where
  | value (bytes : Bytes)
  | fields (fields : List (String × Bytes))
deriving DecidableEq

/-- The names of a store with what they hold, sorted by name. -/
abbrev StoreView := List (String × Held)

/-- A store whose contents can be listed. -/
class Observable (σ : Type) where
  view : σ → StoreView

/-- What a slot holds. -/
def Slot.held : Slot → Held
  | value bytes => .value bytes
  | hash h => .fields h.fields.toList

/-- The view of a store in memory. -/
def MemoryStore.view (s : MemoryStore) : StoreView := s.slots.toList.map fun (key, slot) => (key, slot.held)

/-- What a name holds in the two tables. -/
def TableStore.held (key : String) (t : TableStore) : Held :=
  match t.value? key with
  | some bytes => .value bytes
  | none => .fields ((t.fieldNames key).map fun field => (field, (t.field? key field).getD []))

/-- The view of a store in two tables. -/
def TableStore.view (t : TableStore) : StoreView := t.names.map fun key => (key, t.held key)

instance : Observable MemoryStore := ⟨MemoryStore.view⟩

instance : Observable TableStore := ⟨TableStore.view⟩

/-- The names on which two views differ, with what the second holds. -/
def StoreView.changes (before after : StoreView) : List (String × Option Held) :=
  (before.filterMap fun (key, _) => if (after.lookup key).isNone then some (key, none) else none) ++
    after.filterMap fun (key, held) =>
      if before.lookup key = some held then none else some (key, some held)

end GatewayControl
