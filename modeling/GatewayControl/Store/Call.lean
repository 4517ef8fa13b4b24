import GatewayControl.Error
import GatewayControl.Text.Bytes

/-!
# `GatewayControl.Store.Call` -- the calls of the configuration store

The store maps names to plain values or to hashes of fields. Each call is one atomic step for the
single name it touches; there are no transactions over several names. `Backend` is what a store has
to offer: a step that answers one call.
-/

namespace GatewayControl

/-- A call of the store. -/
inductive Call where
  /-- Read a plain value. -/
  | get (key : String)
  /-- Write a plain value. -/
  | set (key : String) (value : Bytes)
  /-- Remove a plain value or a whole hash; tells whether there was one. -/
  | delete (key : String)
  /-- Replace a plain value that equals `expected`, `none` standing for absence on both sides;
  tells whether it did. -/
  | compareAndSet (key : String) (expected new : Option Bytes)
  /-- Read a field of a hash. -/
  | hget (key field : String)
  /-- Write a field of a hash. -/
  | hset (key field : String) (value : Bytes)
  /-- Write a field that does not exist yet; tells whether it did. -/
  | hsetIfAbsent (key field : String) (value : Bytes)
  /-- Remove a field of a hash; tells whether it existed. -/
  | hdel (key field : String)
  /-- The fields of a hash, sorted. -/
  | hkeys (key : String)
deriving DecidableEq, Repr

namespace Call

/-- The kinds of calls. -/
inductive Method where
  | get | set | delete | compareAndSet | hget | hset | hsetIfAbsent | hdel | hkeys
deriving DecidableEq, Repr

/-- The kind of a call. -/
def method : Call → Method
  | get _ => .get
  | set _ _ => .set
  | delete _ => .delete
  | compareAndSet _ _ _ => .compareAndSet
  | hget _ _ => .hget
  | hset _ _ _ => .hset
  | hsetIfAbsent _ _ _ => .hsetIfAbsent
  | hdel _ _ => .hdel
  | hkeys _ => .hkeys

/-- The name that a call touches. -/
def key : Call → String
  | get k => k
  | set k _ => k
  | delete k => k
  | compareAndSet k _ _ => k
  | hget k _ => k
  | hset k _ _ => k
  | hsetIfAbsent k _ _ => k
  | hdel k _ => k
  | hkeys k => k

/-- What a call answers. -/
abbrev Answer : Call → Type
  | get _ => Option Bytes
  | set _ _ => Unit
  | delete _ => Bool
  | compareAndSet _ _ _ => Bool
  | hget _ _ => Option Bytes
  | hset _ _ _ => Unit
  | hsetIfAbsent _ _ _ => Bool
  | hdel _ _ => Bool
  | hkeys _ => List String

/-- The answer of a call, or the reason why there is none. -/
abbrev Reply (c : Call) : Type := Except StoreFault c.Answer

end Call

/-- A store: a type of contents, and what each call does to them. -/
class Backend (σ : Type) where
  empty : σ
  step : (c : Call) → σ → c.Reply × σ

end GatewayControl
