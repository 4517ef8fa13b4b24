import GatewayControl.Store.Call

/-!
# `GatewayControl.Program` -- operations as trees of store calls

An operation on the shared store is a tree: it ends with a result, or makes one store call and goes
on with the reply. Whatever runs an operation -- alone, among others, with failing calls, cut off by
a deadline -- is a function of this tree, so all of them speak of the same operation. `detach` marks
where an operation goes on by itself: from there on its caller can stop waiting, but not stop it.

Main statements: `Program` is a lawful monad, and `run` follows `bind`.
-/

namespace GatewayControl

/-- A tree of store calls with a result at each leaf. -/
inductive Program (α : Type) where
  | done (result : α)
  | call (c : Call) (next : c.Reply → Program α)
  | detach (rest : Program α)

namespace Program

variable {α β : Type}

/-- Goes on with the result of a program. -/
def bind : Program α → (α → Program β) → Program β
  | done a, f => f a
  | call c next, f => call c fun reply => (next reply).bind f
  | detach rest, f => detach (rest.bind f)

instance : Monad Program where
  pure := done
  bind := bind

theorem bind_done (p : Program α) : p.bind done = p := by
  induction p with
  | done a => rfl
  | call c next ih => simp only [bind, ih]
  | detach rest ih => simp only [bind, ih]

/-- Programs in sequence may be grouped either way. -/
theorem bind_bind {γ : Type} (p : Program α) (f : α → Program β) (g : β → Program γ) :
    (p.bind f).bind g = p.bind fun a => (f a).bind g := by
  induction p with
  | done a => rfl
  | call c next ih => simp only [bind, ih]
  | detach rest ih => simp only [bind, ih]

instance : LawfulMonad Program :=
  LawfulMonad.mk' Program bind_done (fun _ _ => rfl) bind_bind

/-- Runs a program alone. -/
def run {σ : Type} [Backend σ] : Program α → σ → α × σ
  | done a, s => (a, s)
  | call c next, s =>
    match Backend.step c s with
    | (reply, s) => (next reply).run s
  | detach rest, s => rest.run s

/-- A sequence runs its second part from the store that the first one left. -/
theorem run_bind {σ : Type} [Backend σ] (p : Program α) (f : α → Program β) (s : σ) :
    (p.bind f).run s = (f (p.run s).1).run (p.run s).2 := by
  induction p generalizing s with
  | done a => rfl
  | call c next ih => simp only [bind, run, ih]
  | detach rest ih => simp only [bind, run, ih]

end Program

/-- An operation on the store that may fail. -/
abbrev Operation (α : Type) := ExceptT GatewayError Program α

namespace Operation

/-- Makes one call; a fault of the store fails the operation. -/
def call (c : Call) : Operation c.Answer :=
  ExceptT.mk <| .call c fun reply =>
    match reply with
    | .ok answer => .done (.ok answer)
    | .error fault => .done (.error (.storage (.store fault)))

/-- Reads a plain value. -/
def get (key : String) : Operation (Option Bytes) := call (.get key)

/-- Removes a plain value or a whole hash. -/
def delete (key : String) : Operation Bool := call (.delete key)

/-- Replaces a plain value that equals `expected`. -/
def compareAndSet (key : String) (expected new : Option Bytes) : Operation Bool :=
  call (.compareAndSet key expected new)

/-- Reads a field of a hash. -/
def hget (key field : String) : Operation (Option Bytes) := call (.hget key field)

/-- Writes a field of a hash. -/
def hset (key field : String) (value : Bytes) : Operation Unit := call (.hset key field value)

/-- Writes a field that does not exist yet. -/
def hsetIfAbsent (key field : String) (value : Bytes) : Operation Bool :=
  call (.hsetIfAbsent key field value)

/-- Removes a field of a hash. -/
def hdel (key field : String) : Operation Bool := call (.hdel key field)

/-- The fields of a hash, sorted. -/
def hkeys (key : String) : Operation (List String) := call (.hkeys key)

/-- The operation goes on by itself from here. -/
def detached {α : Type} (op : Operation α) : Operation α := ExceptT.mk (.detach op.run)

/-- The operation that only fails or only returns. -/
def check {α : Type} : Except GatewayError α → Operation α
  | .ok a => pure a
  | .error e => throw e

/-- The result of an operation as a value, so that what follows can look at it. -/
def attempt {α : Type} (op : Operation α) : Operation (Except GatewayError α) :=
  ExceptT.mk (op.run.bind fun r => .done (.ok r))

/-- Runs an operation alone. -/
def alone {α σ : Type} [Backend σ] (op : Operation α) (s : σ) : Except GatewayError α × σ :=
  Program.run op.run s

end Operation

end GatewayControl
