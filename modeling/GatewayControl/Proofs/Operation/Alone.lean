import GatewayControl.Program
import GatewayControl.Proofs.Store.Cell

/-!
# `GatewayControl.Proofs.Operation.Alone` -- operations run alone

Equations for `alone` along the shape of an operation: what returns, goes on with a result, is attempted or
makes a store call. The calls of a memory store are given by the cells that they read and write.
-/

namespace GatewayControl
namespace Operation

section Shape

variable {α β σ : Type} [Backend σ]

@[simp] theorem alone_pure (a : α) (s : σ) : alone (pure a : Operation α) s = (.ok a, s) := rfl

/-- What follows runs on the result, or not at all. -/
theorem alone_bind (op : Operation α) (next : α → Operation β) (s : σ) :
    alone (op >>= next) s =
      match alone op s with
      | (.ok a, s) => alone (next a) s
      | (.error e, s) => (.error e, s) := by
  unfold alone
  rw [ExceptT.run_bind]
  refine (Program.run_bind _ _ _).trans ?_
  rcases Program.run op.run s with ⟨_ | _, _⟩ <;> rfl

/-- What follows a success runs on its result, from the store that it left. -/
theorem alone_bind_ok {op : Operation α} {next : α → Operation β} {s t : σ} {a : α}
    (h : alone op s = (.ok a, t)) : alone (op >>= next) s = alone (next a) t := by
  rw [alone_bind, h]

/-- Nothing follows a failure. -/
theorem alone_bind_error {op : Operation α} {next : α → Operation β} {s t : σ} {e : GatewayError}
    (h : alone op s = (.error e, t)) : alone (op >>= next) s = (.error e, t) := by
  rw [alone_bind, h]

/-- Discarding a result is going on without it. -/
theorem discard_eq (op : Operation α) : (discard op : Operation Unit) = op >>= fun _ => pure () := by
  rw [bind_pure_comp]
  rfl

theorem alone_discard (op : Operation α) (s : σ) :
    alone (discard op) s = ((alone op s).1.map fun _ => (), (alone op s).2) := by
  rw [discard_eq, alone_bind]
  rcases alone op s with ⟨_ | _, _⟩ <;> rfl

@[simp] theorem alone_check_ok (a : α) (s : σ) : alone (check (.ok a)) s = (.ok a, s) := rfl

/-- An attempt does not fail: its result says what became of it. -/
theorem alone_attempt (op : Operation α) (s : σ) :
    alone (attempt op) s = (.ok (alone op s).1, (alone op s).2) := by
  unfold alone attempt
  exact Program.run_bind _ _ _

/-- A call runs as one step; a fault of the store fails the operation. -/
theorem alone_call (c : Call) (s : σ) :
    alone (call c) s = ((Backend.step c s).1.mapError fun fault => .storage (.store fault),
      (Backend.step c s).2) := by
  unfold alone call
  simp only [ExceptT.run_mk, Program.run]
  rcases Backend.step c s with ⟨_ | _, _⟩ <;> rfl

end Shape

/-! ## Calls of a store in memory -/

section Memory

open MemoryStore

variable {s : MemoryStore} {key name : String}

/-- The failure of an operation whose call the store refuses. -/
def refusal (key : String) : GatewayError := .storage (.store (.wrongType key))

/-- A call that the store refuses fails the operation and changes nothing. -/
theorem alone_call_refused {c : Call} (h : s.Refuses c) :
    alone (call c) s = (.error (refusal c.key), s) := by
  rw [alone_call]
  change ((step c s).1.mapError _, (step c s).2) = _
  rw [step_refused h]
  rfl

theorem alone_get (h : s.TakesValue key) : alone (get key) s = (.ok (s.read (.value key)), s) := by
  unfold get
  rw [alone_call]
  change ((step _ s).1.mapError _, (step _ s).2) = _
  rw [step_get h]
  rfl

/-- A value is replaced where it is the expected one, and the answer tells. -/
theorem alone_compareAndSet (h : s.TakesValue key) (expected new : Option Bytes) :
    alone (compareAndSet key expected new) s =
      if s.read (.value key) = expected then (.ok true, s.write (.value key) new) else (.ok false, s) := by
  unfold compareAndSet
  rw [alone_call]
  change ((step _ s).1.mapError _, (step _ s).2) = _
  rw [step_compareAndSet h]
  split <;> rfl

theorem alone_hget (h : s.TakesFields key) :
    alone (hget key name) s = (.ok (s.read (.field key name)), s) := by
  unfold hget
  rw [alone_call]
  change ((step _ s).1.mapError _, (step _ s).2) = _
  rw [step_hget h]
  rfl

theorem alone_hset (h : s.TakesFields key) (value : Bytes) :
    alone (hset key name value) s = (.ok (), s.write (.field key name) (some value)) := by
  unfold hset
  rw [alone_call]
  change ((step _ s).1.mapError _, (step _ s).2) = _
  rw [step_hset h]
  rfl

/-- A field is written where it is absent, and the answer tells. -/
theorem alone_hsetIfAbsent (h : s.TakesFields key) (value : Bytes) :
    alone (hsetIfAbsent key name value) s =
      if s.read (.field key name) = none then (.ok true, s.write (.field key name) (some value))
      else (.ok false, s) := by
  unfold hsetIfAbsent
  rw [alone_call]
  change ((step _ s).1.mapError _, (step _ s).2) = _
  rw [step_hsetIfAbsent h]
  split <;> rfl

/-- A field is gone afterwards, and the answer tells whether it was there. -/
theorem alone_hdel (h : s.TakesFields key) :
    alone (hdel key name) s =
      (.ok (s.read (.field key name)).isSome, s.write (.field key name) none) := by
  unfold hdel
  rw [alone_call]
  change ((step _ s).1.mapError _, (step _ s).2) = _
  rw [step_hdel h]
  rfl

theorem alone_hkeys (h : s.TakesFields key) : alone (hkeys key) s = (.ok (s.fieldNames key), s) := by
  unfold hkeys
  rw [alone_call]
  change ((step _ s).1.mapError _, (step _ s).2) = _
  rw [step_hkeys h]
  rfl

theorem alone_delete (key : String) (s : MemoryStore) :
    alone (delete key) s = (.ok (s.slots.contains key), s.put key none) := rfl

end Memory

end Operation
end GatewayControl
