import GatewayControl.Proofs.Operation.Rounds
import GatewayControl.Proofs.Store.Reversal

/-!
# `GatewayControl.Proofs.Operation.Atomicity` -- operations that fail without a trace

`FailsInto P op t s` says where an operation that starts on `t` ends when it fails with an error of `P`: on
`s`. With `t = s` it is atomicity. The second store is what makes it compositional (`failsInto_bind`): an
operation that has written something goes on from another store than the one it has to give back, and has
to undo what it did before it may fail.

Everything here holds for every store whose changes can be taken back.
-/

namespace GatewayControl
namespace Operation

variable {α β σ : Type} [Backend σ] {P : GatewayError → Prop} {op : Operation α} {s t u : σ}

/-- Started on `t`, the operation leaves `s` if it fails with an error of `P`. -/
def FailsInto (P : GatewayError → Prop) (op : Operation α) (t s : σ) : Prop :=
  ∀ e u, alone op t = (.error e, u) → P e → u = s

theorem failsInto_of_ok {a : α} (h : alone op t = (.ok a, u)) : FailsInto P op t s := by
  intro e v hv
  rw [h] at hv
  cases hv

theorem failsInto_check (result : Except GatewayError α) (s : σ) : FailsInto P (check result) s s := by
  intro e u h
  cases result with
  | ok a => cases h
  | error e' =>
    cases h
    exact fun _ => rfl

theorem failsInto_throw (e : GatewayError) (s : σ) : FailsInto P (throw e : Operation α) s s :=
  failsInto_check (.error e) s

theorem failsInto_pure (a : α) (t s : σ) : FailsInto P (pure a : Operation α) t s :=
  failsInto_of_ok (alone_pure a t)

/-- What comes first fails into the store, and what follows does from wherever the first has left it. -/
theorem failsInto_bind {next : α → Operation β} (h : FailsInto P op t s)
    (hnext : ∀ a u, alone op t = (.ok a, u) → FailsInto P (next a) u s) :
    FailsInto P (op >>= next) t s := by
  intro e v hv
  rcases hop : alone op t with ⟨e' | a, u⟩
  · rw [alone_bind_error hop] at hv
    cases hv
    exact h e _ hop
  · rw [alone_bind_ok hop] at hv
    exact hnext a u hop e v hv

theorem failsInto_discard (h : FailsInto P op t s) : FailsInto P (discard op) t s := by
  intro e u hu
  rw [alone_discard] at hu
  rcases hop : alone op t with ⟨e' | a, v⟩ <;> rw [hop] at hu <;> cases hu
  exact h e _ hop

theorem failsInto_attempt (op : Operation α) (t s : σ) : FailsInto P (attempt op) t s :=
  failsInto_of_ok (alone_attempt op t)

/-! ## Operations that only look -/

/-- The operation leaves every store alone. -/
def LooksOnly (σ : Type) [Backend σ] (op : Operation α) : Prop := ∀ s : σ, (alone op s).2 = s

theorem looksOnly_check (result : Except GatewayError α) : LooksOnly σ (check result) := by
  intro s
  cases result <;> rfl

/-- Looks in sequence change nothing. -/
theorem looksOnly_bind {next : α → Operation β} (h : LooksOnly σ op)
    (hnext : ∀ a, LooksOnly σ (next a)) : LooksOnly σ (op >>= next) := by
  intro s
  have hs := h s
  rcases hop : alone op s with ⟨e | a, t⟩ <;> rw [hop] at hs
  · rw [alone_bind_error hop]
    exact hs
  · rw [alone_bind_ok hop, hnext a t]
    exact hs

theorem looksOnly_call {c : Call} (h : ∀ s : σ, (Backend.step c s).2 = s) : LooksOnly σ (call c) := by
  intro s
  rw [alone_call]
  exact h s

/-- After a look the store is the one before it. -/
theorem LooksOnly.eq_of_alone {result : Except GatewayError α} (h : LooksOnly σ op)
    (hop : alone op s = (result, t)) : t = s := by
  have hs := h s
  rwa [hop] at hs

/-- What follows a look starts on the store that was looked at. -/
theorem LooksOnly.failsInto_bind {next : α → Operation β} (h : LooksOnly σ op)
    (hnext : ∀ a, alone op s = (.ok a, s) → FailsInto P (next a) s s) :
    FailsInto P (op >>= next) s s := by
  refine Operation.failsInto_bind (fun e u hu _ => h.eq_of_alone hu) fun a u hu => ?_
  cases h.eq_of_alone hu
  exact hnext a hu

/-! ## Calls -/

/-- A call that was answered is one step. -/
theorem step_of_alone_call {c : Call} {a : c.Answer} (h : alone (call c) s = (.ok a, t)) :
    (Backend.step c s).1 = .ok a ∧ (Backend.step c s).2 = t := by
  rw [alone_call] at h
  rcases hstep : Backend.step c s with ⟨fault | b, u⟩ <;> rw [hstep] at h <;> cases h
  exact ⟨rfl, rfl⟩

theorem alone_call_of_step {c : Call} {a : c.Answer} (h : (Backend.step c s).1 = .ok a) :
    alone (call c) s = (.ok a, (Backend.step c s).2) := by
  rw [alone_call, h]
  rfl

/-- A call that fails does nothing. -/
theorem Reversible.failsInto_call (hσ : Reversible σ) (c : Call) (s : σ) : FailsInto P (call c) s s := by
  intro e u h _
  rw [alone_call] at h
  rcases hstep : (Backend.step c s).1 with fault | a <;> rw [hstep] at h
  · have hkept := hσ.refused c s fault hstep
    rw [hkept] at h
    cases h
    rfl
  · cases h

/-- A call does not fail with errors that are no faults of the store. -/
theorem failsInto_call_of_kind (h : ∀ e, P e → e.kind ≠ .storage) (c : Call) (t s : σ) :
    FailsInto P (call c) t s := by
  intro e u hu he
  rw [alone_call] at hu
  rcases hstep : (Backend.step c t).1 with fault | a <;> rw [hstep] at hu <;> cases hu
  exact absurd rfl (h _ he)

/-- A loop of conditional changes fails before it has changed anything, if what comes after the change
does not fail. -/
theorem Reversible.failsInto_swapRounds (hσ : Reversible σ) {key : String}
    {verdict : Option Bytes → Verdict α} {finish : Operation α}
    (hfinish : ∀ t s : σ, FailsInto P finish t s) (rounds : Nat) (s : σ) :
    FailsInto P (swapRounds key verdict finish rounds) s s := by
  induction rounds with
  | zero => exact failsInto_throw _ s
  | succ rounds ih =>
    rw [swapRounds]
    refine LooksOnly.failsInto_bind (looksOnly_call fun s => hσ.get s key) fun raw _ => ?_
    cases verdict raw with
    | answer result => exact failsInto_check result s
    | replace content =>
      refine failsInto_bind (Reversible.failsInto_call hσ _ s) fun changed u hu => ?_
      cases changed with
      | true => exact hfinish u s
      | false =>
        obtain ⟨hlost, hstep⟩ := step_of_alone_call hu
        rw [← hstep, hσ.lost_swap s key raw content hlost]
        exact ih

end Operation
end GatewayControl
