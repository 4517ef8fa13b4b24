import GatewayControl.Proofs.Operation.Rounds

/-!
# `GatewayControl.Proofs.Operation.Interruption` -- operations that do not come to their end

An operation that runs alone can end early in two ways: one of its store calls fails, or its caller
drops it between two calls. `Program.failAt` and `Program.dropAt` are these runs as functions of the
tree. An operation that hands every failing call on to its caller (`Operation.FailsFast`) leaves one of
the stores behind that it passes on its way (`Interrupted.of_passes`).
-/

namespace GatewayControl

variable {α β γ : Type}

namespace Program

/-- Runs a program alone, except that its call number `k` fails without reaching the store. -/
def failAt (fault : StoreFault) : Program α → Nat → MemoryStore → α × MemoryStore
  | done a, _, s => (a, s)
  | call _ next, 0, s => (next (.error fault)).run s
  | call c next, k + 1, s =>
    (next (MemoryStore.step c s).1).failAt fault k (MemoryStore.step c s).2
  | detach rest, k, s => rest.failAt fault k s

/-- Drops a program before its call number `k`, and tells what it leaves in the store. From where it
goes on by itself it cannot be dropped. -/
def dropAt : Program α → Nat → MemoryStore → MemoryStore
  | done _, _, s => s
  | call _ _, 0, s => s
  | call c next, k + 1, s => (next (MemoryStore.step c s).1).dropAt k (MemoryStore.step c s).2
  | detach rest, _, s => (rest.run s).2

/-- Running alone, the program finds and leaves stores of `V` only. -/
def Passes (V : MemoryStore → Prop) : Program α → MemoryStore → Prop
  | done _, s => V s
  | call c next, s => V s ∧ (next (MemoryStore.step c s).1).Passes V (MemoryStore.step c s).2
  | detach rest, s => rest.Passes V s

/-- A failing call ends the program, with the fault as its error. -/
def FailsFast : Program (Except GatewayError α) → Prop
  | done _ => True
  | call _ next =>
    (∀ fault, next (.error fault) = .done (.error (.storage (.store fault)))) ∧
      ∀ reply, (next reply).FailsFast
  | detach rest => rest.FailsFast

variable {V : MemoryStore → Prop} {p : Program α} {s : MemoryStore}

theorem Passes.last (h : p.Passes V s) : V (p.run s).2 := by
  induction p generalizing s with
  | done a => exact h
  | call c next ih => exact ih _ h.2
  | detach rest ih => exact ih h

/-- A weaker condition holds all the way as well. -/
theorem Passes.mono {W : MemoryStore → Prop} (h : p.Passes V s) (hW : ∀ t, V t → W t) :
    p.Passes W s := by
  induction p generalizing s with
  | done a => exact hW s h
  | call c next ih => exact ⟨hW s h.1, ih _ h.2⟩
  | detach rest ih => exact ih h

/-- What a dropped program leaves is one of the stores on its way. -/
theorem Passes.dropAt (h : p.Passes V s) (k : Nat) : V (p.dropAt k s) := by
  induction p generalizing s k with
  | done a => exact h
  | call c next ih =>
    cases k with
    | zero => exact h.1
    | succ k => exact ih _ h.2 k
  | detach rest ih =>
    have hlast : V (rest.run s).2 := Passes.last (p := rest) h
    exact hlast

/-- What every call of a program preserves holds all the way. -/
theorem passes_of_until {P : Call → Prop} {Q : α → Prop} (h : p.Until P (fun _ _ => False) Q)
    (hstep : ∀ c t, P c → V t → V (MemoryStore.step c t).2) (hs : V s) : p.Passes V s := by
  induction p generalizing s with
  | done a => exact hs
  | call c next ih =>
    have hnext := (h.2 (MemoryStore.step c s).1).resolve_left id
    exact ⟨hs, ih _ hnext (hstep c s h.1 hs)⟩
  | detach rest ih => exact ih h hs

/-- A sequence fails fast if its parts do and a failure of the first ends it. -/
theorem FailsFast.bind {p : Program (Except GatewayError α)}
    {f : Except GatewayError α → Program (Except GatewayError β)} (h : p.FailsFast)
    (herror : ∀ e, f (.error e) = .done (.error e)) (hok : ∀ a, (f (.ok a)).FailsFast) :
    (p.bind f).FailsFast := by
  induction p with
  | done result =>
    cases result with
    | error e =>
      show (f (.error e)).FailsFast
      rw [herror]
      exact trivial
    | ok a => exact hok a
  | call c next ih =>
    refine ⟨fun fault => ?_, fun reply => ih reply (h.2 reply)⟩
    show (next (.error fault)).bind f = _
    rw [h.1 fault]
    exact herror _
  | detach rest ih => exact ih h

/-- What a program leaves whose call fails is one of the stores on its way. -/
theorem Passes.failAt {p : Program (Except GatewayError α)} (h : p.Passes V s) (hfast : p.FailsFast)
    (fault : StoreFault) (k : Nat) : V (p.failAt fault k s).2 := by
  induction p generalizing s k with
  | done result => exact h
  | call c next ih =>
    cases k with
    | zero =>
      show V ((next (.error fault)).run s).2
      rw [hfast.1 fault]
      exact h.1
    | succ k => exact ih _ h.2 (hfast.2 _) k
  | detach rest ih => exact ih h hfast k

end Program

/-! ## Operations -/

namespace Operation

/-- Running alone, the operation finds and leaves stores of `V` only. -/
def Passes (V : MemoryStore → Prop) (op : Operation α) (s : MemoryStore) : Prop := op.run.Passes V s

/-- A failing call ends the operation, with the fault as its error. -/
def FailsFast (op : Operation α) : Prop := op.run.FailsFast

/-- The two ways in which an operation that runs alone can be interrupted: one of its calls fails, and
it answers with the fault; or it is dropped. -/
inductive Interrupted (op : Operation α) (s t : MemoryStore) : Prop where
  | failed (fault : StoreFault) (k : Nat)
      (h : op.run.failAt fault k s = (.error (.storage (.store fault)), t))
  | dropped (k : Nat) (h : op.run.dropAt k s = t)

variable {V : MemoryStore → Prop} {op : Operation α} {s t : MemoryStore} {key : String}
  {verdict : Option Bytes → Verdict α} {finish : Operation α}

/-- **What an interrupted operation leaves** is one of the stores on its way. -/
theorem Interrupted.of_passes (h : op.Interrupted s t) (hpasses : op.Passes V s)
    (hfast : op.FailsFast) : V t := by
  cases h with
  | failed fault k h =>
    have hleft := Program.Passes.failAt hpasses hfast fault k
    rw [h] at hleft
    exact hleft
  | dropped k h =>
    have hleft := Program.Passes.dropAt hpasses k
    rw [h] at hleft
    exact hleft

/-- Where every call that an operation makes preserves a condition, it holds all the way. -/
theorem passes_of_only {P : Call → Prop} (h : op.Only P)
    (hstep : ∀ c t, P c → V t → V (MemoryStore.step c t).2) (hs : V s) : op.Passes V s :=
  Program.passes_of_until h hstep hs

theorem failsFast_throw (e : GatewayError) : (throw e : Operation α).FailsFast := trivial

theorem failsFast_pure (a : α) : (pure a : Operation α).FailsFast := trivial

theorem failsFast_call (c : Call) : (call c).FailsFast := by
  refine ⟨fun _ => rfl, ?_⟩
  rintro (fault | answer)
  · exact trivial
  · exact trivial

theorem failsFast_bind {next : α → Operation β} (h : op.FailsFast)
    (hnext : ∀ a, (next a).FailsFast) : (op >>= next).FailsFast :=
  Program.FailsFast.bind h (fun _ => rfl) hnext

theorem failsFast_check (result : Except GatewayError α) : (check result).FailsFast := by
  cases result with
  | ok a => exact failsFast_pure a
  | error e => exact failsFast_throw e

theorem failsFast_discard (h : op.FailsFast) : (discard op).FailsFast := by
  rw [discard_eq]
  exact failsFast_bind h fun _ => failsFast_pure ()

/-! ## Rounds -/

/-- Rounds of a conditional change end with the first fault of the store. -/
theorem failsFast_swapRounds (hfinish : finish.FailsFast) (rounds : Nat) :
    (swapRounds key verdict finish rounds).FailsFast := by
  induction rounds with
  | zero => exact failsFast_throw _
  | succ rounds ih =>
    rw [swapRounds]
    refine failsFast_bind (failsFast_call (.get key)) fun raw => ?_
    cases verdict raw with
    | answer result => exact failsFast_check result
    | replace content =>
      refine failsFast_bind (failsFast_call (.compareAndSet key raw content)) fun changed => ?_
      cases changed with
      | true => exact hfinish
      | false => exact ih

/-- Running alone, the loop passes the store as it found it, and those of what follows the
replacement. -/
theorem passes_swapRounds (ht : s.TakesValue key) (hs : V s)
    (hfinish : ∀ content, verdict (s.read (.value key)) = .replace content →
      finish.Passes V (s.write (.value key) content)) (rounds : Nat) :
    (swapRounds key verdict finish (rounds + 1)).Passes V s := by
  unfold Passes
  rw [run_swapRounds_succ]
  refine ⟨hs, ?_⟩
  rw [MemoryStore.step_get ht]
  simp only
  cases hverdict : verdict (s.read (.value key)) with
  | answer result => exact hs
  | replace content =>
    refine ⟨hs, ?_⟩
    rw [MemoryStore.step_compareAndSet ht, if_pos rfl]
    exact hfinish content hverdict

end Operation
end GatewayControl
