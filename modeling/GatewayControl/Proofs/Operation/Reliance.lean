import GatewayControl.Proofs.Operation.Linearization

/-!
# `GatewayControl.Proofs.Operation.Reliance` -- operations that rely on each other

Operations that take turns on one store can be reasoned about one by one if they agree on what each may
count on: an invariant that every call keeps, and a way in which the store only ever moves on. An operation
obeys such an agreement (`Operation.Obeys`) if each of its calls keeps the invariant and moves the store on,
wherever the others have moved it in the meantime, and it ends with what was promised of its result. There
is one rule for each form of an operation; the rules for calls ask about one step.

`Crowd.obeys_trace` is the theorem about runs: if all operations of a crowd obey, the invariant holds all
along, and whoever has ended has kept its promise.
-/

namespace GatewayControl

open MemoryStore

variable {ι α β : Type}

/-- What operations that share a store count on. -/
structure Reliance where
  /-- What holds of the store at all times. -/
  Inv : MemoryStore → Prop
  /-- The store may have moved on from the first to the second. -/
  Later : MemoryStore → MemoryStore → Prop
  refl : ∀ s, Later s s
  trans : ∀ s t u, Later s t → Later t u → Later s u

namespace Reliance

/-- The call keeps the invariant and moves the store on. -/
structure Keeps (r : Reliance) (c : Call) (s : MemoryStore) : Prop where
  inv : r.Inv (MemoryStore.step c s).2
  later : r.Later s (MemoryStore.step c s).2

/-- What is so now and will be, however the store moves on. -/
def Always (r : Reliance) (Q : MemoryStore → Prop) (s : MemoryStore) : Prop :=
  ∀ t, r.Inv t → r.Later s t → Q t

variable {r : Reliance} {Q : MemoryStore → Prop} {s t : MemoryStore}

theorem Always.now (h : r.Always Q s) (hs : r.Inv s) : Q s := h s hs (r.refl s)

theorem Always.later (h : r.Always Q s) (hst : r.Later s t) : r.Always Q t :=
  fun u hu htu => h u hu (r.trans s t u hst htu)

end Reliance

namespace Program

variable {r : Reliance} {Q : α → MemoryStore → Prop} {s t : MemoryStore}

/-- Started on `s`, the program keeps to what the others count on, and ends with what `Q` says of its
result from then on. -/
def Obeys (r : Reliance) (Q : α → MemoryStore → Prop) : Program α → MemoryStore → Prop
  | done a, s => r.Always (Q a) s
  | call c next, s => ∀ t, r.Inv t → r.Later s t →
      r.Keeps c t ∧ (next (MemoryStore.step c t).1).Obeys r Q (MemoryStore.step c t).2
  | detach rest, s => rest.Obeys r Q s

/-- It does not matter when the program goes on. -/
theorem Obeys.later {p : Program α} (h : p.Obeys r Q s) (hst : r.Later s t) : p.Obeys r Q t := by
  induction p generalizing s t with
  | done a => exact Reliance.Always.later h hst
  | call c next ih => exact fun u hu htu => h u hu (r.trans s t u hst htu)
  | detach rest ih => exact ih h hst

theorem Obeys.mono {Q' : α → MemoryStore → Prop} {p : Program α} (h : p.Obeys r Q s)
    (hQ : ∀ a t, Q a t → Q' a t) : p.Obeys r Q' s := by
  induction p generalizing s with
  | done a => exact fun t ht hst => hQ a t (h t ht hst)
  | call c next ih =>
    intro t ht hst
    obtain ⟨hkeeps, hnext⟩ := h t ht hst
    exact ⟨hkeeps, ih _ hnext⟩
  | detach rest ih => exact ih h

/-- What follows starts where the promise of the result still holds. -/
theorem Obeys.bind {R : β → MemoryStore → Prop} {p : Program α} {f : α → Program β}
    (h : p.Obeys r Q s) (hs : r.Inv s)
    (hf : ∀ a t, r.Inv t → r.Always (Q a) t → (f a).Obeys r R t) : (p.bind f).Obeys r R s := by
  induction p generalizing s with
  | done a => exact hf a s hs h
  | call c next ih =>
    intro t ht hst
    obtain ⟨hkeeps, hnext⟩ := h t ht hst
    exact ⟨hkeeps, ih _ hnext hkeeps.inv⟩
  | detach rest ih => exact ih h hs

/-- What is left of the program after its next call obeys as well. -/
theorem Obeys.after {p : Program α} (h : p.Obeys r Q s) (hs : r.Inv s) :
    r.Inv (p.storeAfter s) ∧ r.Later s (p.storeAfter s) ∧ (p.after s).Obeys r Q (p.storeAfter s) := by
  induction p with
  | done a => exact ⟨hs, r.refl s, h⟩
  | call c next ih =>
    obtain ⟨hkeeps, hnext⟩ := h s hs (r.refl s)
    exact ⟨hkeeps.inv, hkeeps.later, hnext⟩
  | detach rest ih => exact ih h

theorem Obeys.result {p : Program α} {a : α} (h : p.Obeys r Q s) (hs : r.Inv s)
    (ha : p.result? = some a) : Q a s := by
  induction p with
  | done b =>
    cases ha
    exact Reliance.Always.now h hs
  | call c next ih => cases ha
  | detach rest ih => exact ih h ha

/-- A program whose calls keep to the agreement by their kind obeys it. -/
theorem Until.obeys {P : Call → Prop} {Q : α → Prop} {p : Program α}
    (h : p.Until P (fun _ _ => False) Q) (hP : ∀ c t, P c → r.Inv t → r.Keeps c t)
    (s : MemoryStore) : p.Obeys r (fun _ _ => True) s := by
  induction p generalizing s with
  | done a => exact fun _ _ _ => trivial
  | call c next ih =>
    intro t ht _
    exact ⟨hP c t h.1 ht, ih _ ((h.2 _).resolve_left id) _⟩
  | detach rest ih => exact ih h s

end Program

/-! ## Operations -/

namespace Operation

variable {r : Reliance} {Q : α → MemoryStore → Prop} {E : GatewayError → MemoryStore → Prop}
  {R : β → MemoryStore → Prop} {s : MemoryStore} {op : Operation α}

/-- What is promised of a result: `Q` of what an operation returns, `E` of the error that it fails with. -/
def Promise (Q : α → MemoryStore → Prop) (E : GatewayError → MemoryStore → Prop) :
    Except GatewayError α → MemoryStore → Prop
  | .ok a, s => Q a s
  | .error e, s => E e s

/-- Started on `s`, the operation keeps to what the others count on, and its result is as promised. -/
def Obeys (r : Reliance) (Q : α → MemoryStore → Prop) (E : GatewayError → MemoryStore → Prop)
    (op : Operation α) (s : MemoryStore) : Prop :=
  op.run.Obeys r (Promise Q E) s

theorem obeys_pure {a : α} (h : r.Always (Q a) s) : (pure a : Operation α).Obeys r Q E s := h

theorem obeys_throw {e : GatewayError} (h : r.Always (E e) s) : (throw e : Operation α).Obeys r Q E s := h

theorem obeys_bind {next : α → Operation β} (h : op.Obeys r Q E s) (hs : r.Inv s)
    (hnext : ∀ a t, r.Inv t → r.Always (Q a) t → (next a).Obeys r R E t) :
    (op >>= next).Obeys r R E s := by
  refine Program.Obeys.bind h hs ?_
  rintro (e | a) t ht halways
  · exact obeys_throw halways
  · exact hnext a t ht halways

/-- The result of an attempt tells which of the two promises holds. -/
theorem obeys_attempt (h : op.Obeys r Q E s) (hs : r.Inv s)
    {E' : GatewayError → MemoryStore → Prop} : (attempt op).Obeys r (Promise Q E) E' s := by
  refine Program.Obeys.bind h hs ?_
  intro result t _ halways
  exact halways

theorem obeys_detached (h : op.Obeys r Q E s) : (detached op).Obeys r Q E s := h

/-- A call that is always answered, whatever the others do before it. -/
theorem obeys_call {c : Call} {Q : c.Answer → MemoryStore → Prop}
    (h : ∀ t, r.Inv t → r.Later s t → ∃ answer u, MemoryStore.step c t = (.ok answer, u) ∧
      r.Inv u ∧ r.Later t u ∧ r.Always (Q answer) u) : (call c).Obeys r Q E s := by
  intro t ht hst
  obtain ⟨answer, u, hstep, hinv, hlater, halways⟩ := h t ht hst
  constructor
  · constructor
    · rw [hstep]
      exact hinv
    · rw [hstep]
      exact hlater
  · rw [hstep]
    exact halways

/-- A call that only looks. -/
theorem obeys_look {c : Call} {Q : c.Answer → MemoryStore → Prop}
    (h : ∀ t, r.Inv t → r.Later s t → ∃ answer, MemoryStore.step c t = (.ok answer, t) ∧
      r.Always (Q answer) t) : (call c).Obeys r Q E s := by
  refine obeys_call fun t ht hst => ?_
  obtain ⟨answer, hstep, halways⟩ := h t ht hst
  exact ⟨answer, t, hstep, ht, r.refl t, halways⟩

end Operation

/-! ## Crowds -/

namespace Crowd

variable [DecidableEq ι] {r : Reliance} {Q : ι → α → MemoryStore → Prop} {start : Crowd ι α}

/-- **A crowd that obeys.** In every run the invariant holds all along, and what is left of each operation
obeys as at the start. -/
theorem obeys_trace (hinv : r.Inv start.store)
    (h : ∀ i, (start.rest i).Obeys r (Q i) start.store) (schedule : Nat → ι) (n : Nat) :
    r.Inv (start.trace schedule n).store ∧
      ∀ i, ((start.trace schedule n).rest i).Obeys r (Q i) (start.trace schedule n).store := by
  induction n with
  | zero => exact ⟨hinv, h⟩
  | succ n ih =>
    obtain ⟨hinv, hall⟩ := ih
    obtain ⟨hinv', hlater, hafter⟩ := (hall (schedule n)).after hinv
    have hstore : (start.trace schedule (n + 1)).store =
        ((start.trace schedule n).rest (schedule n)).storeAfter (start.trace schedule n).store := rfl
    rw [hstore]
    refine ⟨hinv', fun i => ?_⟩
    rw [rest_trace_succ]
    split
    · next hi => exact hi ▸ hafter
    · exact (hall i).later hlater

end Crowd
end GatewayControl
