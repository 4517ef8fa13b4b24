import GatewayControl.Proofs.Operation.Alone

/-!
# `GatewayControl.Proofs.Operation.Interleaving` -- operations that take turns on one store

Any number of operations work on one store, each of its calls one atomic step, and a schedule says
whose turn it is: `Crowd.trace` is the run. A finished operation lets its turns pass, so a schedule
that goes on for ever covers all finite ones.

What an operation does late in a run is decided by the answers it had before. `Until` says so of the
tree of an operation: it makes calls of one kind only, until an exchange of a given kind has taken
place. `exists_exchange` carries this over to runs: whoever makes another call has had such an
exchange earlier, with the store as it was at that time. If what the exchange found has changed by
then, the operation was overtaken (`exists_overtaken`).
-/

namespace GatewayControl

variable {ι α β : Type}

namespace Program

/-- The call that a program makes next; none if it has ended. -/
def pending : Program α → Option Call
  | done _ => none
  | call c _ => some c
  | detach rest => rest.pending

/-- What is left of a program after its next call on a store. -/
def after (s : MemoryStore) : Program α → Program α
  | done a => done a
  | call c next => next (MemoryStore.step c s).1
  | detach rest => rest.after s

/-- The program makes calls of `P` only until an exchange of `A`; without one it ends in `Q`. -/
def Until (P : Call → Prop) (A : (c : Call) → c.Reply → Prop) (Q : α → Prop) : Program α → Prop
  | done a => Q a
  | call c next => P c ∧ ∀ reply, A c reply ∨ (next reply).Until P A Q
  | detach rest => rest.Until P A Q

variable {P P' : Call → Prop} {A A' : (c : Call) → c.Reply → Prop} {Q Q' : α → Prop} {R : β → Prop}

/-- What follows has to keep to the same calls, for every result that `Q` allows. -/
theorem Until.bind {p : Program α} {f : α → Program β} (h : p.Until P A Q)
    (hf : ∀ a, Q a → (f a).Until P A R) : (p.bind f).Until P A R := by
  induction p with
  | done a => exact hf a h
  | call c next ih => exact ⟨h.1, fun reply => (h.2 reply).imp_right (ih reply)⟩
  | detach rest ih => exact ih h

/-- The conditions on calls, exchanges and results can all be weakened. -/
theorem Until.mono {p : Program α} (h : p.Until P A Q) (hP : ∀ c, P c → P' c)
    (hA : ∀ c reply, A c reply → A' c reply) (hQ : ∀ a, Q a → Q' a) : p.Until P' A' Q' := by
  induction p with
  | done a => exact hQ a h
  | call c next ih => exact ⟨hP c h.1, fun reply => (h.2 reply).imp (hA c reply) (ih reply)⟩
  | detach rest ih => exact ih h

/-- The next call is one of `P`. -/
theorem Until.pending {p : Program α} (h : p.Until P A Q) {c : Call} (hc : p.pending = some c) :
    P c := by
  induction p with
  | done a => cases hc
  | call d next ih =>
    cases hc
    exact h.1
  | detach rest ih => exact ih h hc

/-- A step is an exchange of `A`, or leaves what was to be shown of the rest. -/
theorem Until.after {p : Program α} (h : p.Until P A Q) (s : MemoryStore) :
    (∃ c, p.pending = some c ∧ A c (MemoryStore.step c s).1) ∨ (p.after s).Until P A Q := by
  induction p with
  | done a => exact .inr h
  | call c next ih => exact (h.2 _).imp_left fun hA => ⟨c, rfl, hA⟩
  | detach rest ih => exact ih h

end Program

/-! ## Operations -/

namespace Operation

/-- The operation makes calls of `P` only until an exchange of `A`; a result that it returns without
one is in `Q`. -/
def Until (P : Call → Prop) (A : (c : Call) → c.Reply → Prop) (Q : α → Prop) (op : Operation α) :
    Prop :=
  Program.Until P A (fun result => ∀ a, result = .ok a → Q a) op.run

/-- The operation makes calls of `P` only. -/
def Only (P : Call → Prop) (op : Operation α) : Prop :=
  op.Until P (fun _ _ => False) fun _ => True

variable {P P' : Call → Prop} {A : (c : Call) → c.Reply → Prop} {Q Q' : α → Prop} {R : β → Prop}

theorem until_pure {a : α} (h : Q a) : (pure a : Operation α).Until P A Q := by
  intro b hb
  cases hb
  exact h

theorem until_throw (e : GatewayError) : (throw e : Operation α).Until P A Q := by
  intro a ha
  cases ha

theorem until_bind {op : Operation α} {next : α → Operation β} (h : op.Until P A Q)
    (hnext : ∀ a, Q a → (next a).Until P A R) : (op >>= next).Until P A R := by
  refine Program.Until.bind h ?_
  rintro (e | a) hresult
  · exact until_throw e
  · exact hnext a (hresult a rfl)

theorem until_check {result : Except GatewayError α} (h : ∀ a, result = .ok a → Q a) :
    (check result).Until P A Q := by
  cases result with
  | ok a => exact until_pure (h a rfl)
  | error e => exact until_throw e

/-- Every answer of the call is such an exchange, or a result that `Q` allows. -/
theorem until_call {c : Call} {Q : c.Answer → Prop} (hP : P c)
    (h : ∀ answer, A c (.ok answer) ∨ Q answer) : (call c).Until P A Q := by
  refine ⟨hP, ?_⟩
  rintro (fault | answer)
  · exact .inr (until_throw _)
  · exact (h answer).imp_right fun hQ => until_pure hQ

theorem until_get {key : String} {Q : Option Bytes → Prop} (hP : P (.get key))
    (h : ∀ raw, A (.get key) (.ok raw) ∨ Q raw) : (get key).Until P A Q :=
  until_call (c := .get key) hP h

theorem until_compareAndSet {key : String} {expected new : Option Bytes} {Q : Bool → Prop}
    (hP : P (.compareAndSet key expected new))
    (h : ∀ changed, A (.compareAndSet key expected new) (.ok changed) ∨ Q changed) :
    (compareAndSet key expected new).Until P A Q :=
  until_call (c := .compareAndSet key expected new) hP h

theorem until_hget {key field : String} {Q : Option Bytes → Prop} (hP : P (.hget key field))
    (h : ∀ raw, A (.hget key field) (.ok raw) ∨ Q raw) : (hget key field).Until P A Q :=
  until_call (c := .hget key field) hP h

theorem until_hsetIfAbsent {key field : String} {value : Bytes} {Q : Bool → Prop}
    (hP : P (.hsetIfAbsent key field value))
    (h : ∀ written, A (.hsetIfAbsent key field value) (.ok written) ∨ Q written) :
    (hsetIfAbsent key field value).Until P A Q :=
  until_call (c := .hsetIfAbsent key field value) hP h

/-- One call of `P` makes calls of `P` only. -/
theorem only_call {c : Call} (hP : P c) : (call c).Only P := until_call hP fun _ => .inr trivial

/-- Of an attempt `Q` is known if it has succeeded. -/
theorem until_attempt {op : Operation α} (h : op.Until P A Q) :
    (attempt op).Until P A fun result => ∀ a, result = .ok a → Q a := by
  refine Program.Until.bind h ?_
  intro result hresult
  exact until_pure hresult

theorem until_discard {op : Operation α} (h : op.Until P A Q) :
    (discard op).Until P A fun _ => True := by
  rw [discard_eq]
  exact until_bind h fun _ _ => until_pure trivial

theorem until_detached {op : Operation α} (h : op.Until P A Q) : (detached op).Until P A Q := h

theorem Until.mono_result {op : Operation α} (h : op.Until P A Q) (hQ : ∀ a, Q a → Q' a) :
    op.Until P A Q' :=
  Program.Until.mono h (fun _ => id) (fun _ _ => id) fun _ hresult a ha => hQ a (hresult a ha)

theorem only_bind {op : Operation α} {next : α → Operation β} (h : op.Only P)
    (hnext : ∀ a, (next a).Only P) : (op >>= next).Only P :=
  until_bind h fun a _ => hnext a

theorem only_pure (a : α) : (pure a : Operation α).Only P := until_pure trivial

theorem only_throw (e : GatewayError) : (throw e : Operation α).Only P := until_throw e

theorem only_discard {op : Operation α} (h : op.Only P) : (discard op).Only P := until_discard h

theorem only_attempt {op : Operation α} (h : op.Only P) : (attempt op).Only P :=
  Until.mono_result (until_attempt h) fun _ _ => trivial

theorem Only.mono {op : Operation α} (h : op.Only P) (hP : ∀ c, P c → P' c) : op.Only P' :=
  Program.Until.mono h hP (fun _ _ => id) fun _ => id

/-- What makes calls of `P` only does so until whatever happens. -/
theorem Only.until {op : Operation α} (h : op.Only P) : op.Until P A fun _ => True :=
  Program.Until.mono h (fun _ => id) (fun _ _ => False.elim) fun _ => id

end Operation

/-! ## Crowds -/

/-- Operations at work on one store, and what is left of each. -/
structure Crowd (ι α : Type) where
  store : MemoryStore
  rest : ι → Program α

namespace Crowd

variable [DecidableEq ι]

/-- The call that comes next when it is the turn of `i`. -/
def pending (crowd : Crowd ι α) (i : ι) : Option Call := (crowd.rest i).pending

/-- One operation makes its next call; it lets its turn pass if it has ended. -/
def step (crowd : Crowd ι α) (i : ι) : Crowd ι α where
  store :=
    match crowd.pending i with
    | some c => (MemoryStore.step c crowd.store).2
    | none => crowd.store
  rest := fun j => if j = i then (crowd.rest i).after crowd.store else crowd.rest j

/-- The crowd after the first turns of a schedule. -/
def trace (start : Crowd ι α) (schedule : Nat → ι) : Nat → Crowd ι α
  | 0 => start
  | n + 1 => (trace start schedule n).step (schedule n)

variable {start : Crowd ι α} {schedule : Nat → ι} {i : ι} {n : Nat}

/-- The call made in a turn is the one that answers at that time. -/
theorem store_trace_succ {c : Call} (h : (start.trace schedule n).pending (schedule n) = some c) :
    (start.trace schedule (n + 1)).store =
      (MemoryStore.step c (start.trace schedule n).store).2 := by
  rw [trace, step]
  simp only [h]

/-- In each step one operation makes a call, and the others wait. -/
theorem rest_trace_succ (start : Crowd ι α) (schedule : Nat → ι) (n : Nat) (i : ι) :
    (start.trace schedule (n + 1)).rest i =
      if i = schedule n then
        ((start.trace schedule n).rest i).after (start.trace schedule n).store
      else (start.trace schedule n).rest i := by
  rw [trace, step]
  simp only
  split
  · next h => rw [h]
  · rfl

/-- **Frame of a turn.** What changes in a turn is written by the call that was made. -/
theorem exists_writes {cell : Cell} (h : (start.trace schedule (n + 1)).store.read cell ≠
    (start.trace schedule n).store.read cell) :
    ∃ c, (start.trace schedule n).pending (schedule n) = some c ∧ c.Writes cell := by
  cases hc : (start.trace schedule n).pending (schedule n) with
  | none =>
    rw [trace, step] at h
    simp only [hc] at h
    exact absurd rfl h
  | some c =>
    refine ⟨c, rfl, ?_⟩
    rw [store_trace_succ hc] at h
    exact Classical.byContradiction fun hw => h (MemoryStore.read_step_of_not_writes hw _)

variable {P : Call → Prop} {A : (c : Call) → c.Reply → Prop} {Q : α → Prop}

/-- An operation has had its exchange, or still is as at the start. -/
theorem until_trace (h : (start.rest i).Until P A Q) (n : Nat) :
    (∃ j, j < n ∧ schedule j = i ∧ ∃ c, (start.trace schedule j).pending i = some c ∧
      A c (MemoryStore.step c (start.trace schedule j).store).1) ∨
    ((start.trace schedule n).rest i).Until P A Q := by
  induction n with
  | zero => exact .inr h
  | succ n ih =>
    rcases ih with ⟨j, hj, hexchange⟩ | hrest
    · exact .inl ⟨j, Nat.lt_succ_of_lt hj, hexchange⟩
    rw [rest_trace_succ]
    -- a turn of another operation leaves the rest of this one alone
    by_cases hi : i = schedule n
    · rw [if_pos hi]
      rcases hrest.after (start.trace schedule n).store with ⟨c, hc, hA⟩ | hafter
      · exact .inl ⟨n, Nat.lt_succ_self n, hi.symm, c, hc, hA⟩
      · exact .inr hafter
    · rw [if_neg hi]
      exact .inr hrest

/-- **Whoever goes beyond the calls of `P` has had an exchange of `A` before.** -/
theorem exists_exchange (start : Crowd ι α) (h : (start.rest i).Until P A Q) {c : Call}
    (hc : (start.trace schedule n).pending i = some c) (hP : ¬ P c) :
    ∃ j, j < n ∧ schedule j = i ∧ ∃ c, (start.trace schedule j).pending i = some c ∧
      A c (MemoryStore.step c (start.trace schedule j).store).1 := by
  rcases until_trace h n with hexchange | hrest
  · exact hexchange
  · exact absurd (hrest.pending hc) hP

/-- What makes calls of `P` only makes no other call in any run. -/
theorem pending_of_only {op : Operation β} {start : Crowd ι (Except GatewayError β)}
    (hop : start.rest i = op.run) (h : op.Only P) {c : Call}
    (hc : (start.trace schedule n).pending i = some c) : P c := by
  apply Classical.byContradiction
  intro hP
  have hrest : (start.rest i).Until P (fun _ _ => False) fun result => ∀ b, result = .ok b → True := by
    rw [hop]
    exact h
  obtain ⟨j, -, -, d, -, hfalse⟩ := exists_exchange start hrest hc hP
  exact hfalse

end Crowd

/-! ## Overtaken operations -/

/-- What holds now and did not hold earlier began at some time in between, and holds since. -/
theorem exists_last_change {V : Nat → Prop} {m n : Nat} (hmn : m ≤ n) (hm : ¬ V m) (hn : V n) :
    ∃ k, m ≤ k ∧ k < n ∧ ¬ V k ∧ ∀ l, k < l → l ≤ n → V l := by
  induction n with
  | zero =>
    have hzero : m = 0 := by omega
    exact absurd (hzero ▸ hn) hm
  | succ n ih =>
    have hle : m ≤ n := by
      apply Classical.byContradiction
      intro hlt
      have heq : m = n + 1 := by omega
      exact hm (heq ▸ hn)
    -- the change is the last turn, or lies before it
    by_cases hVn : V n
    · obtain ⟨k, hmk, hkn, hk, hsince⟩ := ih hle hVn
      refine ⟨k, hmk, by omega, hk, fun l hkl hln => ?_⟩
      by_cases hl : l = n + 1
      · exact hl ▸ hn
      · exact hsince l hkl (by omega)
    · refine ⟨n, hle, by omega, hVn, fun l hkl hln => ?_⟩
      have hl : l = n + 1 := by omega
      exact hl ▸ hn

namespace Crowd

variable [DecidableEq ι] {start : Crowd ι α} {schedule : Nat → ι} {n : Nat}

/-- The operation whose turn it is at `n` was overtaken: at `j` it made a call of `Passes`, at `k` the
turn of an operation of `Takes` brought about what `V` says of the store, and `V` has held since. -/
structure Overtaken (start : Crowd ι α) (schedule : Nat → ι) (Passes : ι → Call → MemoryStore → Prop)
    (Takes : ι → Prop) (V : MemoryStore → Prop) (n j k : Nat) : Prop where
  before : j < k
  after : k < n
  same : schedule j = schedule n
  passed : ∃ c, (start.trace schedule j).pending (schedule j) = some c ∧
    Passes (schedule j) c (start.trace schedule j).store
  taken : Takes (schedule k)
  began : ¬ V (start.trace schedule k).store
  since : ∀ m, k < m → m ≤ n → V (start.trace schedule m).store

/-- **Whoever acts on an outdated check was overtaken.** An operation makes a call beyond those of `P`
while `V` holds, after an exchange that left `V` false; so an operation that makes `V` true came
in between. -/
theorem exists_overtaken (start : Crowd ι α) {P : Call → Prop} {A : (c : Call) → c.Reply → Prop}
    {Q : α → Prop} {Passes : ι → Call → MemoryStore → Prop} {Takes : ι → Prop}
    {V : MemoryStore → Prop} (huntil : (start.rest (schedule n)).Until P A Q) {c : Call}
    (hc : (start.trace schedule n).pending (schedule n) = some c) (hP : ¬ P c)
    (hpass : ∀ j d, A d (MemoryStore.step d (start.trace schedule j).store).1 →
      Passes (schedule n) d (start.trace schedule j).store ∧
        ¬ V (MemoryStore.step d (start.trace schedule j).store).2)
    (htakes : ∀ k, ¬ V (start.trace schedule k).store → V (start.trace schedule (k + 1)).store →
      Takes (schedule k))
    (hV : V (start.trace schedule n).store) :
    ∃ j k, start.Overtaken schedule Passes Takes V n j k := by
  obtain ⟨j, hj, hsame, d, hpending, hexchange⟩ := start.exists_exchange huntil hc hP
  obtain ⟨hpassed, hfalse⟩ := hpass j d hexchange
  rw [← hsame] at hpending hpassed
  rw [← store_trace_succ hpending] at hfalse
  -- `V` was false right after the exchange and holds now
  obtain ⟨k, hjk, hkn, hk, hsince⟩ :=
    exists_last_change (V := fun m => V (start.trace schedule m).store) hj hfalse hV
  have htaken := htakes k hk (hsince (k + 1) (Nat.lt_succ_self k) hkn)
  exact ⟨j, k, hjk, hkn, hsame, ⟨d, hpending, hpassed⟩, htaken, hk, hsince⟩

end Crowd

end GatewayControl
