import GatewayControl.Proofs.Operation.Rounds

/-!
# `GatewayControl.Proofs.Operation.Disturbance` -- attempts that are disturbed, and made again

Two things can happen to an attempt at each of its calls: the call fails without reaching the store, or the
caller is dropped before it. Where an operation goes on by itself, a drop costs the answer and nothing else.
`Program.disturbed` is an attempt with whatever happens to it, as a function of the tree, and
`Operation.leftBy` is what a series of attempts leaves.

`Program.Survives` is a weakest precondition for such attempts: which stores they pass, and what their
answers say of the store that is left, whatever happens at their calls. `Operation.Endures` is the form of it
for operations that would succeed if nothing happened, with one rule for each form of an operation. An
operation that converges (`Operation.Converges`) endures on all stores that its own attempts can leave, and
always ends in the same one: it can be attempted again (`Converges.leftBy`) and gets there once nothing
happens (`Converges.alone`).
-/

namespace GatewayControl

open MemoryStore

variable {α β : Type}

/-- What can happen to an attempt at one of its calls. -/
inductive Mishap where
  /-- The call fails without reaching the store. -/
  | fault (fault : StoreFault)
  /-- The caller is dropped before the call. -/
  | drop
deriving DecidableEq, Repr

/-- What happens to an attempt, by the number of the call. -/
abbrev Mishaps := Nat → Option Mishap

/-- One of the calls fails with the fault. -/
def Mishaps.Brings (m : Mishaps) (fault : StoreFault) : Prop := ∃ n, m n = some (.fault fault)

/-- What becomes of an attempt. -/
structure Aftermath (α : Type) where
  /-- The answer, if the caller is still there to get it. -/
  answer : Option α
  /-- The store that is left. -/
  store : MemoryStore
  /-- The stores on the way, the first and the last one included. -/
  passed : List MemoryStore

/-- The same outcome of an attempt that has passed a store before. -/
def Aftermath.after (s : MemoryStore) (o : Aftermath α) : Aftermath α := { o with passed := s :: o.passed }

/-- Every store on the way satisfies `V`, and the answer tells `Q` of the store that is left. -/
structure Aftermath.Meets (V : MemoryStore → Prop) (Q : α → MemoryStore → Prop) (o : Aftermath α) : Prop where
  store : V o.store
  passed : ∀ u ∈ o.passed, V u
  answer : ∀ a, o.answer = some a → Q a o.store

theorem Aftermath.Meets.after {V : MemoryStore → Prop} {Q : α → MemoryStore → Prop} {o : Aftermath α}
    {s : MemoryStore} (h : o.Meets V Q) (hs : V s) : (o.after s).Meets V Q where
  store := h.store
  passed := fun u hu => (List.mem_cons.1 hu).elim (fun heq => heq ▸ hs) (h.passed u)
  answer := h.answer

namespace Program

/-- Makes an attempt at a program whose next call has number `n`. Where it has detached from its caller, it
goes on when the caller is dropped. -/
def disturbed (m : Mishaps) : Program α → Nat → Bool → MemoryStore → Aftermath α
  | done a, _, _, s => ⟨some a, s, [s]⟩
  | call c next, n, detached, s =>
    let answered : Aftermath α :=
      ((next (MemoryStore.step c s).1).disturbed m (n + 1) detached (MemoryStore.step c s).2).after s
    match m n, detached with
    | none, _ => answered
    | some (.fault fault), _ => ((next (.error fault)).disturbed m (n + 1) detached s).after s
    | some .drop, false => ⟨none, s, [s]⟩
    | some .drop, true => { answered with answer := none }
  | detach rest, n, _, s => rest.disturbed m n true s

/-- An attempt to which nothing happens is a run. -/
theorem disturbed_of_none (p : Program α) (n : Nat) (detached : Bool) (s : MemoryStore) :
    (p.disturbed (fun _ => none) n detached s).answer = some (p.run s).1 ∧
      (p.disturbed (fun _ => none) n detached s).store = (p.run s).2 := by
  induction p generalizing n detached s with
  | done a => exact ⟨rfl, rfl⟩
  | call c next ih => exact ih _ (n + 1) detached _
  | detach rest ih => exact ih n true s

variable {F : StoreFault → Prop} {V : MemoryStore → Prop} {Q : α → MemoryStore → Prop}
  {p : Program α} {s : MemoryStore}

/-- Whichever of its calls fail with faults of `F`, and wherever its caller is dropped, the program passes
stores of `V` only, and its answer tells `Q` of the store that it leaves. -/
def Survives (F : StoreFault → Prop) (V : MemoryStore → Prop) (Q : α → MemoryStore → Prop) :
    Program α → MemoryStore → Prop
  | done a, s => V s ∧ Q a s
  | call c next, s => V s ∧
      (next (MemoryStore.step c s).1).Survives F V Q (MemoryStore.step c s).2 ∧
      ∀ fault, F fault → (next (.error fault)).Survives F V Q s
  | detach rest, s => rest.Survives F V Q s

theorem Survives.bind {R : β → MemoryStore → Prop} {f : α → Program β} (h : p.Survives F V Q s)
    (hf : ∀ a t, V t → Q a t → (f a).Survives F V R t) : (p.bind f).Survives F V R s := by
  induction p generalizing s with
  | done a => exact hf a s h.1 h.2
  | call c next ih => exact ⟨h.1, ih _ h.2.1, fun fault hfault => ih _ (h.2.2 fault hfault)⟩
  | detach rest ih => exact ih h

theorem Survives.mono {Q' : α → MemoryStore → Prop} (h : p.Survives F V Q s)
    (hQ : ∀ a t, Q a t → Q' a t) : p.Survives F V Q' s := by
  rw [← p.bind_done]
  exact h.bind fun a t ht hresult => ⟨ht, hQ a t hresult⟩

/-- What a program survives it also survives in its attempts. -/
theorem Survives.disturbed {m : Mishaps} (h : p.Survives F V Q s) (hm : ∀ fault, m.Brings fault → F fault)
    (n : Nat) (detached : Bool) : (p.disturbed m n detached s).Meets V Q := by
  induction p generalizing s n detached with
  | done a =>
    refine ⟨h.1, fun u hu => ?_, fun b hb => ?_⟩
    · rw [List.mem_singleton.1 hu]
      exact h.1
    · rw [← Option.some.inj hb]
      exact h.2
  | call c next ih =>
    have hanswered := (ih _ h.2.1 (n + 1) detached).after h.1
    unfold Program.disturbed
    rcases hn : m n with _ | fault | _
    · exact hanswered
    · exact (ih _ (h.2.2 fault (hm fault ⟨n, hn⟩)) (n + 1) detached).after h.1
    cases detached with
    | false =>
      refine ⟨h.1, fun u hu => ?_, fun b hb => by cases hb⟩
      rw [List.mem_singleton.1 hu]
      exact h.1
    | true => exact ⟨hanswered.store, hanswered.passed, fun b hb => by cases hb⟩
  | detach rest ih => exact ih h n true

end Program

namespace Operation

/-- Makes an attempt at an operation. -/
def disturbed (op : Operation α) (m : Mishaps) (s : MemoryStore) : Aftermath (Except GatewayError α) :=
  op.run.disturbed m 0 false s

/-- What attempts leave that are made one after another. -/
def leftBy (op : Operation α) (attempts : List Mishaps) (s : MemoryStore) : MemoryStore :=
  attempts.foldl (fun s m => (op.disturbed m s).store) s

variable {F : StoreFault → Prop} {V E : MemoryStore → Prop} {op : Operation α} {s t u : MemoryStore}
  {a : α} {b : β}

/-- Whichever of its calls fail with faults of `F`, and wherever its caller is dropped, the operation passes
stores of `V` only, and its answer tells `Q` of the store that it leaves. -/
def Survives (F : StoreFault → Prop) (V : MemoryStore → Prop)
    (Q : Except GatewayError α → MemoryStore → Prop) (op : Operation α) (s : MemoryStore) : Prop :=
  op.run.Survives F V Q s

/-- The operation returns `a` and leaves `t`; or it answers with a fault that has befallen it, and leaves a
store of `E`. -/
def EndsIn (F : StoreFault → Prop) (E : MemoryStore → Prop) (a : α) (t : MemoryStore)
    (result : Except GatewayError α) (u : MemoryStore) : Prop :=
  result = .ok a ∧ u = t ∨ ∃ fault, F fault ∧ result = .error (.storage (.store fault)) ∧ E u

/-- Started on `s`, the operation would return `a` and leave `t`. Whatever happens to it instead, it passes
stores of `V` only, and fails in a store of `E`. -/
def Endures (F : StoreFault → Prop) (V E : MemoryStore → Prop) (op : Operation α) (s : MemoryStore) (a : α)
    (t : MemoryStore) : Prop :=
  op.Survives F V (EndsIn F E a t) s

/-! ## Forms of operations -/

theorem survives_throw {Q : Except GatewayError α → MemoryStore → Prop} {e : GatewayError} (hs : V s)
    (hQ : Q (.error e) s) : (throw e : Operation α).Survives F V Q s := ⟨hs, hQ⟩

/-- What follows has to survive every success; a failure is the failure of the whole. -/
theorem survives_bind {R : Except GatewayError α → MemoryStore → Prop}
    {Q : Except GatewayError β → MemoryStore → Prop} {next : α → Operation β} (h : op.Survives F V R s)
    (hok : ∀ a t, V t → R (.ok a) t → (next a).Survives F V Q t)
    (herror : ∀ e t, R (.error e) t → Q (.error e) t) : (op >>= next).Survives F V Q s := by
  refine Program.Survives.bind h fun result t ht hresult => ?_
  cases result with
  | ok a => exact hok a t ht hresult
  | error e => exact ⟨ht, herror e t hresult⟩

theorem endures_pure (a : α) (hs : V s) : (pure a : Operation α).Endures F V E s a s :=
  ⟨hs, .inl ⟨rfl, rfl⟩⟩

theorem endures_check {result : Except GatewayError α} (h : result = .ok a) (hs : V s) :
    (check result).Endures F V E s a s := by
  rw [h]
  exact endures_pure a hs

theorem endures_call {c : Call} {a : c.Answer} (h : alone (call c) s = (.ok a, t)) (hs : V s) (ht : V t)
    (hE : E s) : (call c).Endures F V E s a t := by
  refine ⟨hs, ?_, fun fault hfault => ⟨hs, .inr ⟨fault, hfault, rfl, hE⟩⟩⟩
  rw [alone_call] at h
  change ((MemoryStore.step c s).1.mapError _, (MemoryStore.step c s).2) = _ at h
  rcases hstep : MemoryStore.step c s with ⟨fault | answer, t'⟩ <;> rw [hstep] at h <;> cases h
  exact ⟨ht, .inl ⟨rfl, rfl⟩⟩

theorem endures_bind {next : α → Operation β} (h : op.Endures F V E s a t)
    (hnext : (next a).Endures F V E t b u) : (op >>= next).Endures F V E s b u := by
  refine survives_bind h (fun a' t' _ hends => ?_) fun e t' hends => ?_
  · rcases hends with ⟨heq, rfl⟩ | ⟨fault, -, heq, -⟩
    · cases heq
      exact hnext
    · cases heq
  · rcases hends with ⟨heq, -⟩ | ⟨fault, hfault, heq, hE⟩
    · cases heq
    · cases heq
      exact .inr ⟨fault, hfault, rfl, hE⟩

theorem endures_discard (h : op.Endures F V E s a t) (ht : V t) : (discard op).Endures F V E s () t := by
  rw [discard_eq]
  exact endures_bind h (endures_pure () ht)

theorem endures_detached (h : op.Endures F V E s a t) : (detached op).Endures F V E s a t := h

/-- What follows an attempted operation has to make do with every store in which that can fail. -/
theorem endures_attempt_bind {E' : MemoryStore → Prop} {next : Except GatewayError α → Operation β}
    (h : op.Endures F V E' s a t) (hok : (next (.ok a)).Endures F V E t b u)
    (herror : ∀ fault v, F fault → V v → E' v → (next (.error (.storage (.store fault)))).Survives F V
      (fun result w => result = .error (.storage (.store fault)) ∧ E w) v) :
    (attempt op >>= next).Endures F V E s b u := by
  have hrun : (attempt op >>= next).run = op.run.bind fun result => (next result).run :=
    Program.bind_bind _ _ _
  unfold Endures Survives
  rw [hrun]
  refine Program.Survives.bind h fun result v hv hends => ?_
  rcases hends with ⟨rfl, rfl⟩ | ⟨fault, hfault, rfl, hE⟩
  · exact hok
  · exact (herror fault v hfault hv hE).mono fun result w ⟨hresult, hw⟩ =>
      .inr ⟨fault, hfault, hresult, hw⟩

/-- Undoing fails silently, and what is reported is why there was something to undo. -/
theorem survives_undo (h : op.Endures F V E s a t) (ht : E t) (e : GatewayError) :
    (discard (attempt op) >>= fun _ => throw e : Operation β).Survives F V
      (fun result w => result = .error e ∧ E w) s := by
  have hrun : (discard (attempt op) >>= fun _ => throw e : Operation β).run =
      op.run.bind fun _ => .done (.error e) := by
    rw [discard_eq, bind_assoc]
    exact Program.bind_bind _ _ _
  unfold Survives
  rw [hrun]
  refine Program.Survives.bind h fun result v hv hends => ⟨hv, rfl, ?_⟩
  rcases hends with ⟨-, rfl⟩ | ⟨-, -, -, hE⟩
  · exact ht
  · exact hE

/-! ## Rounds -/

section Rounds

variable {key : String} {verdict : Option Bytes → Verdict β} {finish : Operation β}

/-- A loop that finds its answer in the value that it reads. -/
theorem endures_swapRounds_answer (ht : s.TakesValue key)
    (hverdict : verdict (s.read (.value key)) = .answer (.ok b)) (hs : V s) (hE : E s) (rounds : Nat) :
    (swapRounds key verdict finish (rounds + 1)).Endures F V E s b s := by
  rw [swapRounds]
  refine endures_bind (endures_call (alone_get ht) hs hs hE) ?_
  rw [hverdict]
  exact endures_pure b hs

/-- A loop that replaces the value. -/
theorem endures_swapRounds_replace (ht : s.TakesValue key) {content : Option Bytes}
    (hverdict : verdict (s.read (.value key)) = .replace content) (hs : V s) (hE : E s)
    (hfinish : finish.Endures F V E (s.write (.value key) content) b u)
    (hV : V (s.write (.value key) content)) (rounds : Nat) :
    (swapRounds key verdict finish (rounds + 1)).Endures F V E s b u := by
  have hswap : alone (compareAndSet key (s.read (.value key)) content) s =
      (.ok true, s.write (.value key) content) := by
    rw [alone_compareAndSet ht, if_pos rfl]
  rw [swapRounds]
  refine endures_bind (endures_call (alone_get ht) hs hs hE) ?_
  rw [hverdict]
  exact endures_bind (endures_call hswap hs hV hE) hfinish

end Rounds

/-! ## Repetition -/

/-- From every store of `V` the operation would return `a` and leave `f`, and whatever happens to it
instead, it passes stores of `V` only. -/
def Converges (V : MemoryStore → Prop) (op : Operation α) (a : α) (f : MemoryStore) : Prop :=
  ∀ F s, V s → op.Endures F V V s a f

namespace Converges

variable {f : MemoryStore}

theorem disturbed (h : op.Converges V a f) (hs : V s) (m : Mishaps) :
    (op.disturbed m s).Meets V (EndsIn m.Brings V a f) :=
  Program.Survives.disturbed (h m.Brings s hs) (fun _ hfault => hfault) 0 false

/-- Left alone, the operation succeeds. -/
theorem alone (h : op.Converges V a f) (hs : V s) : Operation.alone op s = (.ok a, f) := by
  obtain ⟨hanswer, hstore⟩ := op.run.disturbed_of_none 0 false s
  rcases (h.disturbed hs fun _ => none).answer _ hanswer with ⟨hok, hend⟩ | ⟨fault, ⟨n, hn⟩, -⟩
  · exact Prod.ext hok (hstore.symm.trans hend)
  · cases hn

/-- Attempts do not lead out of the stores on which the operation converges. -/
theorem leftBy (h : op.Converges V a f) (hs : V s) (attempts : List Mishaps) :
    V (op.leftBy attempts s) := by
  induction attempts generalizing s with
  | nil => exact hs
  | cons m attempts ih => exact ih (h.disturbed hs m).store

/-- A loop converges to the change that it makes, if on the changed value it would make the change again, or
have nothing to do. -/
theorem swapRounds {key : String} {verdict : Option Bytes → Verdict Unit} {content : Option Bytes}
    (ht : s.TakesValue key) (hverdict : verdict (s.read (.value key)) = .replace content)
    (hsettled : verdict content = .replace content ∨ verdict content = .answer (.ok ())) (rounds : Nat) :
    (swapRounds key verdict (pure ()) (rounds + 1)).Converges
      (fun u => u = s ∨ u = s.write (.value key) content) () (s.write (.value key) content) := by
  intro F u hu
  rcases hu with rfl | rfl
  · exact endures_swapRounds_replace ht hverdict (.inl rfl) (.inl rfl) (endures_pure () (.inr rfl))
      (.inr rfl) rounds
  -- the change is there already
  have htakes : s.Takes (.value key) := ht
  have hread : (s.write (.value key) content).read (.value key) = content := by
    rw [read_write _ htakes, if_pos rfl]
  have htakes' : (s.write (.value key) content).Takes (.value key) := takes_write _ htakes content
  generalize s.write (.value key) content = w at hread htakes' ⊢
  rw [← hread] at hsettled
  rcases hsettled with hsettled | hsettled
  · have hself : w.write (.value key) (w.read (.value key)) = w := write_eq_self _ htakes' rfl
    refine endures_swapRounds_replace htakes' hsettled (.inr rfl) (.inr rfl) ?_ ?_ rounds <;> rw [hself]
    · exact endures_pure () (.inr rfl)
    · exact .inr rfl
  · exact endures_swapRounds_answer htakes' hsettled (.inr rfl) (.inr rfl) rounds

end Converges

end Operation
end GatewayControl
