import GatewayControl.Proofs.Operation.Interleaving

/-!
# `GatewayControl.Proofs.Operation.Linearization` -- operations that take effect at one point

Operations that take turns on one store, seen through a part of it: an owner record, an entry, or the
whole store. `SequentialObject` says what each operation would do to that part in a single step. A
crowd is linearizable if the calls can be put in an order that respects real time and in which single
steps give every call its answer and the part its final contents (`Crowd.Linearization`).

What has to be shown of each operation is a property of its tree, `Program.TakesEffect`: on every path
there is one call at which the object changes as in the single step, and from there on the answer is
settled; an operation that gives up has no such call. `linearizable_of_atomically` is the theorem about
runs, by a step lemma for one turn (`Linearizing.turn`).
-/

namespace GatewayControl

variable {ι α σ : Type}

/-! ## Trees -/

/-- Answers can be compared. -/
instance decidableEqAnswer {ε β : Type} [DecidableEq ε] [DecidableEq β] : DecidableEq (Except ε β)
  | .error e, .error e' => decidable_of_iff (e = e') (by rw [Except.error.injEq])
  | .ok b, .ok b' => decidable_of_iff (b = b') (by rw [Except.ok.injEq])
  | .error _, .ok _ => isFalse nofun
  | .ok _, .error _ => isFalse nofun

namespace Program

/-- The result of a program that has ended. -/
def result? : Program α → Option α
  | done a => some a
  | call _ _ => none
  | detach rest => rest.result?

/-- The store after the next call of a program. -/
def storeAfter (s : MemoryStore) (p : Program α) : MemoryStore :=
  match p.pending with
  | some c => (MemoryStore.step c s).2
  | none => s

/-- On stores of `Inv`, the program leaves the view as it is and ends with an answer of `Q`. -/
def Settled (Inv : MemoryStore → Prop) (view : MemoryStore → σ) (Q : α → Prop) : Program α → Prop
  | done a => Q a
  | call c next => ∀ s, Inv s →
      view (MemoryStore.step c s).2 = view s ∧
        (next (MemoryStore.step c s).1).Settled Inv view Q
  | detach rest => rest.Settled Inv view Q

/-- On stores of `Inv`, the program leaves the view as it is until one of its calls does what `atomic`
says, which settles the answer. A program without such a call gives up. -/
def TakesEffect (Inv : MemoryStore → Prop) (view : MemoryStore → σ) (atomic : σ → α × σ)
    (GivesUp : α → Prop) : Program α → Prop
  | done a => GivesUp a
  | call c next => ∀ s, Inv s →
      (view (MemoryStore.step c s).2 = view s ∧
        (next (MemoryStore.step c s).1).TakesEffect Inv view atomic GivesUp) ∨
      (view (MemoryStore.step c s).2 = (atomic (view s)).2 ∧ ¬ GivesUp (atomic (view s)).1 ∧
        (next (MemoryStore.step c s).1).Settled Inv view (· = (atomic (view s)).1))
  | detach rest => rest.TakesEffect Inv view atomic GivesUp

/-- The program has ended before it made a call, as `atomic` would; or it takes effect in a call. -/
def Atomically (Inv : MemoryStore → Prop) (view : MemoryStore → σ) (atomic : σ → α × σ)
    (GivesUp : α → Prop) (p : Program α) : Prop :=
  (∃ a, p.result? = some a ∧ ¬ GivesUp a ∧ ∀ s, Inv s → atomic (view s) = (a, view s)) ∨
    p.TakesEffect Inv view atomic GivesUp

variable {Inv : MemoryStore → Prop} {view : MemoryStore → σ} {atomic : σ → α × σ}
  {GivesUp Q : α → Prop} {p : Program α} {a b : α} {s : MemoryStore}

theorem storeAfter_of_result? (h : p.result? = some a) (s : MemoryStore) : p.storeAfter s = s := by
  induction p with
  | done b => rfl
  | call c next ih => cases h
  | detach rest ih => exact ih h

theorem result?_after (h : p.result? = some a) (s : MemoryStore) : (p.after s).result? = some a := by
  induction p with
  | done b => exact h
  | call c next ih => cases h
  | detach rest ih => exact ih h

theorem settled_of_result? (h : p.result? = some a) (ha : Q a) : p.Settled Inv view Q := by
  induction p with
  | done b =>
    cases h
    exact ha
  | call c next ih => cases h
  | detach rest ih => exact ih h

theorem Settled.result (h : p.Settled Inv view Q) (ha : p.result? = some a) : Q a := by
  induction p with
  | done b =>
    cases ha
    exact h
  | call c next ih => cases ha
  | detach rest ih => exact ih h ha

/-- The next call of a settled program keeps the view and leaves it settled. -/
theorem Settled.after (h : p.Settled Inv view Q) (hs : Inv s) :
    view (p.storeAfter s) = view s ∧ (p.after s).Settled Inv view Q := by
  induction p with
  | done b => exact ⟨rfl, h⟩
  | call c next ih => exact h s hs
  | detach rest ih => exact ih h

/-- What follows a settled program is settled as well, if it is so for every result. -/
theorem Settled.bind {β : Type} {R : β → Prop} {f : α → Program β} (h : p.Settled Inv view Q)
    (hf : ∀ a, Q a → (f a).Settled Inv view R) : (p.bind f).Settled Inv view R := by
  induction p with
  | done a => exact hf a h
  | call c next ih => exact fun s hs => ⟨(h s hs).1, ih _ (h s hs).2⟩
  | detach rest ih => exact ih h

theorem Settled.mono {R : α → Prop} (h : p.Settled Inv view Q) (hQ : ∀ a, Q a → R a) :
    p.Settled Inv view R := by
  induction p with
  | done a => exact hQ a h
  | call c next ih => exact fun s hs => ⟨(h s hs).1, ih _ (h s hs).2⟩
  | detach rest ih => exact ih h

theorem TakesEffect.result (h : p.TakesEffect Inv view atomic GivesUp) (hb : p.result? = some b) :
    GivesUp b := by
  induction p with
  | done c =>
    cases hb
    exact h
  | call c next ih => cases hb
  | detach rest ih => exact ih h hb

/-- A step leaves the view alone, or is the one in which the program takes effect. -/
theorem TakesEffect.after (h : p.TakesEffect Inv view atomic GivesUp) (hs : Inv s) :
    (view (p.storeAfter s) = view s ∧ (p.after s).TakesEffect Inv view atomic GivesUp) ∨
      (p.result? = none ∧ view (p.storeAfter s) = (atomic (view s)).2 ∧
        ¬ GivesUp (atomic (view s)).1 ∧ (p.after s).Settled Inv view (· = (atomic (view s)).1)) := by
  induction p with
  | done b => exact .inl ⟨rfl, h⟩
  | call c next ih => exact (h s hs).imp_right fun heffect => ⟨rfl, heffect⟩
  | detach rest ih => exact ih h

end Program

/-! ## Operations that always succeed -/

namespace Operation

variable {β γ : Type} {Inv : MemoryStore → Prop} {view : MemoryStore → σ}

/-- On stores of `Inv`, the operation leaves the view as it is and does not fail. -/
def Quiet (Inv : MemoryStore → Prop) (view : MemoryStore → σ) (op : Operation β) : Prop :=
  op.run.Settled Inv view fun result => ∃ b, result = .ok b

theorem quiet_pure (b : β) : (pure b : Operation β).Quiet Inv view := ⟨b, rfl⟩

/-- A call is quiet if it is answered and keeps the view, on every store of the invariant. -/
theorem quiet_call {c : Call} (h : ∀ s, Inv s →
    view (MemoryStore.step c s).2 = view s ∧ ∃ answer, (MemoryStore.step c s).1 = .ok answer) :
    (call c).Quiet Inv view := by
  intro s hs
  obtain ⟨hview, answer, hanswer⟩ := h s hs
  refine ⟨hview, ?_⟩
  rw [hanswer]
  exact ⟨answer, rfl⟩

/-- Quiet operations in sequence are quiet. -/
theorem quiet_bind {op : Operation β} {next : β → Operation γ} (h : op.Quiet Inv view)
    (hnext : ∀ b, (next b).Quiet Inv view) : (op >>= next).Quiet Inv view := by
  refine Program.Settled.bind h ?_
  rintro result ⟨b, rfl⟩
  exact hnext b

theorem quiet_discard {op : Operation β} (h : op.Quiet Inv view) : (discard op).Quiet Inv view := by
  rw [discard_eq]
  exact quiet_bind h fun _ => quiet_pure ()

end Operation

/-! ## Objects and orders -/

/-- A part of the store as an object of its own, and what operations do to it in a single step. -/
structure SequentialObject (ι α σ : Type) where
  /-- What a store says about the object. -/
  view : MemoryStore → σ
  /-- The operations that work on the object. -/
  Uses : ι → Prop
  /-- The answer of an operation, and what it makes of the object. -/
  run : ι → σ → α × σ
  /-- The answers of an operation that has given up. -/
  GivesUp : ι → α → Prop

/-- Runs operations one at a time; the answers in order, and what becomes of the object. -/
def SequentialObject.replay (object : SequentialObject ι α σ) : List ι → σ → List (ι × α) × σ
  | [], v => ([], v)
  | i :: order, v =>
    let (a, v) := object.run i v
    let (answers, v) := object.replay order v
    ((i, a) :: answers, v)

namespace SequentialObject

variable (object : SequentialObject ι α σ)

/-- An order and what comes after it are replayed one after the other. -/
theorem replay_append (order more : List ι) (v : σ) :
    object.replay (order ++ more) v =
      ((object.replay order v).1 ++ (object.replay more (object.replay order v).2).1,
        (object.replay more (object.replay order v).2).2) := by
  induction order generalizing v with
  | nil => rfl
  | cons j order ih =>
    rw [List.cons_append]
    simp only [replay, ih]
    rfl

theorem replay_concat (order : List ι) (i : ι) (v : σ) :
    object.replay (order ++ [i]) v =
      ((object.replay order v).1 ++ [(i, (object.run i (object.replay order v).2).1)],
        (object.run i (object.replay order v).2).2) := object.replay_append order [i] v

/-- A longer order explains what a shorter one has explained. -/
theorem replay_prefix {order more : List ι} (h : order <+: more) (v : σ) :
    (object.replay order v).1 <+: (object.replay more v).1 := by
  obtain ⟨rest, rfl⟩ := h
  rw [object.replay_append]
  exact List.prefix_append _ _

/-- A replay answers the requests of the order, in this order. -/
theorem map_fst_replay (order : List ι) (v : σ) : (object.replay order v).1.map Prod.fst = order := by
  induction order generalizing v with
  | nil => rfl
  | cons j order ih =>
    simp only [replay, List.map_cons, ih]

end SequentialObject

namespace Crowd

variable [DecidableEq ι]

/-- The operation has had a turn before turn `n`. -/
def Started (schedule : Nat → ι) (n : Nat) (i : ι) : Prop := ∃ k, k < n ∧ schedule k = i

/-- The operation has started before turn `n`, and has ended with `a` by then. -/
def Answered (start : Crowd ι α) (schedule : Nat → ι) (n : Nat) (i : ι) (a : α) : Prop :=
  Started schedule n i ∧ ((start.trace schedule n).rest i).result? = some a

/-- The operation has started before turn `n`, and has not ended yet. -/
def Running (start : Crowd ι α) (schedule : Nat → ι) (n : Nat) (i : ι) : Prop :=
  Started schedule n i ∧ ((start.trace schedule n).rest i).result? = none

/-- In real time, `i` ended before `j` started. -/
def Precedes (start : Crowd ι α) (schedule : Nat → ι) (i j : ι) : Prop :=
  ∃ n a, start.Answered schedule n i a ∧ ¬ Started schedule n j

/-- **An order that explains a run up to turn `n`.** The operations of the order, run one at a time,
give the answers and the object of the run; what ended before another started stands before it; and
of the operations that have ended, those that have given up are left out, and no others. -/
structure Linearization (start : Crowd ι α) (schedule : Nat → ι) (n : Nat)
    (object : SequentialObject ι α σ) (order : List ι) : Prop where
  nodup : order.Nodup
  uses : ∀ i ∈ order, object.Uses i ∧ Started schedule n i
  realTime : order.Pairwise fun i j => ¬ start.Precedes schedule j i
  answers : ∀ i a, (i, a) ∈ (object.replay order (object.view start.store)).1 →
    ∀ b, start.Answered schedule n i b → b = a
  final : (object.replay order (object.view start.store)).2 =
    object.view (start.trace schedule n).store
  complete : ∀ i a, object.Uses i → start.Answered schedule n i a →
    (i ∈ order ↔ ¬ object.GivesUp i a)
  /-- Who is left out has not touched the object. -/
  unseen : ∀ i, object.Uses i → i ∉ order → ∀ k, k < n → schedule k = i →
    object.view (start.trace schedule (k + 1)).store = object.view (start.trace schedule k).store

section Turns

variable {start : Crowd ι α} {schedule : Nat → ι} {m n : Nat} {i j : ι} {a b : α}

omit [DecidableEq ι] in
theorem started_succ : Started schedule (n + 1) j ↔ Started schedule n j ∨ schedule n = j := by
  constructor
  · rintro ⟨k, hk, hj⟩
    by_cases hkn : k = n
    · exact .inr (hkn ▸ hj)
    · exact .inl ⟨k, by omega, hj⟩
  · rintro (⟨k, hk, hj⟩ | hj)
    · exact ⟨k, by omega, hj⟩
    · exact ⟨n, Nat.lt_succ_self n, hj⟩

omit [DecidableEq ι] in
theorem Started.mono (h : Started schedule m i) (hmn : m ≤ n) : Started schedule n i := by
  obtain ⟨k, hk, hi⟩ := h
  exact ⟨k, by omega, hi⟩

theorem store_trace_storeAfter (start : Crowd ι α) (schedule : Nat → ι) (n : Nat) :
    (start.trace schedule (n + 1)).store =
      ((start.trace schedule n).rest (schedule n)).storeAfter (start.trace schedule n).store := rfl

/-- Whoever has the turn makes a call on the store of the moment. -/
theorem rest_trace_self (start : Crowd ι α) (schedule : Nat → ι) (n : Nat) :
    (start.trace schedule (n + 1)).rest (schedule n) =
      ((start.trace schedule n).rest (schedule n)).after (start.trace schedule n).store := by
  rw [rest_trace_succ, if_pos rfl]

/-- Everyone else waits. -/
theorem rest_trace_of_ne (start : Crowd ι α) (h : i ≠ schedule n) :
    (start.trace schedule (n + 1)).rest i = (start.trace schedule n).rest i := by
  rw [rest_trace_succ, if_neg h]

/-- As long as an operation has no turn, it stays as it is. -/
theorem rest_trace_of_no_turn (start : Crowd ι α) (hmn : m ≤ n)
    (h : ∀ k, m ≤ k → k < n → schedule k ≠ i) :
    (start.trace schedule n).rest i = (start.trace schedule m).rest i := by
  induction n with
  | zero =>
    have hzero : m = 0 := by omega
    rw [hzero]
  | succ n ih =>
    by_cases hm : m = n + 1
    · rw [hm]
    · have hne : i ≠ schedule n := fun heq => h n (by omega) (Nat.lt_succ_self n) heq.symm
      rw [rest_trace_of_ne start hne]
      exact ih (by omega) fun k hmk hkn => h k hmk (by omega)

/-- Of an operation that had no turn all is left. -/
theorem rest_trace_of_not_started (start : Crowd ι α) (h : ¬ Started schedule n i) :
    (start.trace schedule n).rest i = start.rest i :=
  rest_trace_of_no_turn start (Nat.zero_le n) fun k _ hk hi => h ⟨k, hk, hi⟩

/-- An operation that has ended stays as it is. -/
theorem result?_trace (h : ((start.trace schedule m).rest i).result? = some a) (hmn : m ≤ n) :
    ((start.trace schedule n).rest i).result? = some a := by
  induction n with
  | zero =>
    have hzero : m = 0 := by omega
    exact hzero ▸ h
  | succ n ih =>
    by_cases hm : m = n + 1
    · exact hm ▸ h
    have hbefore := ih (by omega)
    by_cases hi : i = schedule n
    · subst hi
      rw [rest_trace_self]
      exact Program.result?_after hbefore _
    · rw [rest_trace_of_ne start hi]
      exact hbefore

/-- An answer is final. -/
theorem Answered.mono (h : start.Answered schedule m i a) (hmn : m ≤ n) :
    start.Answered schedule n i a :=
  ⟨h.1.mono hmn, result?_trace h.2 hmn⟩

end Turns

/-! ## One turn, and runs -/

variable {start : Crowd ι α} {schedule : Nat → ι} {n : Nat} {object : SequentialObject ι α σ}
  {Inv : MemoryStore → Prop} {order : List ι}

/-- What a turn keeps of an order: the operations in it are settled on their answers, and those that
have started without being in it have yet to take effect. -/
structure Linearizing (Inv : MemoryStore → Prop) (start : Crowd ι α) (schedule : Nat → ι) (n : Nat)
    (object : SequentialObject ι α σ) (order : List ι) : Prop where
  nodup : order.Nodup
  uses : ∀ i ∈ order, object.Uses i ∧ Started schedule n i
  realTime : order.Pairwise fun i j => ¬ start.Precedes schedule j i
  settled : ∀ i a, (i, a) ∈ (object.replay order (object.view start.store)).1 →
    ¬ object.GivesUp i a ∧ ((start.trace schedule n).rest i).Settled Inv object.view (· = a)
  final : (object.replay order (object.view start.store)).2 =
    object.view (start.trace schedule n).store
  waiting : ∀ i, object.Uses i → Started schedule n i → i ∉ order →
    ((start.trace schedule n).rest i).TakesEffect Inv object.view (object.run i) (object.GivesUp i)
  unseen : ∀ i, object.Uses i → i ∉ order → ∀ k, k < n → schedule k = i →
    object.view (start.trace schedule (k + 1)).store = object.view (start.trace schedule k).store

namespace Linearizing

theorem linearization (h : Linearizing Inv start schedule n object order) :
    start.Linearization schedule n object order where
  nodup := h.nodup
  uses := h.uses
  realTime := h.realTime
  answers := fun i a hmem b hb => (h.settled i a hmem).2.result hb.2
  final := h.final
  complete := by
    intro i a huses ha
    constructor
    · intro hmem
      rw [← object.map_fst_replay order (object.view start.store)] at hmem
      obtain ⟨⟨j, b⟩, hentry, hj⟩ := List.mem_map.1 hmem
      have hji : j = i := hj
      subst hji
      obtain ⟨hkept, hsettled⟩ := h.settled j b hentry
      have hab : a = b := hsettled.result ha.2
      rw [hab]
      exact hkept
    · intro hkept
      apply Classical.byContradiction
      intro hmem
      exact hkept ((h.waiting i huses ha.1 hmem).result ha.2)
  unseen := h.unseen

/-- A turn in which the object does not change and nobody takes effect keeps the order. -/
theorem keep (h : Linearizing Inv start schedule n object order)
    (hview : object.view (start.trace schedule (n + 1)).store =
      object.view (start.trace schedule n).store)
    (hin : ∀ a, ((start.trace schedule n).rest (schedule n)).Settled Inv object.view (· = a) →
      ((start.trace schedule (n + 1)).rest (schedule n)).Settled Inv object.view (· = a))
    (hout : object.Uses (schedule n) → schedule n ∉ order →
      ((start.trace schedule (n + 1)).rest (schedule n)).TakesEffect Inv object.view
        (object.run (schedule n)) (object.GivesUp (schedule n))) :
    Linearizing Inv start schedule (n + 1) object order where
  nodup := h.nodup
  uses := fun i hi => ⟨(h.uses i hi).1, (h.uses i hi).2.mono (Nat.le_succ n)⟩
  realTime := h.realTime
  settled := by
    intro i a hmem
    obtain ⟨hkept, hsettled⟩ := h.settled i a hmem
    refine ⟨hkept, ?_⟩
    by_cases hi : i = schedule n
    · subst hi
      exact hin a hsettled
    · rw [rest_trace_of_ne start hi]
      exact hsettled
  final := h.final.trans hview.symm
  waiting := by
    intro i huses hstarted hmem
    by_cases hi : i = schedule n
    · subst hi
      exact hout huses hmem
    · rw [rest_trace_of_ne start hi]
      have hbefore := (started_succ.1 hstarted).resolve_right fun heq => hi heq.symm
      exact h.waiting i huses hbefore hmem
  unseen := by
    intro i huses hmem k hk hi
    by_cases hkn : k = n
    · subst hkn
      exact hview
    · exact h.unseen i huses hmem k (by omega) hi

/-- A turn in which an operation takes effect puts it at the end of the order. -/
theorem append (h : Linearizing Inv start schedule n object order)
    (huses : object.Uses (schedule n)) (hmem : schedule n ∉ order)
    (hrunning : ∀ a, ¬ start.Answered schedule n (schedule n) a)
    (heffect : object.view (start.trace schedule (n + 1)).store =
      (object.run (schedule n) (object.view (start.trace schedule n).store)).2)
    (hkept : ¬ object.GivesUp (schedule n)
      (object.run (schedule n) (object.view (start.trace schedule n).store)).1)
    (hsettled : ((start.trace schedule (n + 1)).rest (schedule n)).Settled Inv object.view
      (· = (object.run (schedule n) (object.view (start.trace schedule n).store)).1)) :
    Linearizing Inv start schedule (n + 1) object (order ++ [schedule n]) where
  nodup := by
    rw [List.nodup_append]
    refine ⟨h.nodup, List.nodup_cons.2 ⟨List.not_mem_nil, List.nodup_nil⟩, ?_⟩
    intro i hi j hj hij
    rw [List.mem_singleton] at hj
    exact hmem (hj ▸ hij ▸ hi)
  uses := by
    intro i hi
    rcases List.mem_append.1 hi with hi | hi
    · exact ⟨(h.uses i hi).1, (h.uses i hi).2.mono (Nat.le_succ n)⟩
    · rw [List.mem_singleton.1 hi]
      exact ⟨huses, started_succ.2 (.inr rfl)⟩
  realTime := by
    rw [List.pairwise_append]
    refine ⟨h.realTime, List.pairwise_singleton _ _, ?_⟩
    -- who stands in the order has started, and the new operation has not ended before that
    intro i hi j hj
    rw [List.mem_singleton] at hj
    subst hj
    rintro ⟨m, a, hanswered, hlate⟩
    obtain ⟨k, hk, hki⟩ := (h.uses i hi).2
    have hmk : m ≤ k := Nat.le_of_not_lt fun hkm => hlate ⟨k, hkm, hki⟩
    exact hrunning a (hanswered.mono (by omega))
  settled := by
    intro i a hentry
    rw [object.replay_concat, h.final] at hentry
    rcases List.mem_append.1 hentry with hentry | hentry
    · have hne : i ≠ schedule n := by
        intro heq
        refine hmem ?_
        rw [← heq, ← object.map_fst_replay order (object.view start.store)]
        exact List.mem_map.2 ⟨(i, a), hentry, rfl⟩
      rw [rest_trace_of_ne start hne]
      exact h.settled i a hentry
    · have heq := List.mem_singleton.1 hentry
      rw [Prod.mk.injEq] at heq
      obtain ⟨rfl, rfl⟩ := heq
      exact ⟨hkept, hsettled⟩
  final := by
    rw [object.replay_concat, h.final, heffect]
  waiting := by
    intro i hi hstarted hout
    have hne : i ≠ schedule n := fun heq =>
      hout (List.mem_append_right order (List.mem_singleton.2 heq))
    rw [rest_trace_of_ne start hne]
    have hbefore := (started_succ.1 hstarted).resolve_right fun heq => hne heq.symm
    exact h.waiting i hi hbefore fun hin => hout (List.mem_append_left _ hin)
  unseen := by
    intro i hi hout k hk hki
    by_cases hkn : k = n
    · subst hkn
      exact absurd (List.mem_append_right order (List.mem_singleton.2 hki.symm)) hout
    · exact h.unseen i hi (fun hin => hout (List.mem_append_left _ hin)) k (by omega) hki

/-- **One turn** keeps the order, or puts the operation whose turn it is at its end. -/
theorem turn (h : Linearizing Inv start schedule n object order)
    (hinv : Inv (start.trace schedule n).store)
    (hother : ¬ object.Uses (schedule n) → object.view (start.trace schedule (n + 1)).store =
      object.view (start.trace schedule n).store)
    (hatomic : object.Uses (schedule n) → (start.rest (schedule n)).Atomically Inv object.view
      (object.run (schedule n)) (object.GivesUp (schedule n))) :
    ∃ order', (order' = order ∨ order' = order ++ [schedule n]) ∧
      Linearizing Inv start schedule (n + 1) object order' := by
  have hin : ∀ a, ((start.trace schedule n).rest (schedule n)).Settled Inv object.view (· = a) →
      ((start.trace schedule (n + 1)).rest (schedule n)).Settled Inv object.view (· = a) := by
    intro a hsettled
    rw [rest_trace_self]
    exact (hsettled.after hinv).2
  by_cases hunused : ¬ object.Uses (schedule n)
  · exact ⟨order, .inl rfl, h.keep (hother hunused) hin fun huses => absurd huses hunused⟩
  have huses := Classical.not_not.1 hunused
  by_cases hmem : schedule n ∈ order
  · -- the operation has taken effect already
    rw [← object.map_fst_replay order (object.view start.store)] at hmem
    obtain ⟨⟨i, a⟩, hentry, hi⟩ := List.mem_map.1 hmem
    have hi' : i = schedule n := hi
    subst hi'
    have hview := ((h.settled _ a hentry).2.after hinv).1
    rw [object.map_fst_replay] at hmem
    exact ⟨order, .inl rfl, h.keep hview hin fun _ hout => absurd hmem hout⟩
  -- the operation waits, or this is its first turn
  by_cases hdone : ∃ a, ¬ Started schedule n (schedule n) ∧
      (start.rest (schedule n)).result? = some a ∧ ¬ object.GivesUp (schedule n) a ∧
      ∀ s, Inv s → object.run (schedule n) (object.view s) = (a, object.view s)
  · obtain ⟨a, hfirst, hresult, hkept, hrun⟩ := hdone
    have hrest : (start.trace schedule n).rest (schedule n) = start.rest (schedule n) :=
      rest_trace_of_not_started start hfirst
    have hstore : (start.trace schedule (n + 1)).store = (start.trace schedule n).store := by
      rw [store_trace_storeAfter, hrest]
      exact Program.storeAfter_of_result? hresult _
    have hsettled : ((start.trace schedule (n + 1)).rest (schedule n)).Settled Inv object.view (· = a) := by
      rw [rest_trace_self, hrest]
      exact Program.settled_of_result? (Program.result?_after hresult _) rfl
    refine ⟨order ++ [schedule n], .inr rfl, h.append huses hmem ?_ ?_ ?_ ?_⟩
    · exact fun b hb => hfirst hb.1
    · rw [hrun _ hinv, hstore]
    · rw [hrun _ hinv]
      exact hkept
    · rw [hrun _ hinv]
      exact hsettled
  · have hwaiting : ((start.trace schedule n).rest (schedule n)).TakesEffect Inv object.view
        (object.run (schedule n)) (object.GivesUp (schedule n)) := by
      by_cases hstarted : Started schedule n (schedule n)
      · exact h.waiting _ huses hstarted hmem
      · rw [rest_trace_of_not_started start hstarted]
        rcases hatomic huses with ⟨a, hresult, hkept, hrun⟩ | heffect
        · exact absurd ⟨a, hstarted, hresult, hkept, hrun⟩ hdone
        · exact heffect
    rcases hwaiting.after hinv with ⟨hview, hafter⟩ | ⟨hpending, heffect, hkept, hsettled⟩
    · refine ⟨order, .inl rfl, h.keep hview hin fun _ _ => ?_⟩
      rw [rest_trace_self]
      exact hafter
    · refine ⟨order ++ [schedule n], .inr rfl, h.append huses hmem ?_ heffect hkept ?_⟩
      · intro a ha
        rw [ha.2] at hpending
        cases hpending
      · rw [rest_trace_self]
        exact hsettled

end Linearizing

/-- Each turn adds at most the operation that has it. -/
def Grows (schedule : Nat → ι) (order : Nat → List ι) : Prop :=
  ∀ n, order (n + 1) = order n ∨ order (n + 1) = order n ++ [schedule n]

/-- **Linearizability**: orders explain the run up to each turn, and they grow with the run, so the
point at which an operation takes effect lies between its start and its end. -/
def Linearizable (start : Crowd ι α) (schedule : Nat → ι) (object : SequentialObject ι α σ) : Prop :=
  ∃ order : Nat → List ι, Grows schedule order ∧
    ∀ n, start.Linearization schedule n object (order n)

/-- **Runs are linearizable** if every operation on the object ends before it makes a call, as in the
single step, or takes effect in one of its calls, and all others leave the object alone. -/
theorem linearizable_of_atomically (start : Crowd ι α) (schedule : Nat → ι)
    (object : SequentialObject ι α σ)
    (hinv : ∀ n, Inv (start.trace schedule n).store)
    (hother : ∀ n, ¬ object.Uses (schedule n) →
      object.view (start.trace schedule (n + 1)).store = object.view (start.trace schedule n).store)
    (hatomic : ∀ i, object.Uses i →
      (start.rest i).Atomically Inv object.view (object.run i) (object.GivesUp i)) :
    start.Linearizable schedule object := by
  have hfirst : Linearizing Inv start schedule 0 object [] := by
    have hnone : ∀ i, ¬ Started schedule 0 i := by
      rintro i ⟨k, hk, -⟩
      exact absurd hk (Nat.not_lt_zero k)
    exact ⟨List.nodup_nil, fun i hi => absurd hi List.not_mem_nil, List.Pairwise.nil,
      fun i a hi => absurd hi List.not_mem_nil, rfl, fun i _ hi => absurd hi (hnone i),
      fun i _ _ k hk => absurd hk (Nat.not_lt_zero k)⟩
  have hnext : ∀ n (o : { order // Linearizing Inv start schedule n object order }),
      ∃ o' : { order // Linearizing Inv start schedule (n + 1) object order },
        o'.1 = o.1 ∨ o'.1 = o.1 ++ [schedule n] := by
    intro n o
    obtain ⟨order, hgrows, h⟩ := o.2.turn (hinv n) (hother n) (hatomic (schedule n))
    exact ⟨⟨order, h⟩, hgrows⟩
  let orders : ∀ n, { order // Linearizing Inv start schedule n object order } :=
    Nat.rec ⟨[], hfirst⟩ fun n o => Classical.choose (hnext n o)
  refine ⟨fun n => (orders n).1, fun n => ?_, fun n => (orders n).2.linearization⟩
  exact Classical.choose_spec (hnext n (orders n))

/-- In turn `k`, the operation did in one step what the object says, which includes its answer `a`; it
has not touched the object in any other turn. -/
structure EffectAt (start : Crowd ι α) (schedule : Nat → ι) (object : SequentialObject ι α σ) (i : ι)
    (a : α) (k : Nat) : Prop where
  own : schedule k = i
  effect : object.run i (object.view (start.trace schedule k).store) =
    (a, object.view (start.trace schedule (k + 1)).store)
  unchanged : ∀ l, l ≠ k → schedule l = i →
    object.view (start.trace schedule (l + 1)).store = object.view (start.trace schedule l).store

section Effect

variable {order : Nat → List ι} {k : Nat}

omit [DecidableEq ι] in
theorem Grows.prefix_of_le (h : Grows schedule order) (hkn : k ≤ n) : order k <+: order n := by
  induction n with
  | zero =>
    have hzero : k = 0 := by omega
    subst hzero
    exact List.prefix_refl _
  | succ n ih =>
    by_cases hk : k = n + 1
    · subst hk
      exact List.prefix_refl _
    have hbefore := ih (by omega)
    rcases h n with hsame | happend
    · rw [hsame]
      exact hbefore
    · rw [happend]
      exact hbefore.trans (List.prefix_append _ _)

omit [DecidableEq ι] in
/-- An operation enters the order in one of its own turns. -/
theorem Grows.exists_append (h : Grows schedule order) (hzero : order 0 = []) (hi : i ∈ order n) :
    ∃ k, k < n ∧ schedule k = i ∧ order (k + 1) = order k ++ [i] := by
  induction n with
  | zero =>
    rw [hzero] at hi
    cases hi
  | succ n ih =>
    by_cases hmem : i ∈ order n
    · obtain ⟨k, hk, hown, happend⟩ := ih hmem
      exact ⟨k, by omega, hown, happend⟩
    rcases h n with hsame | happend
    · rw [hsame] at hi
      exact absurd hi hmem
    · have hown : schedule n = i := by
        rw [happend] at hi
        rcases List.mem_append.1 hi with hi | hi
        · exact absurd hi hmem
        · exact (List.mem_singleton.1 hi).symm
      exact ⟨n, Nat.lt_succ_self n, hown, hown ▸ happend⟩

omit [DecidableEq ι] in
/-- It enters the order once. -/
theorem Grows.eq_of_append (h : Grows schedule order) (hnodup : ∀ n, (order n).Nodup) {l : Nat}
    (hk : order (k + 1) = order k ++ [i]) (hl : order (l + 1) = order l ++ [i]) : l = k := by
  have hlast : ∀ {m}, order (m + 1) = order m ++ [i] → i ∈ order (m + 1) ∧ i ∉ order m := by
    intro m hm
    have hnd := hnodup (m + 1)
    rw [hm, List.nodup_append] at hnd
    constructor
    · rw [hm]
      exact List.mem_append_right _ (List.mem_singleton.2 rfl)
    · exact fun hin => hnd.2.2 i hin i (List.mem_singleton.2 rfl) rfl
  rcases Nat.lt_trichotomy l k with hlk | hlk | hkl
  · exact absurd ((h.prefix_of_le hlk).subset (hlast hl).1) (hlast hk).2
  · exact hlk
  · exact absurd ((h.prefix_of_le hkl).subset (hlast hk).1) (hlast hl).2

/-- **Who does not give up has taken effect at one of its turns.** -/
theorem Linearizable.exists_effect (h : start.Linearizable schedule object) (huses : object.Uses i)
    (hanswered : start.Answered schedule n i a) (hkept : ¬ object.GivesUp i a) :
    ∃ k, k < n ∧ start.EffectAt schedule object i a k := by
  obtain ⟨order, hgrows, horder⟩ := h
  have hzero : order 0 = [] := by
    refine List.eq_nil_iff_forall_not_mem.2 fun j hj => ?_
    obtain ⟨k, hk, -⟩ := ((horder 0).uses j hj).2
    exact Nat.not_lt_zero k hk
  have hmem : i ∈ order n := ((horder n).complete i a huses hanswered).2 hkept
  obtain ⟨k, hk, hown, happend⟩ := hgrows.exists_append hzero hmem
  refine ⟨k, hk, hown, ?_, ?_⟩
  · have hfinal := (horder (k + 1)).final
    have hentry : (i, (object.run i (object.view (start.trace schedule k).store)).1) ∈
        (object.replay (order (k + 1)) (object.view start.store)).1 := by
      rw [happend, object.replay_concat, (horder k).final]
      exact List.mem_append_right _ (List.mem_singleton.2 rfl)
    have hexplained := (object.replay_prefix (hgrows.prefix_of_le hk) _).subset hentry
    have hanswer := (horder n).answers i _ hexplained a hanswered
    rw [happend, object.replay_concat, (horder k).final] at hfinal
    exact Prod.ext hanswer.symm hfinal
  · -- a turn that does not add to the order leaves the object as it was
    intro l hl hli
    rcases hgrows l with hsame | happend'
    · rw [← (horder (l + 1)).final, ← (horder l).final, hsame]
    · rw [hli] at happend'
      exact absurd (hgrows.eq_of_append (fun n => (horder n).nodup) happend happend') hl

end Effect

end Crowd
end GatewayControl
