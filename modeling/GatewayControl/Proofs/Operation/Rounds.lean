import GatewayControl.Proofs.Operation.Alone
import GatewayControl.Proofs.Operation.Contention

/-!
# `GatewayControl.Proofs.Operation.Rounds` -- read, check, swap

The authorities change a plain value in rounds: a round reads the value, decides what to do with it,
and replaces it on the condition that it has not changed since. Whoever loses the race starts
another round, and gives up after a few of them. `swapRounds` is that loop, with the decision as a
parameter; `run_swapRounds_succ` is the tree of one round, and `alone_swapRounds` what the loop does
when nobody interferes.

Among others, the loop takes effect in the read that settles its answer, or in the replacement that
succeeds (`SwapsAtOnce.takesEffect`). The value may have changed and changed back since the read: what
was decided is what would be decided now, since it depends on the value alone. And each round that is
lost has seen the value change (`SwapsAtOnce.starved`).
-/

namespace GatewayControl

variable {β γ : Type}

/-- What a round makes of the value that it has read. -/
inductive Verdict (β : Type) where
  /-- The operation ends with this result. -/
  | answer (result : Except GatewayError β)
  /-- The value is to be replaced, or removed. -/
  | replace (content : Option Bytes)

/-- The same decision for an operation whose result is passed through a function. -/
def Verdict.map (f : β → γ) : Verdict β → Verdict γ
  | answer result => answer (result.map f)
  | replace content => replace content

namespace Operation

/-- Rounds of a conditional change of a plain value. Who has replaced the value goes on with
`finish`. -/
def swapRounds (key : String) (verdict : Option Bytes → Verdict β) (finish : Operation β) :
    Nat → Operation β
  | 0 => throw (.storage (.contended key))
  | rounds + 1 => do
    let raw ← get key
    match verdict raw with
    | .answer result => check result
    | .replace content =>
      if ← compareAndSet key raw content then finish else swapRounds key verdict finish rounds

variable {key : String} {verdict : Option Bytes → Verdict β} {finish : Operation β} {rounds : Nat}
  {s : MemoryStore}

/-- A loop of this shape is one of `swapRounds`. -/
theorem eq_swapRounds {loop : Nat → Operation β} (hzero : loop 0 = throw (.storage (.contended key)))
    (hsucc : ∀ rounds, loop (rounds + 1) = get key >>= fun raw =>
      match verdict raw with
      | .answer result => check result
      | .replace content =>
        compareAndSet key raw content >>= fun changed => if changed then finish else loop rounds)
    (rounds : Nat) : loop rounds = swapRounds key verdict finish rounds := by
  induction rounds with
  | zero => exact hzero
  | succ rounds ih => rw [hsucc, ih, swapRounds]

/-- The tree of one round. -/
theorem run_swapRounds_succ (key : String) (verdict : Option Bytes → Verdict β)
    (finish : Operation β) (rounds : Nat) :
    (swapRounds key verdict finish (rounds + 1)).run =
      .call (.get key) fun
        | .error fault => .done (.error (.storage (.store fault)))
        | .ok raw =>
          match verdict raw with
          | .answer result => .done result
          | .replace content =>
            .call (.compareAndSet key raw content) fun
              | .error fault => .done (.error (.storage (.store fault)))
              | .ok true => finish.run
              | .ok false => (swapRounds key verdict finish rounds).run := by
  rw [swapRounds]
  show Program.call (.get key) _ = _
  congr 1
  funext reply
  cases reply with
  | error fault => rfl
  | ok raw =>
    show (match verdict raw with
      | .answer result => check result
      | .replace content => _ : Operation β).run = _
    dsimp only
    cases verdict raw with
    | answer result =>
      cases result with
      | ok b => rfl
      | error e => rfl
    | replace content =>
      show Program.call (.compareAndSet key raw content) _ = Program.call _ _
      congr 1
      funext reply
      cases reply with
      | error fault => rfl
      | ok changed =>
        cases changed with
        | true => rfl
        | false => rfl

/-- Passing the result through a function passes the answers of the rounds through it. -/
theorem map_swapRounds (f : β → γ) (key : String) (verdict : Option Bytes → Verdict β)
    (finish : Operation β) (rounds : Nat) :
    f <$> swapRounds key verdict finish rounds =
      swapRounds key (fun raw => (verdict raw).map f) (f <$> finish) rounds := by
  induction rounds with
  | zero => rfl
  | succ rounds ih =>
    rw [swapRounds, swapRounds, map_bind]
    congr 1
    funext raw
    cases verdict raw with
    | answer result =>
      cases result with
      | ok b => rfl
      | error e => rfl
    | replace content =>
      show f <$> (compareAndSet key raw content >>= fun changed =>
        if changed = true then finish else swapRounds key verdict finish rounds) = _
      rw [map_bind]
      congr 1
      funext changed
      cases changed with
      | true => rfl
      | false => exact ih

/-- Run alone, the loop ends in its first round. -/
theorem alone_swapRounds (ht : s.TakesValue key) :
    alone (swapRounds key verdict finish (rounds + 1)) s =
      match verdict (s.read (.value key)) with
      | .answer result => (result, s)
      | .replace content => alone finish (s.write (.value key) content) := by
  rw [swapRounds, alone_bind_ok (alone_get ht)]
  cases hverdict : verdict (s.read (.value key)) with
  | answer result =>
    cases result with
    | ok b => rfl
    | error e => rfl
  | replace content =>
    have hswap : alone (compareAndSet key (s.read (.value key)) content) s =
        (.ok true, s.write (.value key) content) := by
      rw [alone_compareAndSet ht, if_pos rfl]
    simp only
    rw [alone_bind_ok hswap]
    rfl

/-- Where the name holds a hash, the first read fails. -/
theorem alone_swapRounds_refused (ht : ¬ s.TakesValue key) :
    alone (swapRounds key verdict finish (rounds + 1)) s = (.error (refusal key), s) := by
  have hrefused : s.Refuses (.get key) := ht
  rw [swapRounds]
  exact alone_bind_error (alone_call_refused hrefused)

/-- The operation fails in its checks, before it makes a store call. -/
def FailsAtOnce (op : Operation β) : Prop := ∃ e, op = throw e ∧ e.kind ≠ .storage

/-! ## Among others -/

/-- The answer of a loop that has lost all its rounds. -/
def GaveUp (key : String) (result : Except GatewayError β) : Prop :=
  result = .error (.storage (.contended key))

theorem not_gaveUp_of_kind {e : GatewayError} (h : e.kind ≠ .storage) (key : String) :
    ¬ GaveUp key (.error e : Except GatewayError β) := by
  intro hgave
  cases hgave
  exact h rfl

theorem not_gaveUp_refusal (key : String) :
    ¬ GaveUp key (.error (refusal key) : Except GatewayError β) := by
  intro h
  cases h

/-- On stores of `Inv`, the decision and the replacement are all there is to the loop: it gives up
only when its rounds are over, and what follows the replacement ends in `b` and does not change the
view. -/
structure SwapsAtOnce {σ : Type} (Inv : MemoryStore → Prop) (view : MemoryStore → σ) (key : String)
    (verdict : Option Bytes → Verdict β) (finish : Operation β) (b : β) : Prop where
  decides : ∀ raw result, verdict raw = .answer result → ¬ GaveUp key result
  write : ∀ s content, Inv s → s.TakesValue key → Inv (s.write (.value key) content)
  finish_alone : ∀ s, Inv s → (alone finish s).1 = .ok b ∧ view (alone finish s).2 = view s
  finish_settled : finish.run.Settled Inv view (· = .ok b)

namespace SwapsAtOnce

variable {σ : Type} {Inv : MemoryStore → Prop} {view : MemoryStore → σ} {b : β}

/-- **The loop takes effect in one of its calls**, where it does what it does alone. -/
theorem takesEffect (h : SwapsAtOnce Inv view key verdict finish b)
    {atomic : σ → Except GatewayError β × σ} {tries : Nat}
    (hatomic : ∀ s, Inv s → atomic (view s) =
      ((alone (swapRounds key verdict finish (tries + 1)) s).1,
        view (alone (swapRounds key verdict finish (tries + 1)) s).2)) (rounds : Nat) :
    (swapRounds key verdict finish rounds).run.TakesEffect Inv view atomic (GaveUp key) := by
  induction rounds with
  | zero => exact rfl
  | succ rounds ih =>
    rw [run_swapRounds_succ]
    intro s hs
    by_cases hr : s.Refuses (.get key)
    · have ht : ¬ s.TakesValue key := hr
      right
      rw [hatomic s hs, alone_swapRounds_refused ht, MemoryStore.step_refused hr]
      exact ⟨rfl, not_gaveUp_refusal key, rfl⟩
    have ht : s.TakesValue key := Classical.not_not.1 hr
    rw [MemoryStore.step_get ht]
    simp only
    cases hverdict : verdict (s.read (.value key)) with
    | answer result =>
      right
      rw [hatomic s hs, alone_swapRounds ht, hverdict]
      exact ⟨rfl, h.decides _ _ hverdict, rfl⟩
    | replace content =>
      refine .inl ⟨trivial, ?_⟩
      -- the store may be another one by now
      intro t hu
      by_cases hr : t.Refuses (.compareAndSet key (s.read (.value key)) content)
      · have htt : ¬ t.TakesValue key := hr
        right
        rw [hatomic t hu, alone_swapRounds_refused htt, MemoryStore.step_refused hr]
        exact ⟨rfl, not_gaveUp_refusal key, rfl⟩
      have htt : t.TakesValue key := Classical.not_not.1 hr
      rw [MemoryStore.step_compareAndSet htt]
      by_cases hsame : t.read (.value key) = s.read (.value key)
      · obtain ⟨hresult, hview⟩ := h.finish_alone _ (h.write t content hu htt)
        right
        rw [if_pos hsame, hatomic t hu, alone_swapRounds htt, hsame, hverdict]
        simp only
        rw [hresult]
        refine ⟨hview.symm, ?_, h.finish_settled⟩
        intro hgive
        cases hgive
      · rw [if_neg hsame]
        exact .inl ⟨rfl, ih⟩

end SwapsAtOnce

/-- **A lost round has seen the value change.** -/
theorem SwapsAtOnce.starved {Inv : MemoryStore → Prop} {b : β}
    (h : SwapsAtOnce Inv (MemoryStore.read (.value key)) key verdict finish b) (rounds : Nat)
    (v : Option Bytes) :
    (swapRounds key verdict finish rounds).run.Starved Inv (MemoryStore.read (.value key))
      (GaveUp key) rounds v := by
  -- what does not give up need not have seen a change
  have hdone : ∀ result : Except GatewayError β, ¬ GaveUp key result → ∀ k v,
      (Program.done result).Starved Inv (MemoryStore.read (.value key)) (GaveUp key) k v :=
    fun result hkept k v hgive => absurd hgive hkept
  induction rounds generalizing v with
  | zero => exact fun _ => rfl
  | succ rounds ih =>
    rw [run_swapRounds_succ]
    intro s hs
    refine ⟨rounds + 1, .inl (Nat.le_refl _), ?_⟩
    by_cases hr : s.Refuses (.get key)
    · rw [MemoryStore.step_refused hr]
      exact hdone _ (not_gaveUp_refusal key) _ _
    have ht : s.TakesValue key := Classical.not_not.1 hr
    rw [MemoryStore.step_get ht]
    simp only
    cases hverdict : verdict (s.read (.value key)) with
    | answer result => exact hdone _ (h.decides _ _ hverdict) _ _
    | replace content =>
      intro t hu
      by_cases hr : t.Refuses (.compareAndSet key (s.read (.value key)) content)
      · refine ⟨rounds + 1, .inl (Nat.le_refl _), ?_⟩
        rw [MemoryStore.step_refused hr]
        exact hdone _ (not_gaveUp_refusal key) _ _
      have htt : t.TakesValue key := Classical.not_not.1 hr
      rw [MemoryStore.step_compareAndSet htt]
      by_cases hsame : t.read (.value key) = s.read (.value key)
      · refine ⟨rounds + 1, .inl (Nat.le_refl _), ?_⟩
        rw [if_pos hsame]
        refine h.finish_settled.starved ?_ _ _
        rintro result rfl hgive
        cases hgive
      · refine ⟨rounds, .inr ⟨hsame, Nat.le_refl _⟩, ?_⟩
        rw [if_neg hsame]
        exact ih _

/-- Rounds that end with the replacement have nothing else to be looked after. -/
theorem swapsAtOnce_pure {σ : Type} {view : MemoryStore → σ} {b : β}
    (hdecides : ∀ raw result, verdict raw = .answer result → ¬ GaveUp key result) :
    SwapsAtOnce (fun _ => True) view key verdict (pure b) b where
  decides := hdecides
  write := fun _ _ _ _ => trivial
  finish_alone := fun _ _ => ⟨rfl, rfl⟩
  finish_settled := rfl

/-! ## Calls -/

/-- The loop makes calls of two kinds, and those of what follows the replacement. -/
theorem only_swapRounds {P : Call → Prop} (hfinish : finish.Only P) (hget : P (.get key))
    (hswap : ∀ expected new, verdict expected = .replace new → P (.compareAndSet key expected new))
    (rounds : Nat) : (swapRounds key verdict finish rounds).Only P := by
  induction rounds with
  | zero => exact only_throw _
  | succ rounds ih =>
    rw [swapRounds]
    refine only_bind (only_call (c := .get key) hget) fun raw => ?_
    cases hverdict : verdict raw with
    | answer result => exact until_check fun _ _ => trivial
    | replace content =>
      refine only_bind (only_call (c := .compareAndSet key raw content) (hswap raw content hverdict))
        fun changed => ?_
      cases changed with
      | true => exact hfinish
      | false => exact ih

/-- A read of a value, or the replacement of what was read by what the decision says. -/
def TriesSwap (key : String) (verdict : Option Bytes → Verdict β) : Call → Prop
  | .get k => k = key
  | .compareAndSet k expected new => k = key ∧ verdict expected = .replace new
  | _ => False

theorem only_swapRounds_pure (b : β) (rounds : Nat) :
    (swapRounds key verdict (pure b) rounds).Only (TriesSwap key verdict) := by
  refine only_swapRounds (only_pure b) ?_ ?_ rounds
  · show key = key
    rfl
  · intro expected new hverdict
    show key = key ∧ verdict expected = .replace new
    exact ⟨rfl, hverdict⟩

/-- **What such a call changes** is the value, and the decision on the old value was to replace it. -/
theorem TriesSwap.changed {c : Call} {cell : Cell} (h : TriesSwap key verdict c)
    (hne : (MemoryStore.step c s).2.read cell ≠ s.read cell) :
    cell = .value key ∧ verdict (s.read cell) = .replace ((MemoryStore.step c s).2.read cell) := by
  cases c with
  | compareAndSet k expected new =>
    obtain ⟨rfl, hverdict⟩ := h
    have hcell : cell = .value k := by
      apply Classical.byContradiction
      intro hcell
      have hunwritten : ¬ (Call.compareAndSet k expected new).Writes cell := hcell
      exact hne (MemoryStore.read_step_of_not_writes hunwritten s)
    by_cases hr : s.Refuses (.compareAndSet k expected new)
    · rw [MemoryStore.step_refused hr] at hne
      exact absurd rfl hne
    have ht : s.TakesValue k := Classical.not_not.1 hr
    have htakes : s.Takes (.value k) := ht
    rw [MemoryStore.step_compareAndSet ht] at hne ⊢
    by_cases hsame : s.read (.value k) = expected
    · rw [if_pos hsame]
      simp only
      rw [MemoryStore.read_write _ htakes, if_pos hcell, hcell, hsame]
      exact ⟨rfl, hverdict⟩
    · rw [if_neg hsame] at hne
      exact absurd rfl hne
  | get k => exact absurd (MemoryStore.read_step_of_not_writes id s) hne
  | _ => exact absurd h id

end Operation
end GatewayControl
