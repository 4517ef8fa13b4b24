import GatewayControl.Proofs.Operation.Linearization

/-!
# `GatewayControl.Proofs.Operation.Contention` -- operations that give up

An operation that gives up has not touched the object (`Linearizable.unchanged`), but it has seen the
object change again and again. `Program.Starved` counts on its tree how often, and `disturbedOften`
finds the turns in which others made these changes. Its induction follows the run and counts, in each
turn of the operation, the change that came before it (`Counting.next`).
-/

namespace GatewayControl

variable {ι α σ : Type}

/-! ## Trees -/

namespace Program

/-- From a time at which the view was `v`, the program gives up only after its calls have found the
view changed `k` times. -/
def Starved (Inv : MemoryStore → Prop) (view : MemoryStore → σ) (GivesUp : α → Prop) :
    Program α → Nat → σ → Prop
  | done a => fun k _ => GivesUp a → k = 0
  | call c next => fun k v => ∀ s, Inv s → ∃ m, (k ≤ m ∨ view s ≠ v ∧ k ≤ m + 1) ∧
      (next (MemoryStore.step c s).1).Starved Inv view GivesUp m (view (MemoryStore.step c s).2)
  | detach rest => rest.Starved Inv view GivesUp

variable {Inv : MemoryStore → Prop} {view : MemoryStore → σ} {GivesUp Q : α → Prop} {p : Program α}
  {b : α} {s : MemoryStore}

theorem Starved.result {k : Nat} {v : σ} (h : p.Starved Inv view GivesUp k v)
    (hb : p.result? = some b) (hgive : GivesUp b) : k = 0 := by
  induction p with
  | done c =>
    cases hb
    exact h hgive
  | call c next ih => cases hb
  | detach rest ih => exact ih h hb

/-- A step counts if it finds the view changed. -/
theorem Starved.after {k : Nat} {v : σ} (h : p.Starved Inv view GivesUp k v) (hs : Inv s) :
    ∃ m, (k ≤ m ∨ p.result? = none ∧ view s ≠ v ∧ k ≤ m + 1) ∧
      (p.after s).Starved Inv view GivesUp m (view (p.storeAfter s)) := by
  induction p with
  | done b => exact ⟨k, .inl (Nat.le_refl k), h⟩
  | call c next ih =>
    obtain ⟨m, hm, hrest⟩ := h s hs
    exact ⟨m, hm.imp_right fun hchange => ⟨rfl, hchange⟩, hrest⟩
  | detach rest ih => exact ih h

/-- What is settled on other answers never gives up. -/
theorem Settled.starved (h : p.Settled Inv view Q) (hQ : ∀ a, Q a → ¬ GivesUp a) (k : Nat) (v : σ) :
    p.Starved Inv view GivesUp k v := by
  induction p generalizing k v with
  | done a => exact fun hgive => absurd hgive (hQ a h)
  | call c next ih =>
    intro s hs
    exact ⟨k, .inl (Nat.le_refl k), ih _ (h s hs).2 k _⟩
  | detach rest ih => exact ih h k v

end Program

/-! ## Runs -/

namespace Crowd

variable [DecidableEq ι] {start : Crowd ι α} {schedule : Nat → ι} {m n : Nat}
  {object : SequentialObject ι α σ} {Inv : MemoryStore → Prop} {i : ι} {a : α}

/-- Who gives up has not touched the object. -/
theorem Linearizable.unchanged (h : start.Linearizable schedule object) (huses : object.Uses i)
    (hanswered : start.Answered schedule n i a) (hgive : object.GivesUp i a) {k : Nat} (hk : k < n)
    (hi : schedule k = i) :
    object.view (start.trace schedule (k + 1)).store = object.view (start.trace schedule k).store := by
  obtain ⟨order, -, horder⟩ := h
  have hout : i ∉ order n := fun hin => ((horder n).complete i a huses hanswered).1 hin hgive
  exact (horder n).unseen i huses hout k hk hi

/-- A view that has changed in between changed in some turn. -/
theorem exists_change {view : MemoryStore → σ} {m : Nat} (hmn : m ≤ n)
    (h : view (start.trace schedule n).store ≠ view (start.trace schedule m).store) :
    ∃ k, m ≤ k ∧ k < n ∧
      view (start.trace schedule (k + 1)).store ≠ view (start.trace schedule k).store := by
  induction n with
  | zero =>
    have hzero : m = 0 := by omega
    subst hzero
    exact absurd rfl h
  | succ n ih =>
    by_cases hm : m = n + 1
    · subst hm
      exact absurd rfl h
    by_cases hn : view (start.trace schedule n).store = view (start.trace schedule m).store
    · exact ⟨n, by omega, Nat.lt_succ_self n, fun heq => h (heq.trans hn)⟩
    · obtain ⟨k, hmk, hkn, hk⟩ := ih (by omega) hn
      exact ⟨k, hmk, by omega, hk⟩

/-- In turn `k`, another operation changes the view while `i` is running. -/
def Disturbed (start : Crowd ι α) (schedule : Nat → ι) (view : MemoryStore → σ) (i : ι) (k : Nat) :
    Prop :=
  start.Running schedule k i ∧ schedule k ≠ i ∧
    view (start.trace schedule (k + 1)).store ≠ view (start.trace schedule k).store

/-- Before turn `n`, other operations have changed the view at least `k` times while `i` was running. -/
def DisturbedOften (start : Crowd ι α) (schedule : Nat → ι) (view : MemoryStore → σ) (n : Nat) (i : ι)
    (k : Nat) : Prop :=
  ∃ turns : List Nat, k ≤ turns.length ∧ turns.Pairwise (· < ·) ∧
    ∀ l ∈ turns, l < n ∧ start.Disturbed schedule view i l

/-- After turn `n`: the last turn of `i` was turn `m - 1`, and the turns that disturbed it until then,
with the `j` ones that its tree still speaks of, are at least `k`. -/
structure Counting (Inv : MemoryStore → Prop) (start : Crowd ι α) (schedule : Nat → ι)
    (view : MemoryStore → σ) (GivesUp : α → Prop) (i : ι) (k n m j : Nat) (turns : List Nat) :
    Prop where
  le : m ≤ n
  started : Started schedule m i
  quiet : ∀ l, m ≤ l → l < n → schedule l ≠ i
  starved : ((start.trace schedule n).rest i).Starved Inv view GivesUp j
    (view (start.trace schedule m).store)
  count : k ≤ j + turns.length
  sorted : turns.Pairwise (· < ·)
  disturbed : ∀ l ∈ turns, l < m ∧ start.Disturbed schedule view i l

namespace Counting

variable {view : MemoryStore → σ} {GivesUp : α → Prop} {k j : Nat} {turns : List Nat}

/-- The turn of another operation. -/
theorem pass (h : Counting Inv start schedule view GivesUp i k n m j turns) (hi : schedule n ≠ i) :
    Counting Inv start schedule view GivesUp i k (n + 1) m j turns where
  le := Nat.le_succ_of_le h.le
  started := h.started
  quiet := by
    intro l hml hln
    by_cases hl : l = n
    · rw [hl]
      exact hi
    · exact h.quiet l hml (by omega)
  starved := by
    rw [rest_trace_of_ne start (Ne.symm hi)]
    exact h.starved
  count := h.count
  sorted := h.sorted
  disturbed := h.disturbed

/-- The first turn of the operation. -/
theorem first (hinv : Inv (start.trace schedule n).store)
    (hstarved : ∀ v, (start.rest (schedule n)).Starved Inv view GivesUp k v)
    (hfirst : ¬ Started schedule n (schedule n)) :
    ∃ j, Counting Inv start schedule view GivesUp (schedule n) k (n + 1) (n + 1) j [] := by
  have hbefore := rest_trace_of_not_started start hfirst
  obtain ⟨j, hj, hafter⟩ := (hstarved (view (start.trace schedule n).store)).after hinv
  have hkj : k ≤ j := hj.resolve_right fun hchanged => hchanged.2.1 rfl
  refine ⟨j, Nat.le_refl _, started_succ.2 (.inr rfl), fun l hle hlt => by omega, ?_, hkj,
    List.Pairwise.nil, fun l hl => absurd hl List.not_mem_nil⟩
  rw [rest_trace_self, store_trace_storeAfter, hbefore]
  exact hafter

/-- Another turn of the operation. If the view has changed since the last one, there is one more turn
that disturbed it. -/
theorem next (h : Counting Inv start schedule view GivesUp (schedule n) k n m j turns)
    (hinv : Inv (start.trace schedule n).store) :
    ∃ j turns, Counting Inv start schedule view GivesUp (schedule n) k (n + 1) (n + 1) j turns := by
  have hstarted : Started schedule (n + 1) (schedule n) := started_succ.2 (.inr rfl)
  have hquiet : ∀ l, n + 1 ≤ l → l < n + 1 → schedule l ≠ schedule n :=
    fun l hle hlt => by omega
  have hle := h.le
  have hcount := h.count
  obtain ⟨j', hj, hafter⟩ := h.starved.after hinv
  rw [← rest_trace_self, ← store_trace_storeAfter] at hafter
  rcases hj with hj | ⟨hpending, hchanged, hj⟩
  · refine ⟨j', turns, Nat.le_refl _, hstarted, hquiet, hafter, by omega, h.sorted, fun l hl => ?_⟩
    have hlm := (h.disturbed l hl).1
    exact ⟨by omega, (h.disturbed l hl).2⟩
  obtain ⟨l, hml, hln, hchange⟩ := exists_change h.le hchanged
  have hsame : (start.trace schedule n).rest (schedule n) =
      (start.trace schedule l).rest (schedule n) :=
    rest_trace_of_no_turn start (by omega) fun q hlq hqn => h.quiet q (by omega) hqn
  have hdisturbed : start.Disturbed schedule view (schedule n) l :=
    ⟨⟨h.started.mono hml, hsame ▸ hpending⟩, h.quiet l hml hln, hchange⟩
  refine ⟨j', turns ++ [l], Nat.le_refl _, hstarted, hquiet, hafter, ?_, ?_, ?_⟩
  · rw [List.length_append, List.length_singleton]
    omega
  · rw [List.pairwise_append]
    refine ⟨h.sorted, List.pairwise_singleton _ _, fun q hq r hr => ?_⟩
    rw [List.mem_singleton.1 hr]
    exact Nat.lt_of_lt_of_le (h.disturbed q hq).1 hml
  · intro q hq
    rcases List.mem_append.1 hq with hq | hq
    · have hqm := (h.disturbed q hq).1
      exact ⟨by omega, (h.disturbed q hq).2⟩
    · rw [List.mem_singleton.1 hq]
      exact ⟨by omega, hdisturbed⟩

end Counting

/-- **Who gives up was disturbed**, by other operations and as often as its tree says. -/
theorem disturbedOften {view : MemoryStore → σ} {GivesUp : α → Prop} {k : Nat}
    (hinv : ∀ n, Inv (start.trace schedule n).store)
    (hstarved : ∀ v, (start.rest i).Starved Inv view GivesUp k v)
    (hanswered : start.Answered schedule n i a) (hgive : GivesUp a) :
    start.DisturbedOften schedule view n i k := by
  have hcount : ∀ n, Started schedule n i →
      ∃ m j turns, Counting Inv start schedule view GivesUp i k n m j turns := by
    intro n
    induction n with
    | zero =>
      rintro ⟨l, hl, -⟩
      exact absurd hl (Nat.not_lt_zero l)
    | succ n ih =>
      intro hstarted
      by_cases hi : schedule n ≠ i
      · obtain ⟨m, j, turns, h⟩ := ih ((started_succ.1 hstarted).resolve_right hi)
        exact ⟨m, j, turns, h.pass hi⟩
      obtain rfl := Classical.not_not.1 hi
      by_cases hbefore : Started schedule n (schedule n)
      · obtain ⟨m, j, turns, h⟩ := ih hbefore
        obtain ⟨j, turns, h⟩ := h.next (hinv n)
        exact ⟨n + 1, j, turns, h⟩
      · obtain ⟨j, h⟩ := Counting.first (hinv n) hstarved hbefore
        exact ⟨n + 1, j, [], h⟩
  obtain ⟨m, j, turns, h⟩ := hcount n hanswered.1
  have hj : j = 0 := h.starved.result hanswered.2 hgive
  have hk := h.count
  refine ⟨turns, by omega, h.sorted, fun l hl => ?_⟩
  exact ⟨Nat.lt_of_lt_of_le (h.disturbed l hl).1 h.le, (h.disturbed l hl).2⟩

end Crowd
end GatewayControl
