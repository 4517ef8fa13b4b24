import GatewayControl.Proofs.Operation.Rounds
import GatewayControl.Proofs.Store.Interchange

/-!
# `GatewayControl.Proofs.Operation.Footprint` -- the cells that an operation depends on

A footprint names the cells that an operation looks at and the cells that it may change. An operation is
within its footprint if it leaves all other cells alone, and stores that agree on the footprint give it
the same result and agree on it afterwards (`Operation.Within`). The calls that an operation makes settle
its footprint: there is one lemma for each form of an operation.

Operations whose changes lie outside the footprints of each other can be exchanged (`Within.commute`):
each finds the cells that it depends on as they were.
-/

namespace GatewayControl

open MemoryStore

/-- The cells that an operation only looks at, and those that it may change. -/
structure Footprint where
  looks : Cell → Prop
  changes : Cell → Prop

namespace Footprint

/-- The operation looks at the cell or changes it. -/
def Covers (f : Footprint) (cell : Cell) : Prop := f.looks cell ∨ f.changes cell

/-- The stores hold the same on the footprint. -/
def Agree (f : Footprint) (s t : MemoryStore) : Prop := ∀ cell, f.Covers cell → s.read cell = t.read cell

/-- Neither changes what the other depends on. -/
structure Apart (f g : Footprint) : Prop where
  left : ∀ cell, f.changes cell → ¬ g.Covers cell
  right : ∀ cell, g.changes cell → ¬ f.Covers cell

theorem Apart.symm {f g : Footprint} (h : f.Apart g) : g.Apart f := ⟨h.right, h.left⟩

end Footprint

/-- Tables with the same rows, in whatever order. -/
def TableStore.SameRows (t u : TableStore) : Prop := ∃ s, Represents t s ∧ Represents u s

namespace Operation

variable {α β : Type} {f : Footprint} {op : Operation α}

/-- The operation changes nothing outside its footprint, and nothing outside it makes a difference. -/
structure Within (f : Footprint) (op : Operation α) : Prop where
  frame : ∀ (s : MemoryStore) cell, ¬ f.changes cell → (alone op s).2.read cell = s.read cell
  congr : ∀ s t, f.Agree s t → (alone op s).1 = (alone op t).1 ∧ f.Agree (alone op s).2 (alone op t).2

/-! ## Forms of operations -/

/-- A check keeps to any footprint, as it does not ask the store. -/
theorem within_check (result : Except GatewayError α) : Within f (check result) := by
  cases result with
  | ok a => exact ⟨fun _ _ _ => rfl, fun _ _ h => ⟨rfl, h⟩⟩
  | error e => exact ⟨fun _ _ _ => rfl, fun _ _ h => ⟨rfl, h⟩⟩

theorem within_pure (a : α) : Within f (pure a : Operation α) := within_check (.ok a)

theorem within_throw (e : GatewayError) : Within f (throw e : Operation α) := within_check (.error e)

/-- Two operations in sequence keep to a footprint that both keep to. -/
theorem within_bind {next : α → Operation β} (h : Within f op) (hnext : ∀ a, Within f (next a)) :
    Within f (op >>= next) where
  frame := by
    intro s cell hcell
    have hframe := h.frame s cell hcell
    rcases hop : alone op s with ⟨e | a, s'⟩ <;> rw [hop] at hframe
    · rw [alone_bind_error hop]
      exact hframe
    · rw [alone_bind_ok hop]
      exact ((hnext a).frame s' cell hcell).trans hframe
  congr := by
    intro s t hagree
    obtain ⟨hresult, hagree'⟩ := h.congr s t hagree
    rcases hs : alone op s with ⟨result, s'⟩
    rcases ht : alone op t with ⟨result', t'⟩
    rw [hs, ht] at hresult hagree'
    change result = result' at hresult
    subst hresult
    cases result with
    | error e =>
      rw [alone_bind_error hs, alone_bind_error ht]
      exact ⟨rfl, hagree'⟩
    | ok a =>
      rw [alone_bind_ok hs, alone_bind_ok ht]
      exact (hnext a).congr s' t' hagree'

theorem within_discard (h : Within f op) : Within f (discard op) where
  frame := by
    intro s cell hcell
    rw [alone_discard]
    exact h.frame s cell hcell
  congr := by
    intro s t hagree
    obtain ⟨hresult, hagree'⟩ := h.congr s t hagree
    rw [alone_discard, alone_discard, hresult]
    exact ⟨rfl, hagree'⟩

/-- An attempt keeps to the footprint of what it attempts. -/
theorem within_attempt (h : Within f op) : Within f (attempt op) where
  frame := by
    intro s cell hcell
    rw [alone_attempt]
    exact h.frame s cell hcell
  congr := by
    intro s t hagree
    obtain ⟨hresult, hagree'⟩ := h.congr s t hagree
    rw [alone_attempt, alone_attempt, hresult]
    exact ⟨rfl, hagree'⟩

theorem within_detached (h : Within f op) : Within f (detached op) := ⟨h.frame, h.congr⟩

/-- A call is within a footprint that covers what it consults and lets it change what it writes. -/
theorem within_call {c : Call} (hlooks : ∀ cell, c.Consults cell → f.Covers cell)
    (hchanges : ∀ cell, c.Writes cell → f.changes cell) : Within f (call c) where
  frame := by
    intro s cell hcell
    rw [alone_call]
    exact read_step_of_not_writes (fun hw => hcell (hchanges cell hw)) s
  congr := by
    intro s t hagree
    obtain ⟨hreply, hwritten⟩ := step_congr fun cell hc => hagree cell (hlooks cell hc)
    rw [alone_call, alone_call]
    refine ⟨congrArg (Except.mapError _) hreply, fun cell hc => ?_⟩
    by_cases hw : c.Writes cell
    · exact hwritten cell hw
    · exact (read_step_of_not_writes hw s).trans
        ((hagree cell hc).trans (read_step_of_not_writes hw t).symm)

/-- A loop of conditional changes is within a footprint that covers the value and what goes on after the
change. -/
theorem within_swapRounds {key : String} {verdict : Option Bytes → Verdict α} {finish : Operation α}
    (hlooks : ∀ cell : Cell, cell.key = key → f.Covers cell) (hchanges : f.changes (.value key))
    (hfinish : Within f finish) (rounds : Nat) : Within f (swapRounds key verdict finish rounds) := by
  induction rounds with
  | zero => exact within_throw _
  | succ rounds ih =>
    rw [swapRounds]
    refine within_bind (within_call hlooks fun cell hw => absurd hw id) fun raw => ?_
    cases verdict raw with
    | answer result => exact within_check result
    | replace content =>
      refine within_bind (within_call hlooks ?_) fun changed => ?_
      · intro cell hw
        have hcell : cell = .value key := hw
        exact hcell ▸ hchanges
      · cases changed with
        | true => exact hfinish
        | false => exact ih

/-! ## Exchanging operations -/

/-- Both operations give the same answers in either order, and the same store is left. -/
structure Commute {σ : Type} [Backend σ] (Same : σ → σ → Prop) (op : Operation α) (other : Operation β)
    (s : σ) : Prop where
  left : (alone op s).1 = (alone op (alone other s).2).1
  right : (alone other (alone op s).2).1 = (alone other s).1
  store : Same (alone other (alone op s).2).2 (alone op (alone other s).2).2

/-- An operation that changes no cell of a footprint leaves the store as it was on all of it. -/
theorem Within.agree_after {g : Footprint} (h : Within f op)
    (hapart : ∀ cell, f.changes cell → ¬ g.Covers cell) (s : MemoryStore) : g.Agree (alone op s).2 s := by
  intro cell hcell
  exact h.frame s cell fun hchanged => hapart cell hchanged hcell

/-- **Operations that are apart commute.** -/
theorem Within.commute {g : Footprint} {other : Operation β} (h : Within f op) (h' : Within g other)
    (hapart : f.Apart g) (s : MemoryStore) : Commute (· = ·) op other s := by
  obtain ⟨hleft, hagree⟩ := h.congr _ _ (h'.agree_after hapart.right s)
  obtain ⟨hright, hagree'⟩ := h'.congr _ _ (h.agree_after hapart.left s)
  refine ⟨hleft.symm, hright, ext_read fun cell => ?_⟩
  by_cases hf : f.changes cell
  · -- the second operation leaves the cell, and the first wrote it alike on both ways
    rw [h'.frame _ cell fun hg => hapart.right cell hg (.inr hf)]
    exact (hagree cell (.inr hf)).symm
  by_cases hg : g.changes cell
  · rw [h.frame _ cell hf]
    exact hagree' cell (.inr hg)
  · rw [h'.frame _ cell hg, h.frame _ cell hf, h.frame _ cell hf, h'.frame _ cell hg]

/-- Operations that commute in memory commute in the tables that stand for it. -/
theorem Commute.tables {op : Operation α} {other : Operation β} {s : MemoryStore}
    (h : Commute (· = ·) op other s) {t : TableStore} (ht : Represents t s) :
    Commute TableStore.SameRows op other t := by
  obtain ⟨hop, hafter⟩ := ht.run op.run
  obtain ⟨hother, hafter'⟩ := ht.run other.run
  obtain ⟨hop', hboth'⟩ := hafter'.run op.run
  obtain ⟨hother', hboth⟩ := hafter.run other.run
  refine ⟨hop.trans (h.left.trans hop'.symm), hother'.trans (h.right.trans hother.symm), ?_⟩
  exact ⟨_, hboth, h.store ▸ hboth'⟩

end Operation
end GatewayControl
