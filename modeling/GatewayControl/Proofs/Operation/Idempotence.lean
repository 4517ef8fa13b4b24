import GatewayControl.Proofs.Operation.Atomicity
import GatewayControl.Proofs.Operation.Footprint

/-!
# `GatewayControl.Proofs.Operation.Idempotence` -- operations that need to be done once

An operation is idempotent if, run again where it has succeeded, it succeeds with the same result and leaves
the store as it is (`Idempotent`). It may take another way through its branches the second time.

What looks at the store and then acts on what it has seen is idempotent if its second look leads to an act
that has nothing left to do (`idempotent_look`). That is so in particular if it sees the same again because it
does not write where it looks (`idempotent_bind`). A conditional change of a value is idempotent if it agrees
with the value that it has written, or writes it once more (`idempotent_swapRounds`).
-/

namespace GatewayControl
namespace Operation

open MemoryStore

variable {α β : Type} {op : Operation α} {f g : Footprint} {s t : MemoryStore}

/-- Where the operation has succeeded it succeeds again, with the same result, and does nothing. -/
def Idempotent (op : Operation α) : Prop :=
  ∀ (s : MemoryStore) a t, alone op s = (.ok a, t) → alone op t = (.ok a, t)

theorem LooksOnly.idempotent (h : LooksOnly MemoryStore op) : Idempotent op := by
  intro s a t hrun
  obtain rfl : t = s := h.eq_of_alone hrun
  exact hrun

theorem idempotent_pure (a : α) : Idempotent (pure a : Operation α) :=
  (looksOnly_check (.ok a)).idempotent

theorem idempotent_throw (e : GatewayError) : Idempotent (throw e : Operation α) :=
  (looksOnly_check (.error e)).idempotent

/-- A look sees the same in stores that agree on where it looks. -/
theorem LooksOnly.alone_congr (h : LooksOnly MemoryStore op) (hf : Within f op) (hagree : f.Agree s t) :
    alone op t = ((alone op s).1, t) :=
  Prod.ext (hf.congr s t hagree).1.symm (h t)

/-- A look and what follows it are idempotent if a second look afterwards leads to the same end. -/
theorem idempotent_look {next : α → Operation β} (h : LooksOnly MemoryStore op)
    (hagain : ∀ (s : MemoryStore) a b t, alone op s = (.ok a, s) → alone (next a) s = (.ok b, t) →
      ∃ a', alone op t = (.ok a', t) ∧ alone (next a') t = (.ok b, t)) :
    Idempotent (op >>= next) := by
  intro s b t hrun
  rcases hop : alone op s with ⟨e | a, u⟩
  · rw [alone_bind_error hop] at hrun
    cases hrun
  · rw [alone_bind_ok hop] at hrun
    cases h.eq_of_alone hop
    obtain ⟨a', hlook, hnext⟩ := hagain s a b t hop hrun
    rw [alone_bind_ok hlook, hnext]

/-- **Who does not write where he looks** sees the same again, and so does the same again. -/
theorem idempotent_bind {next : α → Operation β} (h : LooksOnly MemoryStore op) (hf : Within f op)
    (hg : Within g (op >>= next)) (hapart : ∀ cell, g.changes cell → ¬ f.Covers cell)
    (hnext : ∀ a, Idempotent (next a)) : Idempotent (op >>= next) := by
  refine idempotent_look h fun s a b t hlook hrun => ⟨a, ?_, hnext a s b t hrun⟩
  have hagree : f.Agree (alone (op >>= next) s).2 s := hg.agree_after hapart s
  rw [alone_bind_ok hlook, hrun] at hagree
  rw [h.alone_congr hf fun cell hcell => (hagree cell hcell).symm, hlook]

/-- **A conditional change** that has been made is made again, or found to be made. What follows it leaves the
value alone. -/
theorem idempotent_swapRounds {key : String} {verdict : Option Bytes → Verdict Unit} {finish : Operation Unit}
    (hkeeps : ∀ s t : MemoryStore, s.TakesValue key → alone finish s = (.ok (), t) →
      t.TakesValue key ∧ t.read (.value key) = s.read (.value key))
    (hsettles : ∀ raw content, verdict raw = .replace content →
      verdict content = .answer (.ok ()) ∨ verdict content = .replace content ∧ Idempotent finish)
    (rounds : Nat) : Idempotent (swapRounds key verdict finish (rounds + 1)) := by
  rintro s ⟨⟩ t hrun
  by_cases ht : s.TakesValue key
  · have htakes : s.Takes (.value key) := ht
    have hfirst := hrun
    rw [alone_swapRounds ht] at hfirst
    cases hverdict : verdict (s.read (.value key)) with
    | answer result =>
      rw [hverdict, Prod.mk.injEq] at hfirst
      rwa [hfirst.2] at hrun
    | replace content =>
      rw [hverdict] at hfirst
      obtain ⟨ht', hread⟩ := hkeeps _ _ (takes_write (.value key) htakes content) hfirst
      rw [read_write _ htakes, if_pos rfl] at hread
      rw [alone_swapRounds ht', hread]
      rcases hsettles _ _ hverdict with hdone | ⟨hagain, hfinish⟩
      · rw [hdone]
      · rw [hagain]
        simp only
        rw [write_eq_self (.value key) ht' hread]
        exact hfinish _ _ _ hfirst
  · rw [alone_swapRounds_refused ht] at hrun
    cases hrun

end Operation
end GatewayControl
