import Mathlib.Data.List.Induction

/-!
# `GatewayControl.Proofs.Operation.Since` -- the last event of a kind

What a state holds after a history of events is often the work of one event, which no later event has
touched: the last one of its kind. `Since P Q history` says that there is such an event. It is read off the
history itself; `since_concat` says what one more event makes of it, which is all that an induction along
the history asks for.
-/

namespace GatewayControl

/-- Some event of the history is as `P` says, of it and what stands before it, and all events after it are
as `Q` says. -/
def Since {ε : Type} (P : List ε → ε → Prop) (Q : ε → Prop) (history : List ε) : Prop :=
  ∃ before event after, history = before ++ event :: after ∧ P before event ∧ ∀ e ∈ after, Q e

section

variable {ε : Type} {P P' : List ε → ε → Prop} {Q Q' : ε → Prop} {history : List ε} {event : ε}

theorem not_since_nil : ¬ Since P Q [] := by
  rintro ⟨before, event, after, h, -, -⟩
  exact absurd h.symm (List.append_ne_nil_of_right_ne_nil before (List.cons_ne_nil event after))

/-- One more event is the one that is asked for, or leaves the one there was. -/
theorem since_concat :
    Since P Q (history ++ [event]) ↔ P history event ∨ (Since P Q history ∧ Q event) := by
  constructor
  · rintro ⟨before, e, after, h, hP, hQ⟩
    rcases List.eq_nil_or_concat after with rfl | ⟨after, last, rfl⟩
    · obtain ⟨rfl, rfl⟩ := List.concat_inj.1 (by simpa using h)
      exact .inl hP
    · obtain ⟨rfl, rfl⟩ : history = before ++ e :: after ∧ event = last := by
        rw [List.concat_eq_append, ← List.cons_append, ← List.append_assoc] at h
        exact List.concat_inj.1 (by simpa using h)
      exact .inr ⟨⟨before, e, after, rfl, hP, fun e he => hQ e (by simp [he])⟩, hQ event (by simp)⟩
  · rintro (hP | ⟨⟨before, e, after, rfl, hP, hQ⟩, hlast⟩)
    · exact ⟨history, event, [], rfl, hP, fun e he => absurd he List.not_mem_nil⟩
    · refine ⟨before, e, after ++ [event], by simp, hP, fun e he => ?_⟩
      rcases List.mem_append.1 he with he | he
      · exact hQ e he
      · exact List.mem_singleton.1 he ▸ hlast

theorem Since.mono (h : Since P Q history) (hP : ∀ before e, P before e → P' before e)
    (hQ : ∀ e, Q e → Q' e) : Since P' Q' history := by
  obtain ⟨before, e, after, rfl, he, hafter⟩ := h
  exact ⟨before, e, after, rfl, hP before e he, fun e he => hQ e (hafter e he)⟩

/-- Two events of which neither may follow the other are one event. -/
theorem Since.same (h : Since P Q history) (h' : Since P' Q' history) (hP : ∀ before e, P before e → ¬ Q' e)
    (hP' : ∀ before e, P' before e → ¬ Q e) : ∃ before e, P before e ∧ P' before e := by
  induction history using List.reverseRecOn with
  | nil => exact absurd h not_since_nil
  | append_singleton history event ih =>
    -- either event is the last one of the history, or it comes before that
    rcases since_concat.1 h with hlast | ⟨h, hQ⟩ <;> rcases since_concat.1 h' with hlast' | ⟨h', hQ'⟩
    · exact ⟨history, event, hlast, hlast'⟩
    · exact absurd hQ' (hP history event hlast)
    · exact absurd hQ (hP' history event hlast')
    · exact ih h h'

/-- Events that neither are what is asked for nor could end it may be left out. -/
theorem since_filter {P : ε → Prop} {keep : ε → Bool} (hP : ∀ e, P e → keep e = true)
    (hQ : ∀ e, keep e = false → Q e) :
    Since (fun _ => P) Q (history.filter keep) ↔ Since (fun _ => P) Q history := by
  induction history using List.reverseRecOn with
  | nil => exact Iff.rfl
  | append_singleton history event ih =>
    rw [List.filter_append, since_concat, ← ih]
    cases hkeep : keep event with
    | true =>
      have hleft : [event].filter keep = [event] := by simp [hkeep]
      rw [hleft, since_concat]
    | false =>
      have hnot : ¬ P event := fun hevent => by simp [hP event hevent] at hkeep
      have hleft : [event].filter keep = [] := by simp [hkeep]
      rw [hleft, List.append_nil]
      simp only [hnot, hQ event hkeep, false_or, and_true]

end

end GatewayControl
