import GatewayControl.Text.CharTable
import Mathlib.Data.List.TakeWhile

/-!
# `GatewayControl.Proofs.Text.Trim` -- white space around a text

A text without white space in it is what is left of exactly those texts that have white space around it
(`trim_eq_iff`).
-/

namespace GatewayControl.Text

/-- White space at both ends is dropped, where there is none in between. -/
theorem trim_append {before inner after : List Char} (hbefore : ∀ c ∈ before, isBlank c = true)
    (hinner : ∀ c ∈ inner, isBlank c = false) (hafter : ∀ c ∈ after, isBlank c = true) :
    trim (String.ofList (before ++ inner ++ after)) = String.ofList inner := by
  have hkeep : ∀ {cs : List Char}, (∀ c ∈ cs, isBlank c = false) → cs.dropWhile isBlank = cs := by
    intro cs hcs
    cases cs with
    | nil => rfl
    | cons c cs => exact List.dropWhile_cons_of_neg (by simp [hcs c (List.mem_cons_self ..)])
  unfold trim
  rw [String.toList_ofList, List.append_assoc, List.dropWhile_append_of_pos hbefore]
  congr 1
  cases inner with
  | nil =>
    rw [List.nil_append, List.dropWhile_eq_nil_iff.2 hafter]
    rfl
  | cons c inner =>
    have hc : ¬ isBlank c = true := by simp [hinner c (List.mem_cons_self ..)]
    rw [List.cons_append, List.dropWhile_cons_of_neg hc, ← List.cons_append, List.reverse_append,
      List.dropWhile_append_of_pos fun a ha => hafter a (List.mem_reverse.1 ha),
      hkeep fun a ha => hinner a (List.mem_reverse.1 ha), List.reverse_reverse]

/-- Nothing but white space is dropped, and only at the ends. -/
theorem exists_trim (s : String) : ∃ before after : List Char, (∀ c ∈ before, isBlank c = true) ∧
    (∀ c ∈ after, isBlank c = true) ∧ s.toList = before ++ (trim s).toList ++ after := by
  have hback : s.toList.dropWhile isBlank =
      (trim s).toList ++ ((s.toList.dropWhile isBlank).reverse.takeWhile isBlank).reverse := by
    unfold trim
    rw [String.toList_ofList, ← List.reverse_append, List.takeWhile_append_dropWhile, List.reverse_reverse]
  refine ⟨s.toList.takeWhile isBlank, ((s.toList.dropWhile isBlank).reverse.takeWhile isBlank).reverse,
    fun c hc => List.mem_takeWhile_imp hc, fun c hc => List.mem_takeWhile_imp (List.mem_reverse.1 hc), ?_⟩
  rw [List.append_assoc, ← hback, List.takeWhile_append_dropWhile]

/-- **A text without white space is left of a text exactly if the rest is white space around it.** -/
theorem trim_eq_iff {s : String} {inner : List Char} (hinner : ∀ c ∈ inner, isBlank c = false) :
    trim s = String.ofList inner ↔ ∃ before after : List Char, (∀ c ∈ before, isBlank c = true) ∧
      (∀ c ∈ after, isBlank c = true) ∧ s = String.ofList (before ++ inner ++ after) := by
  constructor
  · intro h
    obtain ⟨before, after, hbefore, hafter, hs⟩ := exists_trim s
    rw [h, String.toList_ofList] at hs
    exact ⟨before, after, hbefore, hafter, by rw [← hs, String.ofList_toList]⟩
  · rintro ⟨before, after, hbefore, hafter, rfl⟩
    exact trim_append hbefore hinner hafter

end GatewayControl.Text
