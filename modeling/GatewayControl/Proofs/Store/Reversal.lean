import GatewayControl.Proofs.Store.Interchange

/-!
# `GatewayControl.Proofs.Store.Reversal` -- what can be taken back

What the authorities rely on when they promise that a failed request has done nothing: calls that fail,
look or lose their race do nothing to the store; removing a field that was just created gives back the
store before it was; and a field of a hash that could be looked up can still be removed after a field of
some hash was removed (`Reversible`). Both stores keep these laws with any contents, also with rows that no
sequence of calls would have produced.
-/

namespace GatewayControl

/-- The laws of a store whose changes can be taken back. -/
structure Reversible (σ : Type) [Backend σ] : Prop where
  refused : ∀ (c : Call) (s : σ) fault, (Backend.step c s).1 = .error fault → (Backend.step c s).2 = s
  get : ∀ (s : σ) key, (Backend.step (.get key) s).2 = s
  hget : ∀ (s : σ) key name, (Backend.step (.hget key name) s).2 = s
  lost_swap : ∀ (s : σ) key expected new,
    (Backend.step (.compareAndSet key expected new) s).1 = .ok false →
      (Backend.step (.compareAndSet key expected new) s).2 = s
  lost_create : ∀ (s : σ) key name value, (Backend.step (.hsetIfAbsent key name value) s).1 = .ok false →
    (Backend.step (.hsetIfAbsent key name value) s).2 = s
  remove_created : ∀ (s : σ) key name value,
    (Backend.step (.hsetIfAbsent key name value) s).1 = .ok true →
      (Backend.step (.hdel key name) (Backend.step (.hsetIfAbsent key name value) s).2).2 = s
  remove_after : ∀ (s : σ) key name found, (Backend.step (.hget key name) s).1 = .ok found →
    ∀ other field, ∃ existed, (Backend.step (.hdel key name) (Backend.step (.hdel other field) s).2).1 =
      .ok existed

namespace MemoryStore

variable {s : MemoryStore} {key name : String}

/-- A name whose field could be looked up has no plain value. -/
theorem takesFields_of_hget {found : Option Bytes} (h : (step (.hget key name) s).1 = .ok found) :
    s.TakesFields key := by
  by_cases ht : s.TakesFields key
  · exact ht
  · have hrefused : s.Refuses (.hget key name) := ht
    rw [step_refused hrefused] at h
    cases h

theorem reversible : Reversible MemoryStore where
  refused := fun c s => (orderly s).failed c
  get := fun s key => rfl
  hget := fun s key name => rfl
  lost_swap := fun s => (orderly s).lost
  lost_create := by
    intro s key name value h
    change (step (.hsetIfAbsent key name value) s).1 = .ok false at h
    change (step (.hsetIfAbsent key name value) s).2 = s
    by_cases ht : s.TakesFields key
    · rw [step_hsetIfAbsent ht] at h ⊢
      split at h
      · cases h
      · next hne => rw [if_neg hne]
    · have hrefused : s.Refuses (.hsetIfAbsent key name value) := ht
      rw [step_refused hrefused]
  remove_created := by
    intro s key name value h
    change (step (.hsetIfAbsent key name value) s).1 = .ok true at h
    change (step (.hdel key name) (step (.hsetIfAbsent key name value) s).2).2 = s
    by_cases ht : s.TakesFields key
    · have htakes : s.Takes (.field key name) := ht
      rw [step_hsetIfAbsent ht] at h ⊢
      split at h
      · next habsent =>
        rw [if_pos habsent, step_hdel (takes_write (.field key name) htakes _), ← habsent]
        exact write_write_eq_self (.field key name) htakes (some value)
      · cases h
    · have hrefused : s.Refuses (.hsetIfAbsent key name value) := ht
      rw [step_refused hrefused] at h
      cases h
  remove_after := by
    intro s key name found h other field
    have ht := takesFields_of_hget h
    change ∃ existed, (step (.hdel key name) (step (.hdel other field) s).2).1 = .ok existed
    have ht' : (step (.hdel other field) s).2.TakesFields key := by
      unfold TakesFields
      rw [read_step_of_not_writes (fun hw => by cases hw)]
      exact ht
    rw [step_hdel ht']
    exact ⟨_, rfl⟩

end MemoryStore

namespace TableStore

variable {t : TableStore} {key name : String}

/-- Removing a field that was not there does nothing. -/
theorem deleteField_of_absent (h : t.field? key name = none) : t.deleteField key name = t := by
  unfold field? at h
  rw [Option.map_eq_none_iff, List.find?_eq_none] at h
  unfold deleteField
  congr 1
  rw [List.filter_eq_self]
  intro r hr
  rw [decide_eq_true_eq]
  exact fun hrow => h r hr (decide_eq_true hrow)

/-- Of a field that is written and deleted nothing is left. -/
theorem deleteField_upsertField (value : Bytes) :
    (t.upsertField key name value).deleteField key name = t.deleteField key name := by
  unfold upsertField deleteField
  simp

theorem step_hsetIfAbsent (key name : String) (value : Bytes) (t : TableStore) :
    step (.hsetIfAbsent key name value) t =
      if t.isPlain key then (.error (.wrongType key), t)
      else if (t.field? key name).isSome then (.ok false, t)
      else (.ok true, t.upsertField key name value) := rfl

theorem step_hdel (key name : String) (t : TableStore) :
    step (.hdel key name) t =
      if t.isPlain key then (.error (.wrongType key), t)
      else (.ok (t.field? key name).isSome, t.deleteField key name) := rfl

/-- A call that fails leaves the tables alone. -/
theorem step_of_error {c : Call} {fault : StoreFault} (h : (step c t).1 = .error fault) : (step c t).2 = t := by
  cases c with
  | get key | set key value | hget key name | hset key name value | hdel key name | hkeys key =>
    rw [step] at h ⊢
    split at h
    · next hrefused => rw [if_pos hrefused]
    · cases h
  | delete key => cases h
  | compareAndSet key expected new =>
    rw [step_compareAndSet] at h ⊢
    split at h
    · next hrefused => rw [if_pos hrefused]
    · split at h <;> cases h
  | hsetIfAbsent key name value =>
    rw [step_hsetIfAbsent] at h ⊢
    split at h
    · next hrefused => rw [if_pos hrefused]
    · split at h <;> cases h

/-- Removing a field that was just created gives back the tables. -/
theorem step_hdel_of_created {value : Bytes} (h : (step (.hsetIfAbsent key name value) t).1 = .ok true) :
    (step (.hdel key name) (step (.hsetIfAbsent key name value) t).2).2 = t := by
  rw [step_hsetIfAbsent] at h ⊢
  split at h
  · cases h
  next htaken =>
  split at h
  · cases h
  next habsent =>
  have htaken' : ¬ (t.upsertField key name value).isPlain key = true := htaken
  rw [Option.isSome_iff_ne_none, Classical.not_not] at habsent
  rw [if_neg htaken, habsent, step_hdel]
  simp only [Option.isSome_none, Bool.false_eq_true, if_false]
  rw [if_neg htaken', deleteField_upsertField, deleteField_of_absent habsent]

theorem reversible : Reversible TableStore where
  refused := fun _ _ _ => step_of_error
  get := by
    intro t key
    change (step (.get key) t).2 = t
    rw [step]
    split <;> rfl
  hget := by
    intro t key name
    change (step (.hget key name) t).2 = t
    rw [step]
    split <;> rfl
  lost_swap := by
    intro t key expected new h
    change (step (.compareAndSet key expected new) t).1 = .ok false at h
    change (step (.compareAndSet key expected new) t).2 = t
    rw [step_compareAndSet] at h ⊢
    split at h
    · cases h
    split at h
    · cases h
    · next htaken hne => rw [if_neg htaken, if_neg hne]
  lost_create := by
    intro t key name value h
    change (step (.hsetIfAbsent key name value) t).1 = .ok false at h
    change (step (.hsetIfAbsent key name value) t).2 = t
    rw [step_hsetIfAbsent] at h ⊢
    split at h
    · cases h
    split at h
    · next htaken hpresent => rw [if_neg htaken, if_pos hpresent]
    · cases h
  remove_created := fun _ _ _ _ => step_hdel_of_created
  remove_after := by
    intro t key name found h other field
    change (step (.hget key name) t).1 = .ok found at h
    change ∃ existed, (step (.hdel key name) (step (.hdel other field) t).2).1 = .ok existed
    have hplain : (step (.hdel other field) t).2.isPlain key = t.isPlain key := by
      rw [step_hdel]
      split <;> rfl
    rw [step] at h
    split at h
    · cases h
    · next htaken =>
      rw [step_hdel, hplain, if_neg htaken]
      exact ⟨_, rfl⟩

end TableStore
end GatewayControl
