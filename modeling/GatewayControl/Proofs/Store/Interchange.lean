import GatewayControl.Program
import GatewayControl.Proofs.Store.TableCell

/-!
# `GatewayControl.Proofs.Store.Interchange` -- the two stores are interchangeable

A store of two tables stands for a store in memory if every cell holds the same in both and the primary
keys are kept (`Represents`). Every call gets the same reply from both and keeps the relation
(`represents_step`), so no sequence of calls tells the stores apart, and neither does any operation
(`Represents.run`).

Calls are refused for the kind of what a name holds. The store in memory looks at the one slot of the name;
the tables look at the other table. Both come to the same because the other table has a row of the name
exactly if a cell of the other kind holds something (`Represents.isHash_iff`, `Represents.isPlain_iff`).
-/

namespace GatewayControl

open MemoryStore TableStore

/-- The tables hold what the memory holds, each cell in one row. -/
structure Represents (t : TableStore) (s : MemoryStore) : Prop where
  keyed : t.Keyed
  read : ∀ cell, t.read cell = s.read cell

theorem represents_empty : Represents .empty .empty where
  keyed := keyed_empty
  read := fun cell => by rw [TableStore.read_empty, MemoryStore.read_empty]

namespace Represents

variable {t : TableStore} {s : MemoryStore} {key name : String}

/-! ## What the calls look at -/

theorem isHash_iff (h : Represents t s) (key : String) : t.isHash key = true ↔ ¬ s.TakesValue key := by
  rw [TableStore.isHash_iff]
  simp only [h.read, TakesValue, Classical.not_forall, ne_eq]

theorem isPlain_iff (h : Represents t s) (key : String) : t.isPlain key = true ↔ ¬ s.TakesFields key := by
  rw [TableStore.isPlain_iff, h.read]
  rfl

theorem value? (h : Represents t s) (key : String) : t.value? key = s.read (.value key) :=
  h.read (.value key)

theorem field? (h : Represents t s) (key name : String) : t.field? key name = s.read (.field key name) :=
  h.read (.field key name)

/-- The fields of a name come in the same order. -/
theorem fieldNames (h : Represents t s) (ht : s.TakesFields key) : t.fieldNames key = s.fieldNames key := by
  have hsorted := MemoryStore.fieldNames_sorted key s
  have hnodup : (s.fieldNames key).Nodup := by
    apply hsorted.imp
    rintro a b hlt rfl
    exact String.lt_irrefl a hlt
  have hperm : (t.fieldNames key).Perm (s.fieldNames key) := by
    rw [List.perm_ext_iff_of_nodup (fieldNames_nodup h.keyed) hnodup]
    intro name
    rw [TableStore.mem_fieldNames, MemoryStore.mem_fieldNames ht, h.read]
  refine hperm.eq_of_pairwise ?_ (fieldNames_ordered key t) (hsorted.imp fun hlt => String.not_lt.1 (String.lt_asymm hlt))
  intro a b _ _ hab hba
  exact String.le_antisymm hab hba

/-! ## What the statements do -/

/-- A store that reads alike after a change of one cell. -/
theorem of_write (h : Represents t s) (cell : Cell) (hs : s.Takes cell) {content : Option Bytes}
    {t' : TableStore} (hkeyed : t'.Keyed)
    (hread : ∀ c, t'.read c = if c = cell then content else t.read c) :
    Represents t' (s.write cell content) where
  keyed := hkeyed
  read := fun c => by rw [hread, read_write cell hs, h.read]

theorem upsertValue (h : Represents t s) (hs : s.TakesValue key) (value : Bytes) :
    Represents (t.upsertValue key value) (s.write (.value key) (some value)) :=
  h.of_write (.value key) hs (h.keyed.upsertValue value) fun _ => read_upsertValue value

theorem deleteValue (h : Represents t s) (hs : s.TakesValue key) :
    Represents (t.deleteValue key) (s.write (.value key) none) :=
  h.of_write (.value key) hs h.keyed.deleteValue fun _ => read_deleteValue

theorem upsertField (h : Represents t s) (hs : s.TakesFields key) (value : Bytes) :
    Represents (t.upsertField key name value) (s.write (.field key name) (some value)) :=
  h.of_write (.field key name) hs (h.keyed.upsertField value) fun _ => read_upsertField value

theorem deleteField (h : Represents t s) (hs : s.TakesFields key) :
    Represents (t.deleteField key name) (s.write (.field key name) none) :=
  h.of_write (.field key name) hs h.keyed.deleteField fun _ => read_deleteField

theorem delete (h : Represents t s) (key : String) :
    Represents ((t.deleteValue key).deleteFields key) (s.put key none) where
  keyed := h.keyed.deleteValue.deleteFields
  read := fun cell => by rw [read_delete, read_put_none, h.read]

end Represents

/-! ## One call -/

/-- A name is there if one of its cells holds something. -/
theorem MemoryStore.contains_iff (key : String) (s : MemoryStore) :
    s.slots.contains key = true ↔ ¬ s.TakesFields key ∨ ¬ s.TakesValue key := by
  rw [Std.ExtTreeMap.contains_eq_isSome_getElem?]
  unfold TakesFields TakesValue
  rcases hslot : s.slots[key]? with _ | ⟨bytes | hash⟩
  · simp [MemoryStore.read, hslot]
  · simp [MemoryStore.read, hslot]
  · obtain ⟨name, bytes, hbytes⟩ := exists_field hash
    simp only [Option.isSome_some, true_iff]
    right
    intro hnone
    simpa [MemoryStore.read, hslot, hbytes] using hnone name

/-- What the tables refuse. -/
theorem TableStore.step_refused {t : TableStore} {s : MemoryStore} (h : Represents t s) {c : Call}
    (hr : s.Refuses c) : TableStore.step c t = (.error (.wrongType c.key), t) := by
  cases c with
  | get key | set key value | compareAndSet key expected new =>
    exact if_pos ((h.isHash_iff key).2 hr)
  | delete key => exact absurd hr id
  | hget key name | hset key name value | hsetIfAbsent key name value | hdel key name | hkeys key =>
    exact if_pos ((h.isPlain_iff key).2 hr)

/-- A conditional write, with what it writes told apart last. -/
theorem TableStore.step_compareAndSet (key : String) (expected new : Option Bytes) (t : TableStore) :
    TableStore.step (.compareAndSet key expected new) t =
      if t.isHash key = true then (.error (.wrongType key), t)
      else if t.value? key = expected then
        (.ok true, match new with
          | some value => t.upsertValue key value
          | none => t.deleteValue key)
      else (.ok false, t) := by
  cases new <;> rfl

/-- **One call** gets the same reply from both stores, and leaves stores that stand for each other. -/
theorem represents_step {t : TableStore} {s : MemoryStore} (h : Represents t s) (c : Call) :
    (TableStore.step c t).1 = (MemoryStore.step c s).1 ∧
      Represents (TableStore.step c t).2 (MemoryStore.step c s).2 := by
  by_cases hr : s.Refuses c
  · rw [TableStore.step_refused h hr, MemoryStore.step_refused hr]
    exact ⟨rfl, h⟩
  cases c with
  | get key =>
    have hs : s.TakesValue key := Classical.not_not.1 hr
    rw [step_get hs, TableStore.step, if_neg fun hash => (h.isHash_iff key).1 hash hs, h.value?]
    exact ⟨rfl, h⟩
  | set key value =>
    have hs : s.TakesValue key := Classical.not_not.1 hr
    simp only [TableStore.step, MemoryStore.step, plain_eq_ok hs]
    rw [if_neg fun hash => (h.isHash_iff key).1 hash hs]
    exact ⟨rfl, h.upsertValue hs value⟩
  | delete key =>
    rw [step_delete, TableStore.step]
    refine ⟨congrArg Except.ok ?_, h.delete key⟩
    rw [Bool.eq_iff_iff, Bool.or_eq_true, h.isPlain_iff, h.isHash_iff, contains_iff]
  | compareAndSet key expected new =>
    have hs : s.TakesValue key := Classical.not_not.1 hr
    rw [MemoryStore.step_compareAndSet hs, TableStore.step_compareAndSet,
      if_neg fun hash => (h.isHash_iff key).1 hash hs, h.value?]
    by_cases hcurrent : s.read (.value key) = expected
    · rw [if_pos hcurrent, if_pos hcurrent]
      cases new with
      | some value => exact ⟨rfl, h.upsertValue hs value⟩
      | none => exact ⟨rfl, h.deleteValue hs⟩
    · rw [if_neg hcurrent, if_neg hcurrent]
      exact ⟨rfl, h⟩
  | hget key name =>
    have hs : s.TakesFields key := Classical.not_not.1 hr
    rw [step_hget hs, TableStore.step, if_neg fun plain => (h.isPlain_iff key).1 plain hs, h.field?]
    exact ⟨rfl, h⟩
  | hset key name value =>
    have hs : s.TakesFields key := Classical.not_not.1 hr
    rw [step_hset hs, TableStore.step, if_neg fun plain => (h.isPlain_iff key).1 plain hs]
    exact ⟨rfl, h.upsertField hs value⟩
  | hsetIfAbsent key name value =>
    have hs : s.TakesFields key := Classical.not_not.1 hr
    rw [step_hsetIfAbsent hs, TableStore.step, if_neg fun plain => (h.isPlain_iff key).1 plain hs, h.field?]
    cases hcell : s.read (.field key name) with
    | none => exact ⟨rfl, h.upsertField hs value⟩
    | some bytes => exact ⟨rfl, h⟩
  | hdel key name =>
    have hs : s.TakesFields key := Classical.not_not.1 hr
    rw [step_hdel hs, TableStore.step, if_neg fun plain => (h.isPlain_iff key).1 plain hs, h.field?]
    exact ⟨rfl, h.deleteField hs⟩
  | hkeys key =>
    have hs : s.TakesFields key := Classical.not_not.1 hr
    rw [step_hkeys hs, TableStore.step, if_neg fun plain => (h.isPlain_iff key).1 plain hs, h.fieldNames hs]
    exact ⟨rfl, h⟩

/-! ## Operations and sequences of calls -/

/-- An operation has the same result on both stores. -/
theorem Represents.run {α : Type} (p : Program α) {t : TableStore} {s : MemoryStore} (h : Represents t s) :
    (p.run t).1 = (p.run s).1 ∧ Represents (p.run t).2 (p.run s).2 := by
  induction p generalizing t s with
  | done a => exact ⟨rfl, h⟩
  | call c next ih =>
    obtain ⟨hreply, hleft⟩ := represents_step h c
    have hrun : ∀ {σ : Type} [Backend σ] (s : σ), (Program.call c next).run s =
        (next (Backend.step c s).1).run (Backend.step c s).2 := fun _ => rfl
    have hreply' : (Backend.step c t).1 = (Backend.step c s).1 := hreply
    rw [hrun, hrun, hreply']
    exact ih _ hleft
  | detach rest ih => exact ih h

/-- Tables that stand for the memory without names have no rows. -/
theorem Represents.eq_empty {t : TableStore} (h : Represents t .empty) : t = .empty := by
  have hread : ∀ cell, t.read cell = none := fun cell => (h.read cell).trans (MemoryStore.read_empty cell)
  obtain ⟨values, fields⟩ := t
  have hvalues : values = [] := by
    rw [List.eq_nil_iff_forall_not_mem]
    intro r hr
    have hrow : (⟨values, fields⟩ : TableStore).isPlain r.key = true := by
      rw [isPlain, List.any_eq_true]
      exact ⟨r, hr, decide_eq_true rfl⟩
    exact TableStore.isPlain_iff.1 hrow (hread _)
  have hfields : fields = [] := by
    rw [List.eq_nil_iff_forall_not_mem]
    intro r hr
    exact field_isSome_iff.2 ⟨r, hr, rfl, rfl⟩ (hread (.field r.key r.field))
  rw [hvalues, hfields]
  rfl

namespace Backend

variable {σ : Type} [Backend σ]

/-- The replies to calls that are made one after another, each with its call. -/
def replies : List Call → σ → List ((c : Call) × c.Reply)
  | [], _ => []
  | c :: calls, s => ⟨c, (step c s).1⟩ :: replies calls (step c s).2

/-- The store after calls that are made one after another. -/
def after (calls : List Call) (s : σ) : σ := calls.foldl (fun s c => (step c s).2) s

/-- What a name holds, as calls can see it: nothing, a plain value, or fields. No name holds two of these,
and a name that holds fields holds at least one, and lists them in order. -/
inductive HoldsOneKind (key : String) (s : σ) : Prop where
  | nothing (hget : (step (.get key) s).1 = .ok none) (hkeys : (step (.hkeys key) s).1 = .ok [])
  | value (bytes : Bytes) (hget : (step (.get key) s).1 = .ok (some bytes))
      (hkeys : (step (.hkeys key) s).1 = .error (.wrongType key))
  | fields (names : List String) (hne : names ≠ []) (hsorted : names.Pairwise (· < ·))
      (hget : (step (.get key) s).1 = .error (.wrongType key)) (hkeys : (step (.hkeys key) s).1 = .ok names)

/-- What callers rely on in every store: names hold one kind of thing, a call fails only for the kind of
what its name holds, and neither a failed call nor a lost conditional write changes anything. -/
structure Orderly (s : σ) : Prop where
  holds : ∀ key, HoldsOneKind key s
  fault : ∀ c fault, (step c s).1 = .error fault → fault = .wrongType c.key
  failed : ∀ c fault, (step c s).1 = .error fault → (step c s).2 = s
  lost : ∀ key expected new,
    (step (.compareAndSet key expected new) s).1 = .ok false → (step (.compareAndSet key expected new) s).2 = s

end Backend

open Backend

theorem MemoryStore.holdsOneKind (key : String) (s : MemoryStore) : HoldsOneKind key s := by
  by_cases hv : s.TakesValue key
  · by_cases hf : s.TakesFields key
    · have hnames : s.fieldNames key = [] := by
        rw [List.eq_nil_iff_forall_not_mem]
        intro name hname
        exact (MemoryStore.mem_fieldNames hf name).1 hname (hv name)
      apply HoldsOneKind.nothing
      · show (MemoryStore.step (.get key) s).1 = _
        rw [step_get hv]
        exact congrArg Except.ok hf
      · show (MemoryStore.step (.hkeys key) s).1 = _
        rw [step_hkeys hf, hnames]
    · obtain ⟨bytes, hbytes⟩ := Option.ne_none_iff_exists'.1 hf
      apply HoldsOneKind.value bytes
      · show (MemoryStore.step (.get key) s).1 = _
        rw [step_get hv, hbytes]
      · have hr : s.Refuses (.hkeys key) := hf
        show (MemoryStore.step (.hkeys key) s).1 = _
        rw [MemoryStore.step_refused hr]
        rfl
  · have hf : s.TakesFields key := (takesValue_or_takesFields key s).resolve_left hv
    have hr : s.Refuses (.get key) := hv
    apply HoldsOneKind.fields (s.fieldNames key)
    · intro hnil
      apply hv
      intro name
      apply Classical.byContradiction
      intro hname
      have hmem := (MemoryStore.mem_fieldNames hf name).2 hname
      rw [hnil] at hmem
      cases hmem
    · exact MemoryStore.fieldNames_sorted key s
    · show (MemoryStore.step (.get key) s).1 = _
      rw [MemoryStore.step_refused hr]
      rfl
    · show (MemoryStore.step (.hkeys key) s).1 = _
      rw [step_hkeys hf]

/-- A call that the store takes does not fail. -/
theorem MemoryStore.refuses_of_error {c : Call} {s : MemoryStore} {fault : StoreFault}
    (h : (MemoryStore.step c s).1 = .error fault) : s.Refuses c := by
  apply Classical.byContradiction
  intro hr
  cases c with
  | get key => rw [step_get (Classical.not_not.1 hr)] at h; cases h
  | set key value =>
    have hs : s.TakesValue key := Classical.not_not.1 hr
    simp only [MemoryStore.step, plain_eq_ok hs] at h
    cases h
  | delete key => cases h
  | compareAndSet key expected new =>
    rw [MemoryStore.step_compareAndSet (Classical.not_not.1 hr)] at h
    split at h <;> cases h
  | hget key name => rw [step_hget (Classical.not_not.1 hr)] at h; cases h
  | hset key name value => rw [step_hset (Classical.not_not.1 hr)] at h; cases h
  | hsetIfAbsent key name value =>
    rw [step_hsetIfAbsent (Classical.not_not.1 hr)] at h
    split at h <;> cases h
  | hdel key name => rw [step_hdel (Classical.not_not.1 hr)] at h; cases h
  | hkeys key => rw [step_hkeys (Classical.not_not.1 hr)] at h; cases h

theorem MemoryStore.orderly (s : MemoryStore) : Orderly s where
  holds := fun key => holdsOneKind key s
  fault := by
    intro c fault h
    have hrefused : (MemoryStore.step c s).1 = .error (.wrongType c.key) := by
      rw [MemoryStore.step_refused (refuses_of_error h)]
    rw [show (MemoryStore.step c s).1 = .error fault from h] at hrefused
    exact Except.error.inj hrefused
  failed := by
    intro c fault h
    show (MemoryStore.step c s).2 = s
    rw [MemoryStore.step_refused (refuses_of_error h)]
  lost := by
    intro key expected new h
    show (MemoryStore.step (.compareAndSet key expected new) s).2 = s
    change (MemoryStore.step (.compareAndSet key expected new) s).1 = .ok false at h
    by_cases hs : s.TakesValue key
    · rw [MemoryStore.step_compareAndSet hs] at h ⊢
      split at h
      · cases h
      · next hne => rw [if_neg hne]
    · have hr : s.Refuses (.compareAndSet key expected new) := hs
      rw [MemoryStore.step_refused hr]

theorem Represents.orderly {t : TableStore} {s : MemoryStore} (h : Represents t s) : Orderly t where
  holds := by
    intro key
    have hreply : ∀ c : Call, (Backend.step c t).1 = (Backend.step c s).1 := fun c => (represents_step h c).1
    cases MemoryStore.holdsOneKind key s with
    | nothing hget hkeys => exact .nothing ((hreply _).trans hget) ((hreply _).trans hkeys)
    | value bytes hget hkeys => exact .value bytes ((hreply _).trans hget) ((hreply _).trans hkeys)
    | fields names hne hsorted hget hkeys =>
      exact .fields names hne hsorted ((hreply _).trans hget) ((hreply _).trans hkeys)
  fault := by
    intro c fault hfault
    exact s.orderly.fault c fault ((represents_step h c).1.symm.trans hfault)
  failed := by
    intro c fault hfault
    have hr : s.Refuses c := MemoryStore.refuses_of_error ((represents_step h c).1.symm.trans hfault)
    show (TableStore.step c t).2 = t
    rw [TableStore.step_refused h hr]
  lost := by
    intro key expected new hlost
    change (TableStore.step (.compareAndSet key expected new) t).1 = .ok false at hlost
    show (TableStore.step (.compareAndSet key expected new) t).2 = t
    rw [TableStore.step_compareAndSet] at hlost ⊢
    by_cases hash : t.isHash key = true
    · rw [if_pos hash]
    · rw [if_neg hash] at hlost ⊢
      by_cases hcurrent : t.value? key = expected
      · rw [if_pos hcurrent] at hlost
        cases hlost
      · rw [if_neg hcurrent]

/-- Calls one after another get the same replies, and leave stores that stand for each other. -/
theorem represents_after (calls : List Call) {t : TableStore} {s : MemoryStore} (h : Represents t s) :
    replies calls s = replies calls t ∧ Represents (after calls t) (after calls s) := by
  induction calls generalizing t s with
  | nil => exact ⟨rfl, h⟩
  | cons c calls ih =>
    obtain ⟨hreply, hleft⟩ := represents_step h c
    obtain ⟨hreplies, hafter⟩ := ih hleft
    refine ⟨?_, hafter⟩
    have hreply' : (Backend.step c s).1 = (Backend.step c t).1 := hreply.symm
    show (⟨c, (Backend.step c s).1⟩ :: replies calls (Backend.step c s).2 : List ((c : Call) × c.Reply)) =
      ⟨c, (Backend.step c t).1⟩ :: replies calls (Backend.step c t).2
    rw [hreply']
    exact congrArg _ hreplies

/-- **The stores are interchangeable.** Whatever calls are made one after another, on no names at the start,
the store in memory and the store of two tables give the same reply to each. The store that either of them
comes to is orderly, and in the tables no name has rows of both kinds. -/
theorem stores_interchangeable (calls : List Call) :
    replies calls MemoryStore.empty = replies calls TableStore.empty ∧
      Orderly (after calls MemoryStore.empty) ∧ Orderly (after calls TableStore.empty) ∧
      ∀ key, ¬ ((after calls TableStore.empty).isPlain key = true ∧
        (after calls TableStore.empty).isHash key = true) := by
  obtain ⟨hreplies, hafter⟩ := represents_after calls represents_empty
  refine ⟨hreplies, MemoryStore.orderly _, hafter.orderly, ?_⟩
  rintro key ⟨hplain, hash⟩
  rcases takesValue_or_takesFields key (after calls MemoryStore.empty) with hs | hs
  · exact (hafter.isHash_iff key).1 hash hs
  · exact (hafter.isPlain_iff key).1 hplain hs

end GatewayControl
