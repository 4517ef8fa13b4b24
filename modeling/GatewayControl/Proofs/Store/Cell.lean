import GatewayControl.Store.Memory

/-!
# `GatewayControl.Proofs.Store.Cell` -- the store as cells of bytes

A cell is a place that can hold bytes: a plain value, or a field of a hash. A store is determined by
what its cells hold (`ext_read`), and no name has a plain value and a field at once
(`takesValue_or_takesFields`). Every call is described by the cells that it reads and writes: one
equation for a call that the store takes (`step_get` ... `step_hkeys`), one for all calls that it
refuses (`step_refused`), one frame lemma (`read_step_of_not_writes`), and one lemma on what its reply
depends on (`step_congr`).
-/

namespace GatewayControl

/-- A place in a store that can hold bytes. -/
inductive Cell where
  | value (key : String)
  | field (key field : String)
deriving DecidableEq, Repr

/-- The name that a cell belongs to. -/
def Cell.key : Cell → String
  | value key => key
  | field key _ => key

namespace MemoryStore

variable {s t : MemoryStore} {key name : String} {cell : Cell}

/-- What a cell holds. -/
def read (cell : Cell) (s : MemoryStore) : Option Bytes :=
  match cell with
  | .value key =>
    match s.slots[key]? with
    | some (.value bytes) => some bytes
    | _ => none
  | .field key name =>
    match s.slots[key]? with
    | some (.hash h) => h.fields[name]?
    | _ => none

/-- The name has no fields, so it can have a plain value. -/
def TakesValue (key : String) (s : MemoryStore) : Prop := ∀ name, s.read (.field key name) = none

/-- The name has no plain value, so it can have fields. -/
def TakesFields (key : String) (s : MemoryStore) : Prop := s.read (.value key) = none

/-- The name of a cell holds nothing of the other kind. -/
def Takes (cell : Cell) (s : MemoryStore) : Prop :=
  match cell with
  | .value key => s.TakesValue key
  | .field key _ => s.TakesFields key

/-- The fields of a name, sorted; none if it has a plain value. -/
def fieldNames (key : String) (s : MemoryStore) : List String :=
  match s.fields key with
  | .ok fields => fields.keys
  | .error _ => []

/-- The store with other contents of one cell, if the name of the cell takes them. -/
def write (cell : Cell) (content : Option Bytes) (s : MemoryStore) : MemoryStore :=
  match cell with
  | .value key => s.put key content
  | .field key name =>
    match s.fields key, content with
    | .ok fields, some bytes => s.putFields key (fields.insert name bytes)
    | .ok fields, none => s.putFields key (fields.erase name)
    | .error _, _ => s

/-! ## Slots and cells -/

/-- A hash has a field. -/
theorem exists_field (h : Hash) : ∃ (name : String) (bytes : Bytes), h.fields[name]? = some bytes := by
  apply Classical.byContradiction
  intro hno
  refine h.nonempty (Std.ExtTreeMap.ext_getElem? fun name => ?_)
  rw [Std.ExtTreeMap.getElem?_empty, Option.eq_none_iff_forall_not_mem]
  exact fun bytes hb => hno ⟨name, bytes, hb⟩

/-- No name has both a plain value and fields, so it takes the one or the other. -/
theorem takesValue_or_takesFields (key : String) (s : MemoryStore) :
    s.TakesValue key ∨ s.TakesFields key := by
  unfold TakesValue TakesFields
  rcases hs : s.slots[key]? with _ | ⟨_ | _⟩ <;> simp [read, hs]

/-- What a name holds is what its cells hold. -/
theorem slot_eq_of_read (h : ∀ cell : Cell, cell.key = key → s.read cell = t.read cell) :
    s.slots[key]? = t.slots[key]? := by
  have hv := h (.value key) rfl
  have hf := fun name => h (.field key name) rfl
  simp only [read] at hv hf
  -- a hash is told from an absent name by a field, which every hash has
  rcases hs : s.slots[key]? with _ | ⟨b | a⟩ <;> rcases ht : t.slots[key]? with _ | ⟨c | d⟩
  · rfl
  · simp [hs, ht] at hv
  · obtain ⟨name, bytes, hb⟩ := exists_field d
    simpa [hs, ht, hb] using hf name
  · simp [hs, ht] at hv
  · simpa [hs, ht] using hv
  · simp [hs, ht] at hv
  · obtain ⟨name, bytes, hb⟩ := exists_field a
    simpa [hs, ht, hb] using hf name
  · simp [hs, ht] at hv
  · have hfields : a.fields = d.fields :=
      Std.ExtTreeMap.ext_getElem? fun name => by simpa [hs, ht] using hf name
    cases a
    cases d
    simp_all

/-- A store is what its cells hold. -/
theorem ext_read (h : ∀ cell, s.read cell = t.read cell) : s = t := by
  cases s
  cases t
  rw [MemoryStore.mk.injEq]
  exact Std.ExtTreeMap.ext_getElem? fun key => slot_eq_of_read fun cell _ => h cell

theorem plain_eq_ok (h : s.TakesValue key) : s.plain key = .ok (s.read (.value key)) := by
  unfold plain
  rcases hs : s.slots[key]? with _ | ⟨_ | a⟩
  · simp [read, hs]
  · simp [read, hs]
  · obtain ⟨name, bytes, hb⟩ := exists_field a
    have hname := h name
    simp only [read, hs, hb] at hname
    cases hname

theorem plain_eq_error (h : ¬ s.TakesValue key) : s.plain key = .error (.wrongType key) := by
  unfold plain
  rcases hs : s.slots[key]? with _ | ⟨_ | a⟩
  · exact absurd (fun name => by simp [read, hs]) h
  · exact absurd (fun name => by simp [read, hs]) h
  · rfl

theorem fields_eq_ok (h : s.TakesFields key) :
    ∃ fields, s.fields key = .ok fields ∧ ∀ name : String, fields[name]? = s.read (.field key name) := by
  unfold TakesFields at h
  unfold fields
  rcases hs : s.slots[key]? with _ | ⟨b | a⟩
  · exact ⟨∅, rfl, fun name => by simp [read, hs]⟩
  · simp [read, hs] at h
  · exact ⟨a.fields, rfl, fun name => by simp [read, hs]⟩

theorem fields_eq_error (h : ¬ s.TakesFields key) : s.fields key = .error (.wrongType key) := by
  unfold TakesFields at h
  unfold fields
  rcases hs : s.slots[key]? with _ | ⟨b | a⟩
  · simp [read, hs] at h
  · rfl
  · simp [read, hs] at h

/-- A field is listed exactly if its cell holds something. -/
theorem mem_fieldNames (h : s.TakesFields key) (name : String) :
    name ∈ s.fieldNames key ↔ s.read (.field key name) ≠ none := by
  obtain ⟨fields, hok, hread⟩ := fields_eq_ok h
  simp only [fieldNames, hok, Std.ExtTreeMap.mem_keys, Std.ExtTreeMap.mem_iff_isSome_getElem?, hread,
    Option.isSome_iff_ne_none]

/-- The fields of a name are listed in order, and none of them twice. -/
theorem fieldNames_sorted (key : String) (s : MemoryStore) :
    (s.fieldNames key).Pairwise (· < ·) := by
  unfold fieldNames
  cases s.fields key with
  | error fault => exact List.Pairwise.nil
  | ok fields =>
    have hsorted := Std.ExtTreeMap.ordered_keys (t := fields)
    exact hsorted.imp fun hlt => compareOfLessAndEq_eq_lt.1 hlt

/-! ## Writing one cell -/

@[simp] theorem read_empty (cell : Cell) : empty.read cell = none := by
  cases cell <;> simp [read, empty]

/-- To put a content for a name is to replace all its cells. -/
theorem read_put (content : Option Bytes) :
    (s.put key content).read cell =
      if cell = .value key then content else if cell.key = key then none else s.read cell := by
  cases content <;> cases cell <;>
    simp only [put, read, Cell.key, Std.ExtTreeMap.getElem?_insert, Std.ExtTreeMap.getElem?_erase,
      Std.compare_eq_iff_eq, Cell.value.injEq, reduceCtorEq, if_false] <;>
    grind

theorem read_put_none (key : String) (s : MemoryStore) (cell : Cell) :
    (s.put key none).read cell = if cell.key = key then none else s.read cell := by
  rw [read_put]
  by_cases hc : cell = .value key
  · subst hc
    simp [Cell.key]
  · rw [if_neg hc]

/-- The same for a name that gets fields. -/
theorem read_putFields (fields : TextMap Bytes) :
    (s.putFields key fields).read cell =
      match cell with
      | .value k => if k = key then none else s.read cell
      | .field k name => if k = key then fields[name]? else s.read cell := by
  unfold putFields
  by_cases hempty : fields = ∅
  · subst hempty
    cases cell <;>
      simp only [read, dite_true, Std.ExtTreeMap.getElem?_erase, Std.compare_eq_iff_eq] <;> grind
  · cases cell <;>
      simp only [hempty, dite_false, read, Std.ExtTreeMap.getElem?_insert, Std.compare_eq_iff_eq] <;>
      grind

/-- Writing a cell changes that cell alone. -/
theorem read_write (cell : Cell) (h : s.Takes cell) (content : Option Bytes) (c : Cell) :
    (s.write cell content).read c = if c = cell then content else s.read c := by
  cases cell with
  | value key =>
    simp only [write, read_put]
    cases c with
    | value k => grind [Cell.key]
    | field k name =>
      have := h name
      grind [Cell.key]
  | field key name =>
    obtain ⟨fields, hok, hread⟩ := fields_eq_ok h
    have hval : s.read (.value key) = none := h
    cases content <;> simp only [write, hok, read_putFields] <;> cases c <;>
      simp only [Std.ExtTreeMap.getElem?_insert, Std.ExtTreeMap.getElem?_erase,
        Std.compare_eq_iff_eq, Cell.field.injEq, reduceCtorEq, if_false, hread] <;>
      grind

/-- A cell that a write changes is the one written. -/
theorem eq_of_read_write_ne {cell c : Cell} (h : s.Takes cell) {content : Option Bytes}
    (hne : (s.write cell content).read c ≠ s.read c) : c = cell := by
  rw [read_write cell h] at hne
  exact Classical.byContradiction fun hc => hne (if_neg hc)

/-- Writing what a cell holds changes nothing. -/
theorem write_eq_self (cell : Cell) (h : s.Takes cell) {content : Option Bytes}
    (hc : s.read cell = content) : s.write cell content = s := by
  refine ext_read fun c => ?_
  rw [read_write cell h]
  split
  · next hcell => rw [hcell, hc]
  · rfl

/-- A cell that was written can be written again. -/
theorem takes_write (cell : Cell) (h : s.Takes cell) (content : Option Bytes) :
    (s.write cell content).Takes cell := by
  cases cell with
  | value key =>
    intro name
    rw [read_write (.value key) h, if_neg (by simp)]
    exact h name
  | field key name =>
    unfold Takes TakesFields
    simp only
    rw [read_write (.field key name) h, if_neg (by simp)]
    exact h

/-- Writing back what a cell held undoes a write. -/
theorem write_write_eq_self (cell : Cell) (h : s.Takes cell) (content : Option Bytes) :
    (s.write cell content).write cell (s.read cell) = s := by
  refine ext_read fun c => ?_
  rw [read_write cell (takes_write cell h content), read_write cell h]
  by_cases hc : c = cell
  · rw [if_pos hc, hc]
  · rw [if_neg hc, if_neg hc]

/-- What another name takes does not change. -/
theorem takes_write_iff (cell : Cell) (h : s.Takes cell) (content : Option Bytes) {c : Cell}
    (hkey : c.key ≠ cell.key) : (s.write cell content).Takes c ↔ s.Takes c := by
  have hread : ∀ d : Cell, d.key = c.key → (s.write cell content).read d = s.read d := by
    intro d hd
    rw [read_write cell h, if_neg]
    intro hdc
    exact hkey (by rw [← hd, hdc])
  cases c with
  | value key => exact forall_congr' fun name => by rw [hread (.field key name) rfl]
  | field key name =>
    unfold Takes TakesFields
    simp only
    rw [hread (.value key) rfl]

/-! ## Calls that the store takes -/

theorem step_get (h : s.TakesValue key) : step (.get key) s = (.ok (s.read (.value key)), s) := by
  simp only [step, plain_eq_ok h]

theorem step_compareAndSet (h : s.TakesValue key) (expected new : Option Bytes) :
    step (.compareAndSet key expected new) s =
      if s.read (.value key) = expected then (.ok true, s.write (.value key) new) else (.ok false, s) := by
  simp only [step, plain_eq_ok h, write]

theorem step_hget (h : s.TakesFields key) :
    step (.hget key name) s = (.ok (s.read (.field key name)), s) := by
  obtain ⟨fields, hok, hread⟩ := fields_eq_ok h
  simp only [step, hok, Except.map, hread]

theorem step_hset (h : s.TakesFields key) (value : Bytes) :
    step (.hset key name value) s = (.ok (), s.write (.field key name) (some value)) := by
  obtain ⟨fields, hok, -⟩ := fields_eq_ok h
  simp only [step, hok, write]

theorem step_hsetIfAbsent (h : s.TakesFields key) (value : Bytes) :
    step (.hsetIfAbsent key name value) s =
      if s.read (.field key name) = none then (.ok true, s.write (.field key name) (some value))
      else (.ok false, s) := by
  obtain ⟨fields, hok, hread⟩ := fields_eq_ok h
  simp only [step, hok, write, Std.ExtTreeMap.contains_eq_isSome_getElem?, hread]
  cases s.read (.field key name) <;> simp

/-- A deleted field is gone, and the answer tells whether it was there before. -/
theorem step_hdel (h : s.TakesFields key) :
    step (.hdel key name) s =
      (.ok (s.read (.field key name)).isSome, s.write (.field key name) none) := by
  obtain ⟨fields, hok, hread⟩ := fields_eq_ok h
  simp only [step, hok, Std.ExtTreeMap.contains_eq_isSome_getElem?, hread]
  rcases hr : s.read (.field key name) with _ | bytes
  · have hself : s.write (.field key name) none = s := write_eq_self (.field key name) h hr
    simp [hself]
  · simp [write, hok]

theorem step_hkeys (h : s.TakesFields key) : step (.hkeys key) s = (.ok (s.fieldNames key), s) := by
  obtain ⟨fields, hok, -⟩ := fields_eq_ok h
  simp only [step, hok, Except.map, fieldNames]

theorem step_delete (key : String) (s : MemoryStore) :
    step (.delete key) s = (.ok (s.slots.contains key), s.put key none) := rfl

/-! ## Calls that the store refuses, and what no call touches -/

/-- The name of the call holds what the call is not made for. -/
def Refuses (c : Call) (s : MemoryStore) : Prop :=
  match c with
  | .get key | .set key _ | .compareAndSet key _ _ => ¬ s.TakesValue key
  | .delete _ => False
  | .hget key _ | .hset key _ _ | .hsetIfAbsent key _ _ | .hdel key _ | .hkeys key =>
    ¬ s.TakesFields key

/-- A refused call changes nothing. -/
theorem step_refused {c : Call} (h : s.Refuses c) : step c s = (.error (.wrongType c.key), s) := by
  cases c with
  | get key | set key value | compareAndSet key expected new =>
    simp only [step, plain_eq_error h, Call.key]
  | delete key => exact absurd h id
  | hget key field | hset key field value | hsetIfAbsent key field value | hdel key field | hkeys key =>
    simp only [step, fields_eq_error h, Call.key, Except.map]

/-- Nothing is written where there is something already. -/
theorem step_hsetIfAbsent_of_present (h : s.read (.field key name) ≠ none) (value : Bytes) :
    (step (.hsetIfAbsent key name value) s).2 = s := by
  by_cases ht : s.TakesFields key
  · rw [step_hsetIfAbsent ht, if_neg h]
  · have hrefused : s.Refuses (.hsetIfAbsent key name value) := ht
    rw [step_refused hrefused]

end MemoryStore

/-- The call may change the cell. -/
def Call.Writes (c : Call) (cell : Cell) : Prop :=
  match c with
  | .get _ | .hget _ _ | .hkeys _ => False
  | .set key _ | .compareAndSet key _ _ => cell = .value key
  | .delete key => cell.key = key
  | .hset key name _ | .hsetIfAbsent key name _ | .hdel key name => cell = .field key name

/-- **Frame of a call.** What a call does not write stays as it was. -/
theorem MemoryStore.read_step_of_not_writes {c : Call} {cell : Cell} (h : ¬ c.Writes cell)
    (s : MemoryStore) : (MemoryStore.step c s).2.read cell = s.read cell := by
  by_cases hr : s.Refuses c
  · rw [step_refused hr]
  cases c with
  | get key => rw [step_get (Classical.not_not.mp hr)]
  | hget key field => rw [step_hget (Classical.not_not.mp hr)]
  | hkeys key => rw [step_hkeys (Classical.not_not.mp hr)]
  | set key value =>
    have ht : s.TakesValue key := Classical.not_not.mp hr
    simp only [step, plain_eq_ok ht]
    exact (read_write (.value key) ht _ _).trans (if_neg h)
  | delete key =>
    rw [step_delete]
    simp only [read_put]
    have hcell : cell ≠ .value key := fun hc => h (by rw [hc]; rfl)
    rw [if_neg hcell, if_neg (show ¬ cell.key = key from h)]
  | compareAndSet key expected new =>
    have ht : s.TakesValue key := Classical.not_not.mp hr
    rw [step_compareAndSet ht]
    split
    · exact (read_write (.value key) ht _ _).trans (if_neg h)
    · rfl
  | hset key field value =>
    have ht : s.TakesFields key := Classical.not_not.mp hr
    rw [step_hset ht]
    exact (read_write (.field key field) ht _ _).trans (if_neg h)
  | hsetIfAbsent key field value =>
    have ht : s.TakesFields key := Classical.not_not.mp hr
    rw [step_hsetIfAbsent ht]
    split
    · exact (read_write (.field key field) ht _ _).trans (if_neg h)
    · rfl
  | hdel key field =>
    have ht : s.TakesFields key := Classical.not_not.mp hr
    rw [step_hdel ht]
    exact (read_write (.field key field) ht _ _).trans (if_neg h)

/-- The cells that settle the reply of a call, and what it leaves in the cells that it writes. -/
def Call.Consults (c : Call) (cell : Cell) : Prop :=
  match c with
  | .get key | .set key _ | .delete key | .compareAndSet key _ _ | .hkeys key => cell.key = key
  | .hget key name | .hset key name _ | .hsetIfAbsent key name _ | .hdel key name =>
    cell = .value key ∨ cell = .field key name

theorem Call.consults_of_writes {c : Call} {cell : Cell} (h : c.Writes cell) : c.Consults cell := by
  cases c with
  | get key | hget key name | hkeys key => exact absurd h id
  | set key value | compareAndSet key expected new => exact congrArg Cell.key h
  | delete key => exact h
  | hset key name value | hsetIfAbsent key name value | hdel key name => exact .inr h

theorem MemoryStore.refuses_congr {c : Call} {s t : MemoryStore}
    (h : ∀ cell, c.Consults cell → s.read cell = t.read cell) : s.Refuses c ↔ t.Refuses c := by
  cases c with
  | get key | set key value | compareAndSet key expected new =>
    exact not_congr (forall_congr' fun name => by rw [h (.field key name) rfl])
  | delete key => exact Iff.rfl
  | hget key name | hset key name value | hsetIfAbsent key name value | hdel key name =>
    exact not_congr (by rw [TakesFields, TakesFields, h (.value key) (.inl rfl)])
  | hkeys key => exact not_congr (by rw [TakesFields, TakesFields, h (.value key) rfl])

/-- Stores that take a write agree on what is written. -/
theorem MemoryStore.read_write_same {s t : MemoryStore} {written : Cell} (hs : s.Takes written)
    (ht : t.Takes written) (content : Option Bytes) (cell : Cell) (h : cell = written) :
    (s.write written content).read cell = (t.write written content).read cell := by
  rw [read_write written hs, read_write written ht, if_pos h, if_pos h]

/-- **Locality of a call.** Stores that agree on what a call consults answer it alike, and agree
afterwards on what it writes. -/
theorem MemoryStore.step_congr {c : Call} {s t : MemoryStore}
    (h : ∀ cell, c.Consults cell → s.read cell = t.read cell) :
    (MemoryStore.step c s).1 = (MemoryStore.step c t).1 ∧
      ∀ cell, c.Writes cell → (MemoryStore.step c s).2.read cell = (MemoryStore.step c t).2.read cell := by
  have hkept : ∀ cell, c.Writes cell → s.read cell = t.read cell := fun cell hw =>
    h cell (Call.consults_of_writes hw)
  by_cases hs : s.Refuses c
  · rw [step_refused hs, step_refused ((refuses_congr h).1 hs)]
    exact ⟨rfl, hkept⟩
  have ht : ¬ t.Refuses c := fun hrefused => hs ((refuses_congr h).2 hrefused)
  cases c with
  | get key =>
    rw [step_get (Classical.not_not.1 hs), step_get (Classical.not_not.1 ht), h (.value key) rfl]
    exact ⟨rfl, hkept⟩
  | set key value =>
    have hs' : s.TakesValue key := Classical.not_not.1 hs
    have ht' : t.TakesValue key := Classical.not_not.1 ht
    simp only [step, plain_eq_ok hs', plain_eq_ok ht']
    refine ⟨trivial, fun cell hw => ?_⟩
    have hcell : cell = .value key := hw
    rw [read_put, read_put, if_pos hcell, if_pos hcell]
  | delete key =>
    rw [step_delete, step_delete]
    refine ⟨?_, fun cell hw => ?_⟩
    · simp only [Std.ExtTreeMap.contains_eq_isSome_getElem?, slot_eq_of_read h]
    · have hcell : cell.key = key := hw
      simp only [read_put_none, if_pos hcell]
  | compareAndSet key expected new =>
    have hs' : s.Takes (.value key) := Classical.not_not.1 hs
    have ht' : t.Takes (.value key) := Classical.not_not.1 ht
    rw [step_compareAndSet hs', step_compareAndSet ht', h (.value key) rfl]
    split
    · exact ⟨rfl, read_write_same hs' ht' new⟩
    · exact ⟨rfl, hkept⟩
  | hget key name =>
    rw [step_hget (Classical.not_not.1 hs), step_hget (Classical.not_not.1 ht),
      h (.field key name) (.inr rfl)]
    exact ⟨rfl, hkept⟩
  | hset key name value =>
    have hs' : s.Takes (.field key name) := Classical.not_not.1 hs
    have ht' : t.Takes (.field key name) := Classical.not_not.1 ht
    rw [step_hset hs', step_hset ht']
    exact ⟨rfl, read_write_same hs' ht' (some value)⟩
  | hsetIfAbsent key name value =>
    have hs' : s.Takes (.field key name) := Classical.not_not.1 hs
    have ht' : t.Takes (.field key name) := Classical.not_not.1 ht
    rw [step_hsetIfAbsent hs', step_hsetIfAbsent ht', h (.field key name) (.inr rfl)]
    split
    · exact ⟨rfl, read_write_same hs' ht' (some value)⟩
    · exact ⟨rfl, hkept⟩
  | hdel key name =>
    have hs' : s.Takes (.field key name) := Classical.not_not.1 hs
    have ht' : t.Takes (.field key name) := Classical.not_not.1 ht
    rw [step_hdel hs', step_hdel ht', h (.field key name) (.inr rfl)]
    exact ⟨rfl, read_write_same hs' ht' none⟩
  | hkeys key =>
    have hs' : s.TakesFields key := Classical.not_not.1 hs
    have ht' : t.TakesFields key := Classical.not_not.1 ht
    have hnames : s.fieldNames key = t.fieldNames key := by
      simp only [fieldNames, fields, slot_eq_of_read h]
    rw [step_hkeys hs', step_hkeys ht', hnames]
    exact ⟨rfl, hkept⟩

end GatewayControl
