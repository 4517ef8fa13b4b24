import GatewayControl.Proofs.Dns.AddressSet
import GatewayControl.Proofs.Dns.StoredForm
import GatewayControl.Proofs.Operation.Since

/-!
# `GatewayControl.Proofs.Dns.InsertionOrder` -- record sets are maps in insertion order

What a set holds after a history of changes is said in terms of the history alone. Data is `Present` if it
was added and not removed since; it was `InsertedAt` the first of the additions since it was last absent;
and its record is the one of the `LatestAdd`, with the time to live that this addition gave. The lists of
the set are then determined: one record for each data that is present, the latest one, and the data that was
inserted first stands first (`Holds`). Each change keeps this (`Holds.add`, `Holds.remove`), and so it holds
of every set that changes make of a new one.

Sets that were read from stored bytes may hold data twice. For them it is said what a change does to
the lists (`RecordSet.get_remove`, `RecordSet.countP_add`).

The main statement is `RecordSet.insertion_ordered_map`.
-/

namespace GatewayControl

/-! ## Records with the same data -/

namespace Record

/-- The data of a record: the record at no time to live. -/
def untimed : Record → Record
  | a r => a ⟨r.data, 0⟩
  | aaaa r => aaaa ⟨r.data, 0⟩
  | cname r => cname ⟨r.data, 0⟩
  | txt r => txt ⟨r.data, 0⟩

variable {r s u : Record}

theorem sameData_iff : r.sameData s = true ↔ r.untimed = s.untimed := by
  cases r <;> cases s <;> simp [sameData, untimed]

theorem sameData_comm (r s : Record) : r.sameData s = s.sameData r := by
  rw [Bool.eq_iff_iff, sameData_iff, sameData_iff, eq_comm]

/-- Records with the same data have it in common with the same records. -/
theorem sameData_congr (h : r.sameData s = true) (u : Record) : r.sameData u = s.sameData u := by
  rw [Bool.eq_iff_iff, sameData_iff, sameData_iff, sameData_iff.1 h]

theorem sameData_congr_right (h : r.sameData s = true) (u : Record) : u.sameData r = u.sameData s := by
  rw [u.sameData_comm, sameData_congr h, s.sameData_comm]

theorem type_of_sameData (h : r.sameData s = true) : r.type = s.type := by
  cases r <;> cases s <;> first
    | rfl
    | cases h

end Record

theorem RecordType.mem_all (t : RecordType) : t ∈ all := by
  cases t <;> decide

/-! ## Histories -/

namespace RecordEdit

/-- The record that is added or removed. -/
def record : RecordEdit → Record
  | add r => r
  | remove r => r

/-- The change is one to the data of a record. -/
def touches (r : Record) (e : RecordEdit) : Bool := e.record.sameData r

/-- The change adds the data of a record. -/
def adds (r : Record) : RecordEdit → Bool
  | add s => s.sameData r
  | remove _ => false

/-- The change removes the data of a record. -/
def removes (r : Record) : RecordEdit → Bool
  | add _ => false
  | remove s => s.sameData r

/-- The last change to the data of a record was to add this record. -/
def LatestAdd (edits : List RecordEdit) (r : Record) : Prop :=
  Since (fun _ e => e = .add r) (fun e => e.touches r = false) edits

/-- The data of a record was added and not removed since. -/
def Present (edits : List RecordEdit) (r : Record) : Prop :=
  Since (fun _ e => e.adds r = true) (fun e => e.removes r = false) edits

/-- The data of a record was added when it was not present, by the change with this number, and not removed
since. -/
def InsertedAt (edits : List RecordEdit) (r : Record) (n : Nat) : Prop :=
  Since (fun before e => before.length = n ∧ ¬ Present before r ∧ e.adds r = true)
    (fun e => e.removes r = false) edits

variable {edits edits' : List RecordEdit} {r s : Record} {m n : Nat}

/-! ### One more change -/

theorem latestAdd_add :
    LatestAdd (edits ++ [.add r]) s ↔ s = r ∨ (LatestAdd edits s ∧ r.sameData s = false) := by
  refine since_concat.trans (or_congr_left ?_)
  exact ⟨fun h => (add.inj h).symm, fun h => congrArg add h.symm⟩

theorem latestAdd_remove :
    LatestAdd (edits ++ [.remove r]) s ↔ LatestAdd edits s ∧ r.sameData s = false := by
  refine since_concat.trans (or_iff_right ?_)
  rintro ⟨⟩

theorem present_add : Present (edits ++ [.add r]) s ↔ r.sameData s = true ∨ Present edits s :=
  since_concat.trans (or_congr_right (and_iff_left rfl))

theorem present_remove :
    Present (edits ++ [.remove r]) s ↔ Present edits s ∧ r.sameData s = false :=
  since_concat.trans (or_iff_right Bool.false_ne_true)

theorem insertedAt_add :
    InsertedAt (edits ++ [.add r]) s n ↔
      (edits.length = n ∧ ¬ Present edits s ∧ r.sameData s = true) ∨ InsertedAt edits s n :=
  since_concat.trans (or_congr_right (and_iff_left rfl))

theorem insertedAt_remove :
    InsertedAt (edits ++ [.remove r]) s n ↔ InsertedAt edits s n ∧ r.sameData s = false :=
  since_concat.trans (or_iff_right fun h => Bool.false_ne_true h.2.2)

/-- A change to other data leaves the latest addition. -/
theorem latestAdd_untouched {e : RecordEdit} (h : e.touches s = false) :
    LatestAdd (edits ++ [e]) s ↔ LatestAdd edits s := by
  refine since_concat.trans ((or_iff_right ?_).trans (and_iff_left h))
  rintro rfl
  exact absurd s.sameData_self (Bool.eq_false_iff.1 h)

/-- A change to other data leaves the insertion. -/
theorem insertedAt_untouched {e : RecordEdit} (h : e.touches s = false) :
    InsertedAt (edits ++ [e]) s n ↔ InsertedAt edits s n := by
  cases e with
  | add r => exact insertedAt_add.trans (or_iff_right fun hr => Bool.false_ne_true (h.symm.trans hr.2.2))
  | remove r => exact insertedAt_remove.trans (and_iff_left h)

/-! ### Presence, insertion and the latest addition -/

theorem InsertedAt.present (h : InsertedAt edits r n) : Present edits r :=
  Since.mono h (fun _ _ he => he.2.2) fun _ he => he

theorem InsertedAt.lt_length (h : InsertedAt edits r n) : n < edits.length := by
  obtain ⟨before, e, after, rfl, ⟨rfl, -⟩, -⟩ := h
  simp

/-- Data that is present was inserted. -/
theorem Present.exists_insertedAt (h : Present edits r) : ∃ n, InsertedAt edits r n := by
  induction edits using List.reverseRecOn with
  | nil => exact absurd h not_since_nil
  | append_singleton edits e ih =>
    cases e with
    | add s =>
      by_cases hbefore : Present edits r
      · obtain ⟨n, hn⟩ := ih hbefore
        exact ⟨n, insertedAt_add.2 (.inr hn)⟩
      · exact ⟨edits.length, insertedAt_add.2
          (.inl ⟨rfl, hbefore, (present_add.1 h).resolve_right hbefore⟩)⟩
    | remove s =>
      obtain ⟨hbefore, hs⟩ := present_remove.1 h
      obtain ⟨n, hn⟩ := ih hbefore
      exact ⟨n, insertedAt_remove.2 ⟨hn, hs⟩⟩

theorem present_iff_exists_insertedAt : Present edits r ↔ ∃ n, InsertedAt edits r n :=
  ⟨Present.exists_insertedAt, fun ⟨_, h⟩ => h.present⟩

/-- Data is inserted once: as long as it is present, adding it is no insertion. -/
theorem InsertedAt.unique (hm : InsertedAt edits r m) (hn : InsertedAt edits r n) : m = n := by
  induction edits using List.reverseRecOn with
  | nil => exact absurd hm not_since_nil
  | append_singleton edits e ih =>
    cases e with
    | add s =>
      rcases insertedAt_add.1 hm with ⟨rfl, hm, -⟩ | hm <;>
        rcases insertedAt_add.1 hn with ⟨rfl, hn, -⟩ | hn
      · rfl
      · exact absurd hn.present hm
      · exact absurd hm.present hn
      · exact ih hm hn
    | remove s => exact ih (insertedAt_remove.1 hm).1 (insertedAt_remove.1 hn).1

theorem adds_congr (h : r.sameData s = true) : adds r = adds s := by
  funext e
  cases e with
  | add u => exact Record.sameData_congr_right h u
  | remove u => rfl

theorem removes_congr (h : r.sameData s = true) : removes r = removes s := by
  funext e
  cases e with
  | add u => rfl
  | remove u => exact Record.sameData_congr_right h u

/-- Presence is about data. -/
theorem Present.congr (h : r.sameData s = true) : Present edits r ↔ Present edits s := by
  unfold Present
  rw [adds_congr h, removes_congr h]

/-- Insertion is about data. -/
theorem InsertedAt.congr (h : r.sameData s = true) : InsertedAt edits r n ↔ InsertedAt edits s n := by
  unfold InsertedAt
  simp only [Present.congr h, adds_congr h, removes_congr h]

/-- Data is present if there is a latest addition of it. -/
theorem present_iff_exists_latestAdd :
    Present edits r ↔ ∃ s, s.sameData r = true ∧ LatestAdd edits s := by
  induction edits using List.reverseRecOn with
  | nil => exact ⟨fun h => absurd h not_since_nil, fun ⟨_, _, h⟩ => absurd h not_since_nil⟩
  | append_singleton edits e ih =>
    cases e with
    | add u =>
      simp only [present_add, latestAdd_add, ih]
      constructor
      · intro h
        by_cases hu : u.sameData r = true
        · exact ⟨u, hu, .inl rfl⟩
        · obtain ⟨s, hs, hlatest⟩ := h.resolve_left hu
          refine ⟨s, hs, .inr ⟨hlatest, ?_⟩⟩
          rw [Record.sameData_congr_right hs]
          exact Bool.eq_false_iff.2 hu
      · rintro ⟨s, hs, rfl | ⟨hlatest, -⟩⟩
        · exact .inl hs
        · exact .inr ⟨s, hs, hlatest⟩
    | remove u =>
      simp only [present_remove, latestAdd_remove, ih]
      constructor
      · rintro ⟨⟨s, hs, hlatest⟩, hu⟩
        exact ⟨s, hs, hlatest, (Record.sameData_congr_right hs u).trans hu⟩
      · rintro ⟨s, hs, hlatest, hu⟩
        exact ⟨⟨s, hs, hlatest⟩, (Record.sameData_congr_right hs u).symm.trans hu⟩

/-- What was added last is read off the changes to the data alone. -/
theorem latestAdd_filter (edits : List RecordEdit) (r : Record) :
    LatestAdd (edits.filter (touches r)) r ↔ LatestAdd edits r := by
  refine since_filter ?_ fun _ he => he
  rintro e rfl
  exact r.sameData_self

end RecordEdit

open RecordEdit

/-! ## The lists of a set -/

/-- The list holds a record for each data of a type that is present after a history: the latest one, and
what was inserted first stands first. -/
structure Holds (edits : List RecordEdit) (t : RecordType) (list : List Record) : Prop where
  mem_iff : ∀ r, r ∈ list ↔ r.type = t ∧ LatestAdd edits r
  ordered : list.Pairwise fun r s => ∃ m n, InsertedAt edits r m ∧ InsertedAt edits s n ∧ m < n

/-- A record takes the place of the first one with its data, or goes to the end. -/
theorem RecordTable.refresh_cases (r : Record) (list : List Record) :
    ((∀ s ∈ list, s.sameData r = false) ∧ (refresh r list).2 = list ++ [r]) ∨
    ∃ before s after, list = before ++ s :: after ∧ s.sameData r = true ∧
      (∀ u ∈ before, u.sameData r = false) ∧ (refresh r list).2 = before ++ r :: after := by
  induction list with
  | nil => exact .inl ⟨fun s hs => absurd hs List.not_mem_nil, rfl⟩
  | cons s rest ih =>
    unfold refresh
    cases hs : s.sameData r with
    | true => exact .inr ⟨[], s, rest, rfl, hs, fun u hu => absurd hu List.not_mem_nil, rfl⟩
    | false =>
      rcases ih with ⟨hrest, heq⟩ | ⟨before, u, after, rfl, hu, hbefore, heq⟩
      · exact .inl ⟨List.forall_mem_cons.2 ⟨hs, hrest⟩, congrArg (s :: ·) heq⟩
      · exact .inr ⟨s :: before, u, after, rfl, hu, List.forall_mem_cons.2 ⟨hs, hbefore⟩,
          congrArg (s :: ·) heq⟩

/-- Where no data is there twice, refreshing replaces the record with the data and keeps the others. -/
theorem RecordTable.mem_refresh {r s : Record} {list : List Record}
    (h : list.Pairwise fun r s => r.sameData s = false) :
    s ∈ (refresh r list).2 ↔ s = r ∨ (s ∈ list ∧ r.sameData s = false) := by
  rcases refresh_cases r list with ⟨hnew, heq⟩ | ⟨before, u, after, rfl, hu, hbefore, heq⟩
  · rw [heq, List.mem_append, List.mem_singleton, or_comm]
    refine or_congr_right (and_iff_left_of_imp fun hs => ?_).symm
    rw [r.sameData_comm]
    exact hnew s hs
  · have hafter : ∀ s ∈ after, r.sameData s = false := fun s hs => by
      rw [← Record.sameData_congr hu]
      exact List.rel_of_pairwise_cons (List.pairwise_append.1 h).2.1 hs
    rw [heq]
    simp only [List.mem_append, List.mem_cons]
    constructor
    · rintro (hs | rfl | hs)
      · exact .inr ⟨.inl hs, (r.sameData_comm s).trans (hbefore s hs)⟩
      · exact .inl rfl
      · exact .inr ⟨.inr (.inr hs), hafter s hs⟩
    · rintro (rfl | ⟨hs | rfl | hs, hne⟩)
      · exact .inr (.inl rfl)
      · exact .inl hs
      · exact absurd ((s.sameData_comm r).symm.trans hu) (Bool.eq_false_iff.1 hne)
      · exact .inr (.inr hs)

/-- Refreshing leaves the number of records with some data, unless it brings this data in. -/
theorem RecordTable.countP_refresh {r s : Record} {list : List Record}
    (h : r.sameData s = true → ∃ u ∈ list, u.sameData r = true) :
    (refresh r list).2.countP (·.sameData s) = list.countP (·.sameData s) := by
  rcases refresh_cases r list with ⟨hnew, heq⟩ | ⟨before, u, after, rfl, hu, -, heq⟩
  · have hother : r.sameData s = false := by
      refine Bool.eq_false_iff.2 fun hrs => ?_
      obtain ⟨u, hu, hur⟩ := h hrs
      exact absurd hur (Bool.eq_false_iff.1 (hnew u hu))
    simp [heq, List.countP_append, hother]
  · simp [heq, List.countP_append, List.countP_cons, Record.sameData_congr hu]

namespace Holds

variable {edits : List RecordEdit} {t : RecordType} {list : List Record} {r : Record}

theorem nil (t : RecordType) : Holds [] t [] where
  mem_iff _ := ⟨fun h => absurd h List.not_mem_nil, fun h => absurd h.2 not_since_nil⟩
  ordered := .nil

/-- No data stands in the list twice. -/
theorem distinct (h : Holds edits t list) : list.Pairwise fun r s => r.sameData s = false := by
  refine h.ordered.imp ?_
  rintro r s ⟨m, n, hm, hn, hlt⟩
  refine Bool.eq_false_iff.2 fun hsame => ?_
  obtain rfl := hm.unique ((InsertedAt.congr hsame).2 hn)
  exact absurd hlt (Nat.lt_irrefl _)

theorem nodup (h : Holds edits t list) : list.Nodup :=
  h.distinct.imp fun hdistinct heq => by
    subst heq
    exact absurd (Record.sameData_self _) (Bool.eq_false_iff.1 hdistinct)

theorem insertedAt (h : Holds edits t list) (hr : r ∈ list) : ∃ n, InsertedAt edits r n :=
  present_iff_exists_insertedAt.1
    (present_iff_exists_latestAdd.2 ⟨r, r.sameData_self, ((h.mem_iff r).1 hr).2⟩)

/-- Two such lists have the same records, which the order of insertion puts in the same places. -/
theorem unique {list' : List Record} (h : Holds edits t list) (h' : Holds edits t list') :
    list = list' := by
  have hperm : list.Perm list' := by
    refine (List.perm_ext_iff_of_nodup h.nodup h'.nodup).2 fun r => ?_
    rw [h.mem_iff, h'.mem_iff]
  refine hperm.eq_of_pairwise ?_ h.ordered h'.ordered
  rintro r s - - ⟨m, n, hm, hn, hlt⟩ ⟨n', m', hn', hm', hlt'⟩
  obtain rfl := hm.unique hm'
  obtain rfl := hn.unique hn'
  exact absurd hlt (Nat.lt_asymm hlt')

/-- A change to data of another type leaves the list. -/
theorem other (h : Holds edits t list) {e : RecordEdit} (he : e.record.type ≠ t) :
    Holds (edits ++ [e]) t list := by
  have hother : ∀ r : Record, r.type = t → e.touches r = false := fun r hr =>
    Bool.eq_false_iff.2 fun hsame => he ((Record.type_of_sameData hsame).trans hr)
  refine ⟨fun r => (h.mem_iff r).trans (and_congr_right fun hr => ?_), ?_⟩
  · exact (latestAdd_untouched (hother r hr)).symm
  · refine h.ordered.imp_of_mem fun hr hs => ?_
    rintro ⟨m, n, hm, hn, hlt⟩
    have hr := hother _ ((h.mem_iff _).1 hr).1
    have hs := hother _ ((h.mem_iff _).1 hs).1
    exact ⟨m, n, (insertedAt_untouched hr).2 hm, (insertedAt_untouched hs).2 hn, hlt⟩

/-- An added record is put in the place of the one with its data, or at the end. -/
theorem add (h : Holds edits t list) (hr : r.type = t) :
    Holds (edits ++ [.add r]) t (RecordTable.refresh r list).2 where
  mem_iff s := by
    have htype : s = r ↔ s.type = t ∧ s = r := (and_iff_right_of_imp fun heq => heq ▸ hr).symm
    rw [RecordTable.mem_refresh h.distinct, h.mem_iff, latestAdd_add, and_assoc, and_or_left, ← htype]
  ordered := by
    have hold : list.Pairwise fun s u => ∃ m n, InsertedAt (edits ++ [.add r]) s m ∧
        InsertedAt (edits ++ [.add r]) u n ∧ m < n := by
      refine h.ordered.imp ?_
      rintro s u ⟨m, n, hm, hn, hlt⟩
      exact ⟨m, n, insertedAt_add.2 (.inr hm), insertedAt_add.2 (.inr hn), hlt⟩
    rcases RecordTable.refresh_cases r list with ⟨hnew, heq⟩ | ⟨before, s, after, rfl, hs, -, heq⟩
    · -- data that is not in the list is inserted by this change, after all that is there
      have habsent : ¬ Present edits r := by
        intro hpresent
        obtain ⟨s, hs, hlatest⟩ := present_iff_exists_latestAdd.1 hpresent
        have hmem := (h.mem_iff s).2 ⟨(Record.type_of_sameData hs).trans hr, hlatest⟩
        exact absurd hs (Bool.eq_false_iff.1 (hnew s hmem))
      rw [heq, List.pairwise_append]
      refine ⟨hold, List.pairwise_singleton _ _, fun s hs u hu => ?_⟩
      obtain rfl := List.mem_singleton.1 hu
      obtain ⟨m, hm⟩ := h.insertedAt hs
      exact ⟨m, edits.length, insertedAt_add.2 (.inr hm),
        insertedAt_add.2 (.inl ⟨rfl, habsent, u.sameData_self⟩), hm.lt_length⟩
    · -- a record with the same data was inserted at the same time
      rw [heq]
      simpa only [List.pairwise_append, List.pairwise_cons, List.mem_cons, forall_eq_or_imp,
        InsertedAt.congr hs] using hold

/-- The data of a removed record goes. -/
theorem remove (h : Holds edits t list) (r : Record) :
    Holds (edits ++ [.remove r]) t (list.filter fun s => !s.sameData r) where
  mem_iff s := by
    rw [List.mem_filter, h.mem_iff, latestAdd_remove, and_assoc, Bool.not_eq_true',
      s.sameData_comm]
  ordered := by
    refine (h.ordered.filter _).imp_of_mem fun hs hu => ?_
    have hkept : ∀ s : Record, s ∈ list.filter (fun s => !s.sameData r) → r.sameData s = false := by
      intro s hs
      rw [r.sameData_comm, ← Bool.not_eq_true']
      exact (List.mem_filter.1 hs).2
    rintro ⟨m, n, hm, hn, hlt⟩
    exact ⟨m, n, insertedAt_remove.2 ⟨hm, hkept _ hs⟩, insertedAt_remove.2 ⟨hn, hkept _ hu⟩, hlt⟩

end Holds

namespace RecordSet

/-! ## Single changes, to any set -/

/-- **Removing a record** leaves the other data, and of its own data no record, however often it is
there. -/
theorem get_remove (set : RecordSet) (r : Record) (t : RecordType) :
    (set.remove r).2.get t = (set.get t).filter fun s => !s.sameData r := by
  refine (get_erase set r t).trans ?_
  split
  · next ht => rw [ht]
  · next ht =>
    refine (List.filter_eq_self.2 fun s hs => ?_).symm
    rw [Bool.not_eq_true']
    refine Bool.eq_false_iff.2 fun hsame => ht ?_
    rw [← type_of_mem_get hs, Record.type_of_sameData hsame]

/-- **Adding a record** leaves the number of records with data that is present. -/
theorem countP_add {set : RecordSet} {s : Record} (h : set.contains s = true) (r : Record)
    (t : RecordType) :
    ((set.add r).2.get t).countP (·.sameData s) = (set.get t).countP (·.sameData s) := by
  refine (congrArg _ (get_insert set r t)).trans ?_
  split
  · next ht =>
    rw [ht]
    refine RecordTable.countP_refresh fun hrs => ?_
    obtain ⟨u, hu, hus⟩ := List.any_eq_true.1 h
    rw [← Record.type_of_sameData hrs] at hu
    refine ⟨u, hu, ?_⟩
    rw [Record.sameData_congr_right hrs]
    exact hus
  · rfl

/-- The flag of an addition tells whether the set changed. -/
theorem add_changes_iff (set : RecordSet) (r : Record) :
    (set.add r).1 = true ↔ (set.add r).2 ≠ set := by
  constructor
  · intro hchanges hsame
    have hfind := find?_insert set r r
    rw [if_pos r.sameData_self, show set.insert r = set from hsame] at hfind
    exact bne_iff_ne.1 hchanges hfind
  · intro hne
    exact Bool.eq_true_of_not_eq_false fun hsame => hne (insert_eq_self hsame)

/-- The flag of a removal tells whether the set changed. -/
theorem remove_changes_iff (set : RecordSet) (r : Record) :
    (set.remove r).1 = true ↔ (set.remove r).2 ≠ set := by
  constructor
  · intro hcontains hsame
    have hkept : (set.erase r).contains r = true := by
      rw [show set.erase r = set from hsame]
      exact hcontains
    obtain ⟨hgone, -⟩ := contains_erase.1 hkept
    exact absurd r.sameData_self (Bool.eq_false_iff.1 hgone)
  · intro hne
    exact Bool.eq_true_of_not_eq_false fun habsent => hne (erase_eq_self habsent)

/-! ## Histories of changes -/

/-- The set that changes make of a new one. -/
def ofEdits (edits : List RecordEdit) : RecordSet := edits.foldl edit empty

/-- **The lists of a set hold what its history says.** -/
theorem holds_ofEdits (edits : List RecordEdit) (t : RecordType) :
    Holds edits t ((ofEdits edits).get t) := by
  induction edits using List.reverseRecOn with
  | nil =>
    have hnil : (ofEdits []).get t = [] := by
      cases t <;> rfl
    exact hnil ▸ Holds.nil t
  | append_singleton edits e ih =>
    have hlast : ofEdits (edits ++ [e]) = (ofEdits edits).edit e := List.foldl_concat ..
    rw [hlast]
    cases e with
    | add r =>
      have hget : ((ofEdits edits).edit (.add r)).get t = _ := get_insert _ r t
      rw [hget]
      split
      · next ht =>
        subst ht
        exact ih.add rfl
      · next ht => exact ih.other fun hr => ht hr.symm
    | remove r => exact (get_remove (ofEdits edits) r t).symm ▸ ih.remove r

/-- All records of a set, type after type, are the latest ones of the data present. -/
theorem mem_toList_ofEdits {edits : List RecordEdit} {r : Record} :
    r ∈ (ofEdits edits).toList ↔ LatestAdd edits r := by
  unfold toList
  simp only [List.mem_flatMap, (holds_ofEdits edits _).mem_iff]
  exact ⟨fun ⟨_, _, _, h⟩ => h, fun h => ⟨r.type, r.type.mem_all, rfl, h⟩⟩

/-- No data is twice in a set that changes make of a new one. -/
theorem distinct_toList_ofEdits (edits : List RecordEdit) :
    (ofEdits edits).toList.Pairwise fun r s => r.sameData s = false := by
  have hall : RecordType.all.Pairwise (· ≠ ·) := by decide
  refine List.pairwise_flatMap.2 ⟨fun t _ => (holds_ofEdits edits t).distinct, hall.imp ?_⟩
  intro t u hne r hr s hs
  refine Bool.eq_false_iff.2 fun hsame => hne ?_
  rw [← type_of_mem_get hr, ← type_of_mem_get hs, Record.type_of_sameData hsame]

/-- Data is in a set if it is present. -/
theorem contains_ofEdits {edits : List RecordEdit} {r : Record} :
    (ofEdits edits).contains r = true ↔ Present edits r := by
  rw [present_iff_exists_latestAdd]
  unfold contains
  simp only [List.any_eq_true, (holds_ofEdits edits _).mem_iff]
  constructor
  · rintro ⟨s, ⟨-, hlatest⟩, hs⟩
    exact ⟨s, hs, hlatest⟩
  · rintro ⟨s, hs, hlatest⟩
    exact ⟨s, ⟨Record.type_of_sameData hs, hlatest⟩, hs⟩

theorem isEmpty_ofEdits {edits : List RecordEdit} :
    (ofEdits edits).isEmpty = true ↔ ∀ r, ¬ Present edits r := by
  have hforeign : (ofEdits edits).foreign = [] := foreign_foldl_edit empty edits
  unfold isEmpty
  rw [hforeign, List.all_nil, Bool.and_true, List.isEmpty_iff, List.eq_nil_iff_forall_not_mem]
  simp only [mem_toList_ofEdits, present_iff_exists_latestAdd]
  constructor
  · rintro h r ⟨s, -, hs⟩
    exact h s hs
  · exact fun h r hr => h r ⟨r, r.sameData_self, hr⟩

/-- **The order of calls matters for each data alone**: of the same changes to each data the same records
come about. -/
theorem perm_ofEdits {edits edits' : List RecordEdit}
    (h : ∀ r, edits.filter (touches r) = edits'.filter (touches r)) (t : RecordType) :
    ((ofEdits edits).get t).Perm ((ofEdits edits').get t) := by
  refine (List.perm_ext_iff_of_nodup (holds_ofEdits edits t).nodup (holds_ofEdits edits' t).nodup).2 ?_
  intro r
  rw [(holds_ofEdits edits t).mem_iff, (holds_ofEdits edits' t).mem_iff, ← latestAdd_filter edits,
    ← latestAdd_filter edits', h]

/-- **A record set is a map in insertion order.** Take the set that any changes make of a new one. For
each type, its list holds exactly one record for each data that was added and not removed since, the one of
the latest addition, in the order in which the data was inserted; data that is present was inserted once,
and adding it again is no insertion. Whether data is present, what all the records are, how many there
are and whether there are none agrees with this, and the set is the same as a map from types to lists.
Of other changes that are the same ones for each data the same records come about, in some order.

Adding to any set returns whether the set changed, and removing from it whether the data was there, which
is whether the set changed. Sets that were read may hold data more than once: then removing it leaves none
of it and all else in order, and adding any record leaves the number of records with the data. -/
theorem insertion_ordered_map :
    (∀ edits,
      (∀ t, (∀ list, Holds edits t list ↔ list = (ofEdits edits).get t) ∧
        ((ofEdits edits).get t).Pairwise fun r s => r.sameData s = false) ∧
      (∀ r, (Present edits r ↔ ∃ s ∈ (ofEdits edits).get r.type, s.sameData r = true) ∧
        (Present edits r ↔ ∃ n, InsertedAt edits r n) ∧
        ∀ m n, InsertedAt edits r m → InsertedAt edits r n → m = n) ∧
      (∀ r, (ofEdits edits).contains r = true ↔ Present edits r) ∧
      (∀ r, r ∈ (ofEdits edits).toList ↔ LatestAdd edits r) ∧
      ((ofEdits edits).toList.Pairwise fun r s => r.sameData s = false) ∧
      (ofEdits edits).size = (RecordType.all.map fun t => ((ofEdits edits).get t).length).sum ∧
      ((ofEdits edits).isEmpty = true ↔ ∀ r, ¬ Present edits r) ∧
      RecordTable.ofSet (ofEdits edits) = edits.foldl RecordTable.edit .empty ∧
      ∀ edits', (∀ r, edits.filter (touches r) = edits'.filter (touches r)) →
        (∀ t, ((ofEdits edits).get t).Perm ((ofEdits edits').get t)) ∧
        (ofEdits edits).foreign = (ofEdits edits').foreign) ∧
    ∀ (set : RecordSet) (r : Record),
      ((set.add r).1 = true ↔ (set.add r).2 ≠ set) ∧
      ((set.remove r).1 = true ↔ ∃ s ∈ set.get r.type, s.sameData r = true) ∧
      ((set.remove r).1 = true ↔ (set.remove r).2 ≠ set) ∧
      (∀ t, (set.remove r).2.get t = (set.get t).filter fun s => !s.sameData r) ∧
      ∀ s, set.contains s = true → ∀ t,
        ((set.add r).2.get t).countP (·.sameData s) = (set.get t).countP (·.sameData s) := by
  refine ⟨fun edits => ⟨fun t => ?_, fun r => ⟨?_, present_iff_exists_insertedAt, ?_⟩, ?_⟩,
    fun set r => ⟨set.add_changes_iff r, List.any_eq_true, set.remove_changes_iff r, set.get_remove r,
      fun s hs => countP_add hs r⟩⟩
  · have hholds := holds_ofEdits edits t
    exact ⟨fun list => ⟨fun h => h.unique hholds, fun h => h ▸ hholds⟩, hholds.distinct⟩
  · rw [← contains_ofEdits]
    exact List.any_eq_true
  · exact fun m n hm hn => hm.unique hn
  · refine ⟨fun r => contains_ofEdits, fun r => mem_toList_ofEdits, distinct_toList_ofEdits edits,
      List.length_flatMap .., isEmpty_ofEdits, ?_, fun edits' h => ⟨perm_ofEdits h, ?_⟩⟩
    · rw [← RecordTable.ofSet_empty, RecordTable.foldl_edit_ofSet]
      rfl
    · exact (foreign_foldl_edit empty edits).trans (foreign_foldl_edit empty edits').symm

end RecordSet
end GatewayControl
