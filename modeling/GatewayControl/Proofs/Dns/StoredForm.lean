import GatewayControl.Proofs.Dns.RecordCodec
import GatewayControl.Proofs.Dns.RecordTable

/-!
# `GatewayControl.Proofs.Dns.StoredForm` -- the stored form of every set that can come about

A set starts out empty or is read from stored bytes, and then records are added and removed
(`RecordSet.edited?`). Edits leave the values of other types alone and reading yields only such values
as can be written again, so every set that comes about in this way is read back from its stored form.
The same history run on tables of lists gives the table of the set (`RecordTable.edited?_eq`), and so
the table has no empty list and no record in a list of another type.

The main statement is `RecordSet.stored_form_canonical`.
-/

namespace GatewayControl

open Json

/-- One change to a set of records. -/
inductive RecordEdit where
  | add (record : Record)
  | remove (record : Record)

namespace RecordSet

/-- The set after a change. -/
def edit (set : RecordSet) : RecordEdit → RecordSet
  | .add record => (set.add record).2
  | .remove record => (set.remove record).2

/-- The set that changes make of a new set, or of the set that stored bytes hold. -/
def edited? (start : Option Bytes) (edits : List RecordEdit) : Option RecordSet :=
  (start.elim (some empty) decode?).map fun set => edits.foldl edit set

end RecordSet

namespace RecordTable

/-- The table after a change. -/
def edit (table : RecordTable) : RecordEdit → RecordTable
  | .add record => (table.add record).2
  | .remove record => (table.remove record).2

/-- The table that stored bytes hold. -/
def decode? (bytes : Bytes) : Option RecordTable := (RecordSet.decode? bytes).map ofSet

/-- The stored bytes of a table. -/
def encode (table : RecordTable) : Bytes := table.toSet.encode

/-- The table that changes make of a new table, or of the table that stored bytes hold. -/
def edited? (start : Option Bytes) (edits : List RecordEdit) : Option RecordTable :=
  (start.elim (some empty) decode?).map fun table => edits.foldl edit table

/-! ## One history, two forms -/

theorem edit_ofSet (set : RecordSet) (e : RecordEdit) : (ofSet set).edit e = ofSet (set.edit e) := by
  cases e with
  | add record => exact congrArg Prod.snd (add_ofSet set record)
  | remove record => exact congrArg Prod.snd (remove_ofSet set record)

theorem foldl_edit_ofSet (set : RecordSet) (edits : List RecordEdit) :
    edits.foldl edit (ofSet set) = ofSet (edits.foldl RecordSet.edit set) := by
  induction edits generalizing set with
  | nil => rfl
  | cons e edits ih => rw [List.foldl_cons, edit_ofSet, ih, List.foldl_cons]

/-- **A history on tables is the history on sets.** -/
theorem edited?_eq (start : Option Bytes) (edits : List RecordEdit) :
    edited? start edits = (RecordSet.edited? start edits).map ofSet := by
  have hstart : start.elim (some empty) decode? =
      (start.elim (some .empty) RecordSet.decode?).map ofSet := by
    cases start with
    | none => exact congrArg some ofSet_empty.symm
    | some bytes => rfl
  unfold edited? RecordSet.edited?
  rw [hstart, Option.map_map, Option.map_map]
  refine congrArg (fun f => Option.map f _) (funext fun set => ?_)
  exact foldl_edit_ofSet set edits

/-- Reading and writing go through the set. -/
theorem decode?_encode_ofSet {set : RecordSet} (h : RecordSet.decode? set.encode = some set) :
    decode? (ofSet set).encode = some (ofSet set) := by
  unfold decode? encode
  rw [toSet_ofSet, h]
  rfl

end RecordTable

namespace RecordSet

theorem foreign_edit (set : RecordSet) (e : RecordEdit) : (set.edit e).foreign = set.foreign := by
  cases e with
  | add record => exact foreign_insert set record
  | remove record => exact foreign_erase set record

theorem foreign_foldl_edit (set : RecordSet) (edits : List RecordEdit) :
    (edits.foldl edit set).foreign = set.foreign := by
  induction edits generalizing set with
  | nil => rfl
  | cons e edits ih => rw [List.foldl_cons, ih, foreign_edit]

/-- The values of other types come from the start of the history. -/
theorem kept_of_edited? {start : Option Bytes} {edits : List RecordEdit} {set : RecordSet}
    (h : edited? start edits = some set) : Kept set.foreign := by
  obtain ⟨first, hfirst, rfl⟩ := Option.map_eq_some_iff.1 h
  rw [foreign_foldl_edit]
  cases start with
  | none =>
    cases hfirst
    exact kept_nil
  | some bytes => exact kept_of_decode? hfirst

/-! ## The keys of the stored object -/

theorem keys_listMember (key : String) (items : List Value) :
    ((listMember key items).map Prod.fst).Sublist [key] := by
  unfold listMember
  split
  · exact List.nil_sublist _
  · exact List.Sublist.refl _

/-- The lists of a set stand under the keys of their types, in this order. -/
theorem keys_members (set : RecordSet) :
    (set.members.map Prod.fst).Sublist ["a", "aaaa", "cname", "txt"] := by
  unfold members
  simp only [List.map_append]
  have ha := keys_listMember "a" (set.a.map fun r => recordValue "ip" r.data.text r.ttl)
  have haaaa := keys_listMember "aaaa" (set.aaaa.map fun r => recordValue "ip" r.data.text r.ttl)
  have hcname := keys_listMember "cname" (set.cname.map fun r => recordValue "host" r.data r.ttl)
  have htxt := keys_listMember "txt" (set.txt.map fun r => recordValue "text" r.data r.ttl)
  exact ((ha.append haaaa).append hcname).append htxt

/-- **The stored object repeats no key.** -/
theorem nodup_keys {set : RecordSet} (h : Kept set.foreign) :
    ((set.members ++ set.foreign).map Prod.fst).Nodup := by
  have hmodelled : ["a", "aaaa", "cname", "txt"].Nodup := by decide
  rw [List.map_append, List.nodup_append]
  refine ⟨hmodelled.sublist (keys_members set), h.ordered.nodup_keys, ?_⟩
  rintro key hkey other hother rfl
  obtain ⟨p, hp, rfl⟩ := List.mem_map.1 hother
  obtain ⟨ha, haaaa, hcname, htxt⟩ := ofKey?_eq_none.1 (h.unmodelled p hp)
  have hmem := (keys_members set).subset hkey
  simp [ha, haaaa, hcname, htxt] at hmem

/-! ## The whole codec -/

/-- **The stored form is canonical.** Take any set that comes about from a new set or from stored
bytes by adding and removing records, and let no value of another type hold a floating-point number.
Decoding its stored form gives exactly the set, and so does decoding the stored form of its table of
lists, in which no list is empty and every record has the type of its list. No value of another type
stands under the key of a modelled type, and the stored object repeats no key. No other set that comes
about in such a way has the same stored form, and decoding and encoding changes the form no more. -/
theorem stored_form_canonical {start : Option Bytes} {edits : List RecordEdit} {set : RecordSet}
    (h : edited? start edits = some set) (hfree : Value.FloatFreeMembers set.foreign) :
    decode? set.encode = some set ∧
    (∃ table, RecordTable.edited? start edits = some table ∧ table.toSet = set ∧
      (∀ t list, table.lists t = some list → list ≠ [] ∧ ∀ r ∈ list, r.type = t) ∧
      RecordTable.decode? table.encode = some table) ∧
    (∀ p ∈ set.foreign, RecordType.ofKey? p.1 = none) ∧
    (∃ fields, set.toValue = .object fields ∧ (fields.map Prod.fst).Nodup) ∧
    (∀ start' edits' set', edited? start' edits' = some set' →
      Value.FloatFreeMembers set'.foreign → set'.encode = set.encode → set' = set) ∧
    (decode? set.encode).map encode = some set.encode := by
  have hkept := kept_of_edited? h
  have hback := decode?_encode_of_kept hkept hfree
  refine ⟨hback, ⟨.ofSet set, ?_, RecordTable.toSet_ofSet set, ?_, ?_⟩, hkept.unmodelled,
    ⟨_, toValue_eq set, nodup_keys hkept⟩, ?_, ?_⟩
  · rw [RecordTable.edited?_eq, h, Option.map_some]
  · exact fun t list hlist => RecordTable.lists_ofSet hlist
  · exact RecordTable.decode?_encode_ofSet hback
  · intro start' edits' set' h' hfree' hencode
    have hback' := decode?_encode_of_kept (kept_of_edited? h') hfree'
    rw [hencode, hback] at hback'
    exact (Option.some.inj hback').symm
  · rw [hback, Option.map_some]

/-- Bytes with an address record and a value of a type that is not modelled, and a text record that
is added. -/
theorem stored_form_canonical_mail :
    ∃ set, edited? (some (Bytes.ofText
          "\x7b\"mx\":[10],\"a\":[\x7b\"ip\":\"10.1.1.1\",\"ttl\":60\x7d]\x7d"))
        [.add (.txt ⟨"v=1", 30⟩)] = some set ∧
      set.foreign = [("mx", .array [.number (.int 10)])] ∧ decode? set.encode = some set := by
  have hset : edited? (some (Bytes.ofText
        "\x7b\"mx\":[10],\"a\":[\x7b\"ip\":\"10.1.1.1\",\"ttl\":60\x7d]\x7d"))
      [.add (.txt ⟨"v=1", 30⟩)] =
        some ⟨[⟨⟨10, 1, 1, 1⟩, 60⟩], [], [], [⟨"v=1", 30⟩], [("mx", .array [.number (.int 10)])]⟩ := rfl
  have hfree : Value.FloatFreeMembers [("mx", .array [.number (.int 10)])] :=
    ⟨⟨trivial, trivial⟩, trivial⟩
  exact ⟨_, hset, rfl, (stored_form_canonical hset hfree).1⟩

end RecordSet
end GatewayControl
