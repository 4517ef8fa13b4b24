import GatewayControl.Proofs.Dns.AddressSet

/-!
# `GatewayControl.Proofs.Dns.AddressBook` -- addresses in the order in which they came

An address book is a map from addresses to times to live that remembers the order in which the
addresses were first put in. An address that is put in again gets the new time to live and keeps its
place; one that is dropped and put in later goes to the end.

The record set of a name is its address book with the two families apart (`AddressBook.recordSet`).
Adding and removing the records of addresses is putting and dropping the addresses
(`recordSet_putAll`, `recordSet_dropAll`).
-/

namespace GatewayControl

/-- The IPv6 form of an IPv4 address. -/
def Ipv4.mapped (ip : Ipv4) : Ipv6 where
  groups := [0, 0, 0, 0, 0, 0xffff] ++ ip.groups
  eight := rfl

namespace Ip

/-- The form in which an address is kept: an IPv4-mapped address is the IPv4 address. -/
def canonical : Ip → Ip
  | .v4 ip => .v4 ip
  | .v6 ip =>
    match ip.toIpv4Mapped? with
    | some mapped => .v4 mapped
    | none => .v6 ip

def v4? : Ip → Option Ipv4
  | .v4 ip => some ip
  | .v6 _ => none

def v6? : Ip → Option Ipv6
  | .v4 _ => none
  | .v6 ip => some ip

/-- The form in which an address is kept is kept as it is. -/
theorem canonical_canonical (ip : Ip) : ip.canonical.canonical = ip.canonical := by
  cases ip with
  | v4 ip => rfl
  | v6 ip =>
    cases h : ip.toIpv4Mapped? with
    | some mapped => simp [canonical, h]
    | none => simp [canonical, h]

/-- The IPv4 address that an address is determines it. -/
theorem v4?_inj (i j : Ip) (d : Ipv4) (hi : i.v4? = some d) (hj : j.v4? = some d) : i = j := by
  cases i with
  | v4 i =>
    cases j with
    | v4 j => exact congrArg Ip.v4 (Option.some.inj (hi.trans hj.symm))
    | v6 j => cases hj
  | v6 i => cases hi

theorem v6?_inj (i j : Ip) (d : Ipv6) (hi : i.v6? = some d) (hj : j.v6? = some d) : i = j := by
  cases i with
  | v4 i => cases hi
  | v6 i =>
    cases j with
    | v4 j => cases hj
    | v6 j => exact congrArg Ip.v6 (Option.some.inj (hi.trans hj.symm))

end Ip

/-- The record of an address is that of the form in which it is kept. -/
theorem Record.ofIp_eq (ttl : UInt32) (ip : Ip) :
    Record.ofIp ttl ip =
      match ip.canonical with
      | .v4 v4 => .a ⟨v4, ttl⟩
      | .v6 v6 => .aaaa ⟨v6, ttl⟩ := by
  unfold Record.ofIp Ip.canonical
  cases ip with
  | v4 ip => rfl
  | v6 ip =>
    simp only
    cases ip.toIpv4Mapped? with
    | some v4 => rfl
    | none => rfl

/-- Addresses that are kept in the same forms have the same records. -/
theorem ZoneAuthority.recordsOf_congr (auth : ZoneAuthority) {ips spelled : List Ip}
    (h : spelled.map Ip.canonical = ips.map Ip.canonical) :
    auth.recordsOf spelled = auth.recordsOf ips := by
  let ofForm : Ip → Record := fun
    | .v4 v4 => .a ⟨v4, auth.recordTtl⟩
    | .v6 v6 => .aaaa ⟨v6, auth.recordTtl⟩
  have hrecords : ∀ ips : List Ip, auth.recordsOf ips = (ips.map Ip.canonical).map ofForm := by
    intro ips
    rw [List.map_map]
    exact List.map_congr_left fun ip _ => Record.ofIp_eq auth.recordTtl ip
  rw [hrecords, hrecords, h]

/-! ## Lists of timed addresses -/

namespace Timed

variable {α β : Type}

/-- In a list without repetition, a record replaces the one with its data, or goes to the end. -/
theorem upsert_of_nodup [DecidableEq α] {records : List (Timed α)} (h : (records.map (·.data)).Nodup)
    (record : Timed α) :
    upsert record records =
      if record.data ∈ records.map (·.data) then
        records.map fun r => if r.data = record.data then record else r
      else records ++ [record] := by
  induction records with
  | nil => rfl
  | cons r rest ih =>
    rw [List.map_cons, List.nodup_cons] at h
    obtain ⟨hr, hrest⟩ := h
    unfold upsert
    by_cases heq : r.data = record.data
    · -- the rest has no record with the data
      have hother : ∀ s ∈ rest, s.data ≠ record.data := by
        intro s hs hsame
        exact hr (heq ▸ hsame ▸ List.mem_map_of_mem hs)
      have hkept : rest.map (fun s => if s.data = record.data then record else s) = rest := by
        refine (List.map_congr_left fun s hs => ?_).trans (List.map_id _)
        exact if_neg (hother s hs)
      rw [if_pos heq, List.map_cons, if_pos (List.mem_cons.2 (.inl heq.symm)), List.map_cons,
        if_pos heq, hkept]
    · have hne : record.data ≠ r.data := fun h => heq h.symm
      rw [if_neg heq, ih hrest, List.map_cons]
      simp only [List.mem_cons, hne, false_or, List.map_cons, if_neg heq, List.cons_append]
      split
      · rfl
      · rfl

/-- Those entries of a list whose data belongs to a family. -/
def only (family : α → Option β) (records : List (Timed α)) : List (Timed β) :=
  records.filterMap fun r => (family r.data).map fun d => ⟨d, r.ttl⟩

theorem only_cons (family : α → Option β) (r : Timed α) (rest : List (Timed α)) :
    only family (r :: rest) =
      match family r.data with
      | some d => ⟨d, r.ttl⟩ :: only family rest
      | none => only family rest := by
  unfold only
  rw [List.filterMap_cons]
  cases family r.data with
  | some d => rfl
  | none => rfl

variable [DecidableEq α] [DecidableEq β] {family : α → Option β}

/-- A family sees a record put in if it is one of its own, and nothing otherwise. -/
theorem only_upsert (hinj : ∀ i j d, family i = some d → family j = some d → i = j)
    (record : Timed α) (records : List (Timed α)) :
    only family (upsert record records) =
      match family record.data with
      | some d => upsert ⟨d, record.ttl⟩ (only family records)
      | none => only family records := by
  induction records with
  | nil =>
    rw [upsert, only_cons]
    cases family record.data with
    | some d => rfl
    | none => rfl
  | cons r rest ih =>
    rw [upsert]
    by_cases heq : r.data = record.data
    · rw [if_pos heq, only_cons, only_cons, heq]
      cases family record.data with
      | some d => simp [upsert]
      | none => rfl
    · rw [if_neg heq, only_cons, only_cons, ih]
      cases hr : family r.data with
      | none =>
        simp only
      | some e =>
        cases hd : family record.data with
        | none => simp only
        | some d =>
          have hne : e ≠ d := by
            rintro rfl
            exact heq (hinj _ _ _ hr hd)
          simp only
          rw [upsert, if_neg hne]

/-- A family sees data dropped if they are of its own. -/
theorem only_without (hinj : ∀ i j d, family i = some d → family j = some d → i = j) (data : α)
    (records : List (Timed α)) :
    only family (without data records) =
      match family data with
      | some d => without d (only family records)
      | none => only family records := by
  induction records with
  | nil =>
    cases family data with
    | some d => rfl
    | none => rfl
  | cons r rest ih =>
    unfold without at ih ⊢
    rw [List.filter_cons, only_cons]
    by_cases heq : r.data = data
    · rw [if_neg (by simpa using heq), ih, heq]
      cases family data with
      | some d => simp
      | none => rfl
    · rw [if_pos (by simpa using heq), only_cons, ih]
      cases hr : family r.data with
      | none => simp only
      | some e =>
        cases hd : family data with
        | none => simp only
        | some d =>
          have hne : e ≠ d := by
            rintro rfl
            exact heq (hinj _ _ _ hr hd)
          simp [hne]

end Timed

/-! ## Address books -/

/-- A map from addresses to times to live, in the order in which the addresses came. No address is in
it twice, in whatever form. -/
structure AddressBook where
  entries : List (Timed Ip)
  distinct : (entries.map (·.data)).Nodup
  canonical : ∀ e ∈ entries, e.data.canonical = e.data

namespace AddressBook

def empty : AddressBook := ⟨[], List.nodup_nil, fun _ he => absurd he List.not_mem_nil⟩

variable (book : AddressBook) (ttl : UInt32)

/-- The book with an address put in: where it is already, or at the end. -/
def put (ip : Ip) : AddressBook where
  entries :=
    if ip.canonical ∈ book.entries.map (·.data) then
      book.entries.map fun e => if e.data = ip.canonical then ⟨ip.canonical, ttl⟩ else e
    else book.entries ++ [⟨ip.canonical, ttl⟩]
  distinct := by
    rw [← Timed.upsert_of_nodup book.distinct ⟨ip.canonical, ttl⟩]
    exact Timed.nodup_upsert book.distinct
  canonical := by
    rw [← Timed.upsert_of_nodup book.distinct ⟨ip.canonical, ttl⟩]
    intro e he
    rcases Timed.mem_upsert he with he | he
    · rw [he]
      exact ip.canonical_canonical
    · exact book.canonical e he

/-- The book without an address. -/
def drop (ip : Ip) : AddressBook where
  entries := book.entries.filter fun e => e.data ≠ ip.canonical
  distinct := Timed.nodup_without book.distinct
  canonical := fun e he => book.canonical e (List.mem_filter.1 he).1

/-- The book with addresses put in, one after the other. -/
def putAll (ips : List Ip) : AddressBook := ips.foldl (fun book ip => book.put ttl ip) book

/-- The book without some addresses. -/
def dropAll (ips : List Ip) : AddressBook := ips.foldl (fun book ip => book.drop ip) book

/-- The addresses as the records of a name, each family in the order of the book. -/
def recordSet : RecordSet :=
  { RecordSet.empty with
    a := Timed.only Ip.v4? book.entries
    aaaa := Timed.only Ip.v6? book.entries }

theorem entries_put (ip : Ip) :
    (book.put ttl ip).entries = Timed.upsert ⟨ip.canonical, ttl⟩ book.entries :=
  (Timed.upsert_of_nodup book.distinct ⟨ip.canonical, ttl⟩).symm

/-- **Putting an address in** is adding its record. -/
theorem recordSet_put (ip : Ip) :
    (book.put ttl ip).recordSet = book.recordSet.insert (Record.ofIp ttl ip) := by
  unfold recordSet
  rw [entries_put, Timed.only_upsert Ip.v4?_inj, Timed.only_upsert Ip.v6?_inj, Record.ofIp_eq]
  cases ip.canonical with
  | v4 ip => rfl
  | v6 ip => rfl

/-- **Dropping an address** is removing its record. -/
theorem recordSet_drop (ip : Ip) :
    (book.drop ip).recordSet = book.recordSet.erase (Record.ofIp ttl ip) := by
  have hentries : (book.drop ip).entries = Timed.without ip.canonical book.entries := rfl
  unfold recordSet
  rw [hentries, Timed.only_without Ip.v4?_inj, Timed.only_without Ip.v6?_inj, Record.ofIp_eq]
  cases ip.canonical with
  | v4 ip => rfl
  | v6 ip => rfl

theorem recordSet_putAll (ips : List Ip) :
    (book.putAll ttl ips).recordSet = (book.recordSet.addAll (ips.map (Record.ofIp ttl))).2 := by
  induction ips generalizing book with
  | nil => rfl
  | cons ip ips ih =>
    show ((book.put ttl ip).putAll ttl ips).recordSet =
      ((book.recordSet.insert (Record.ofIp ttl ip)).addAll (ips.map (Record.ofIp ttl))).2
    rw [ih, recordSet_put]

theorem recordSet_dropAll (ips : List Ip) :
    (book.dropAll ips).recordSet = (book.recordSet.removeAll (ips.map (Record.ofIp ttl))).2 := by
  induction ips generalizing book with
  | nil => rfl
  | cons ip ips ih =>
    show ((book.drop ip).dropAll ips).recordSet =
      ((book.recordSet.erase (Record.ofIp ttl ip)).removeAll (ips.map (Record.ofIp ttl))).2
    rw [ih, recordSet_drop]

theorem entries_putAll_ne_nil {ips : List Ip} (h : book.entries ≠ [] ∨ ips ≠ []) :
    (book.putAll ttl ips).entries ≠ [] := by
  induction ips generalizing book with
  | nil => exact h.resolve_right fun hne => hne rfl
  | cons ip ips ih =>
    refine ih (book.put ttl ip) (.inl ?_)
    rw [entries_put]
    exact Timed.upsert_ne_nil _ _

theorem entries_dropAll_of_nil (h : book.entries = []) (ips : List Ip) :
    (book.dropAll ips).entries = [] := by
  induction ips generalizing book with
  | nil => exact h
  | cons ip ips ih =>
    refine ih (book.drop ip) ?_
    show book.entries.filter _ = []
    rw [h]
    rfl

/-- A name has no records if its book has no addresses. -/
theorem isEmpty_recordSet (book : AddressBook) : book.recordSet.isEmpty = true ↔ book.entries = [] := by
  have hrecords : book.recordSet.isEmpty = true ↔ book.recordSet.a = [] ∧ book.recordSet.aaaa = [] := by
    simp [RecordSet.isEmpty, RecordSet.toList, RecordType.all, RecordSet.get, recordSet,
      RecordSet.empty]
  rw [hrecords]
  constructor
  · rintro ⟨ha, haaaa⟩
    cases hentries : book.entries with
    | nil => rfl
    | cons e rest =>
      simp only [recordSet, hentries, Timed.only_cons] at ha haaaa
      cases hip : e.data with
      | v4 ip => simp [hip, Ip.v4?] at ha
      | v6 ip => simp [hip, Ip.v6?] at haaaa
  · intro hentries
    simp [recordSet, hentries, Timed.only]

end AddressBook
end GatewayControl
