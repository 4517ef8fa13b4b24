import GatewayControl.Proofs.Authority.Coherence
import GatewayControl.Proofs.Authority.ZoneMachine

/-!
# `GatewayControl.Proofs.Authority.ZoneRefinement` -- the three tables implement the ownership machine

The store encodes the machine cell by cell (`Encodes`): an owner record for each owned zone, a claim for
each claimed name, and one field of stored records for each name with addresses. One call moves both
alike (`simulates_call`), and so does every sequence of calls from the empty store: all answers are those
of the machine, and so are the answers to all queries afterwards (`authority_refines_machine`).

Why the machine and the tables agree on who may do what: where the tables are coherent, a name of the
gateway has a claimant exactly if it has addresses (`Encodes.claimant_ne_none`), and a zone that nobody
owns is empty (`Encodes.unowned`).
-/

namespace GatewayControl

open Operation MemoryStore ZoneAuthority

/-! ## Encoding -/

/-- The stored form of the records of a name; a name without records has none. -/
def RecordSet.stored (set : RecordSet) : Option Bytes := if set.isEmpty then none else some set.encode

/-- The store holds what the machine says, in the cells of the three tables. -/
structure Encodes (s : MemoryStore) (m : ZoneMachine) : Prop where
  owner : ∀ zone : DomainName, s.read (.value zone.zoneKey) = (m.owner zone).map encodeOwner
  claimant : ∀ name, s.read (claimCell name) = (m.claimant name).map Bytes.ofText
  records : ∀ name, s.read (recordCell name) = (m.addresses name).recordSet.stored

variable {identity user : String} {s t : MemoryStore} {m : ZoneMachine} {zone name : DomainName}
  {book : AddressBook} {ips : List Ip}

theorem AddressBook.stored_eq_none : book.recordSet.stored = none ↔ book.entries = [] := by
  unfold RecordSet.stored
  rw [← book.isEmpty_recordSet]
  cases book.recordSet.isEmpty with
  | true => simp
  | false => simp

theorem AddressBook.stored_of_ne (h : book.entries ≠ []) :
    book.recordSet.stored = some book.recordSet.encode := by
  rw [ne_eq, ← book.isEmpty_recordSet] at h
  exact if_neg h

theorem encodes_empty : Encodes .empty .empty where
  owner := fun _ => read_empty _
  claimant := fun _ => read_empty _
  records := fun _ => (read_empty _).trans (AddressBook.stored_eq_none.2 rfl).symm

/-- Stored records are read back. -/
theorem labelRecords_of_stored (h : s.read (recordCell name) = book.recordSet.stored) :
    s.labelRecords name = some book.recordSet := by
  unfold labelRecords
  rw [h]
  unfold RecordSet.stored
  cases hempty : book.recordSet.isEmpty with
  | true =>
    have hentries := book.isEmpty_recordSet.1 hempty
    simp [AddressBook.recordSet, hentries, Timed.only, RecordSet.empty]
  | false => exact RecordSet.decode?_encode rfl

namespace Encodes

variable (h : Encodes s m)

include h

theorem ownerOf (zone : DomainName) : s.ownerOf zone = some ((m.owner zone).getD "") := by
  unfold MemoryStore.ownerOf
  rw [h.owner]
  cases m.owner zone with
  | none => rfl
  | some owner => exact decodeOwner?_encodeOwner owner

theorem labelClaimant (name : DomainName) :
    s.labelClaimant name = some ((m.claimant name).getD "") := by
  unfold MemoryStore.labelClaimant
  rw [h.claimant]
  cases m.claimant name with
  | none => rfl
  | some user => exact Bytes.toText?_ofText user

variable (hc : Coherent identity s)

include hc

theorem owner_ne (zone : DomainName) : m.owner zone ≠ some "" := by
  intro howner
  have hread := h.owner zone
  rw [howner] at hread
  obtain ⟨other, hkey, user, hne, hbytes⟩ := hc.values _ _ hread
  have hdecoded := decodeOwner?_encodeOwner user
  rw [← hbytes, decodeOwner?_encodeOwner, Option.some.injEq] at hdecoded
  exact hne hdecoded.symm

theorem claimant_ne (name : DomainName) : m.claimant name ≠ some "" := by
  intro hclaimant
  have hread := h.claimant name
  rw [hclaimant] at hread
  obtain ⟨user, hne, hbytes⟩ := hc.claimants _ _ hread
  have hdecoded := Bytes.toText?_ofText user
  rw [← hbytes, Bytes.toText?_ofText, Option.some.injEq] at hdecoded
  exact hne hdecoded.symm

theorem owner_cases (zone : DomainName) :
    m.owner zone = none ∨ ∃ owner, owner ≠ "" ∧ m.owner zone = some owner := by
  cases howner : m.owner zone with
  | none => exact .inl rfl
  | some owner => exact .inr ⟨owner, fun heq => h.owner_ne hc zone (heq ▸ howner), rfl⟩

/-- Nothing is published in a zone that nobody owns. -/
theorem entries_of_unowned (hfree : m.owner name.zone = none) : (m.addresses name).entries = [] := by
  apply Classical.byContradiction
  intro hne
  have hread : s.read (recordCell name) ≠ none := by
    rw [h.records]
    exact fun hnone => hne (AddressBook.stored_eq_none.1 hnone)
  obtain ⟨owner, howner, hof⟩ := hc.owned name hread
  rw [h.ownerOf, hfree] at hof
  exact howner (Option.some.inj hof).symm

/-- The names that are claimed are those with addresses in zones of the gateway. -/
theorem claimant_ne_none (name : DomainName) : m.claimant name ≠ none ↔
    m.owner name.zone = some identity ∧ (m.addresses name).entries ≠ [] := by
  have hclaimed := hc.claimed name
  rw [h.claimant, h.records, h.ownerOf, ne_eq, ne_eq, AddressBook.stored_eq_none, Option.map_eq_none_iff,
    Option.some.injEq] at hclaimed
  refine hclaimed.trans ⟨fun ⟨hid, hne⟩ => ⟨?_, hne⟩, fun ⟨howner, hne⟩ => ⟨by rw [howner]; rfl, hne⟩⟩
  cases howner : m.owner name.zone with
  | none => exact absurd (h.entries_of_unowned hc howner) hne
  | some owner =>
    rw [howner] at hid
    exact congrArg some hid

/-! ## What the store answers -/

theorem readOwner (zone : DomainName) : alone (ZoneAuthority.readOwner zone) s =
    (.ok (s.read (.value zone.zoneKey), (m.owner zone).getD ""), s) := by
  rw [alone_readOwner (hc.takesValue_zoneKey zone), h.ownerOf]

theorem readClaimant (name : DomainName) :
    alone (ZoneAuthority.claimant name) s = (.ok (m.claimant name), s) := by
  rw [alone_claimant name hc.takesFields_claims, h.labelClaimant]
  cases hclaimant : m.claimant name with
  | none => rfl
  | some user =>
    have hne : user ≠ "" := fun heq => h.claimant_ne hc name (heq ▸ hclaimant)
    simp only [Option.getD_some, if_neg hne]

theorem readRecords (name : DomainName) :
    alone (ZoneAuthority.readRecords name.zone name.label) s =
      (.ok (m.addresses name).recordSet, s) := by
  rw [alone_readRecords (hc.takesFields_fqdn name.zone), labelRecords_of_stored (h.records name)]

end Encodes

/-! ## One call -/

/-- The same answer, and a store that encodes the machine. -/
structure Simulates (r : Except GatewayError Unit × MemoryStore)
    (r' : Except GatewayError Unit × ZoneMachine) : Prop where
  answer : r.1 = r'.1
  state : Encodes r.2 r'.2

namespace Encodes

/-- A zone that was handed over and cleared. -/
theorem of_cleared (h : Encodes s m) (hc : Coherent identity s) (owner : Option String)
    (ht : Cleared zone (s.write (.value zone.zoneKey) (owner.map encodeOwner)) t) {m' : ZoneMachine}
    (howner : ∀ z, m'.owner z = if z = zone then owner else m.owner z)
    (hclaimant : ∀ n, m'.claimant n = if n.zone = zone then none else m.claimant n)
    (haddresses : ∀ n, (m'.addresses n).recordSet.stored =
      if n.zone = zone then none else (m.addresses n).recordSet.stored) : Encodes t m' := by
  have hread : ∀ cell : Cell, t.read cell = if cell.InZone zone then none
      else if cell = .value zone.zoneKey then owner.map encodeOwner else s.read cell := by
    intro cell
    have htakes : s.Takes (.value zone.zoneKey) := hc.takesValue_zoneKey zone
    rw [ht, read_write _ htakes]
  constructor
  · intro z
    have hout : ¬ (Cell.value z.zoneKey).InZone zone := id
    rw [hread, if_neg hout, howner]
    by_cases hz : z = zone
    · rw [if_pos (by rw [hz]), if_pos hz]
    · rw [if_neg (by simpa using fun heq => hz (DomainName.zoneKey_inj.1 heq)), if_neg hz, h.owner]
  · intro n
    rw [hread, hclaimant]
    by_cases hn : n.zone = zone
    · rw [if_pos (inZone_claimCell.2 hn), if_pos hn]
      rfl
    · rw [if_neg ((not_congr inZone_claimCell).2 hn), if_neg hn, if_neg (by simp [claimCell]),
        h.claimant]
  · intro n
    rw [hread, haddresses]
    by_cases hn : n.zone = zone
    · rw [if_pos (inZone_recordCell.2 hn), if_pos hn]
    · rw [if_neg ((not_congr inZone_recordCell).2 hn), if_neg hn, if_neg (by simp [recordCell]),
        h.records]

/-- A name whose records and claim were written. -/
theorem of_label (h : Encodes s m) {claimant : Option String}
    (ht : ∀ cell : Cell, t.read cell =
      if cell = recordCell name then book.recordSet.stored
      else if cell = claimCell name then claimant.map Bytes.ofText else s.read cell) :
    Encodes t (m.relabel name book claimant) := by
  unfold ZoneMachine.relabel
  constructor
  · intro z
    rw [ht, if_neg (by simp [recordCell]), if_neg (by simp [claimCell]), h.owner]
  · intro n
    rw [ht, if_neg fun heq => recordCell_ne_claimCell _ _ heq.symm, h.claimant]
    simp only [claimCell_inj]
    split
    · rfl
    · rfl
  · intro n
    rw [ht, if_neg (recordCell_ne_claimCell _ _), h.records]
    simp only [recordCell_inj]
    split
    · rfl
    · rfl

/-- A name whose records alone were written. -/
theorem of_records (h : Encodes s m)
    (ht : ∀ cell : Cell, t.read cell =
      if cell = recordCell name then book.recordSet.stored else s.read cell) :
    Encodes t (m.relabel name book (m.claimant name)) := by
  refine h.of_label fun cell => ?_
  rw [ht]
  split
  · rfl
  split
  · next hcell => rw [hcell, h.claimant]
  · rfl

end Encodes

/-- Clearing a zone whose owner record was written. -/
theorem alone_clearZone_of_write (hc : Coherent identity s) (zone : DomainName)
    (content : Option Bytes) :
    ∃ t, alone (clearZone zone) (s.write (.value zone.zoneKey) content) = (.ok (), t) ∧
      Cleared zone (s.write (.value zone.zoneKey) content) t := by
  have htakes : s.Takes (.value zone.zoneKey) := hc.takesValue_zoneKey zone
  have hkept : ∀ key, key ≠ zone.zoneKey → s.TakesFields key →
      (s.write (.value zone.zoneKey) content).TakesFields key := by
    intro key hkey hfields
    exact (takes_write_iff (.value zone.zoneKey) htakes content (c := .field key "") hkey).2 hfields
  exact alone_clearZone
    (hkept _ (DomainName.fqdn_ne_zoneKey zone zone) (hc.takesFields_fqdn zone))
    (hkept _ (DomainName.zoneKey_ne_managedDomains zone).symm hc.takesFields_claims)

/-- A zone that nobody owns is empty. -/
theorem Encodes.unowned (h : Encodes s m) (hc : Coherent identity s) (hfree : m.owner name.zone = none) :
    m.claimant name = none ∧ (m.addresses name).recordSet.stored = none := by
  have hentries := h.entries_of_unowned hc hfree
  refine ⟨?_, AddressBook.stored_eq_none.2 hentries⟩
  apply Classical.byContradiction
  intro hclaimed
  exact ((h.claimant_ne_none hc name).1 hclaimed).2 hentries

theorem simulates_delegate (h : Encodes s m) (hc : Coherent identity s) (hu : user ≠ "")
    (zone : DomainName) :
    Simulates (alone (delegateRounds user zone claimAttempts) s) (m.delegate user zone) := by
  rw [claimAttempts, alone_delegateRounds, h.readOwner hc]
  unfold ZoneMachine.delegate
  rcases h.owner_cases hc zone with hfree | ⟨owner, hne, howner⟩
  · have hmay : m.MayOwn user zone := .inl hfree
    obtain ⟨t, hrun, hcleared⟩ := alone_clearZone_of_write hc zone (some (encodeOwner user))
    simp only [hfree, Option.getD_none, if_neg hu.symm, ne_eq, not_true_eq_false, if_false]
    rw [if_pos hmay, hrun]
    refine ⟨rfl, h.of_cleared hc (some user) hcleared (fun _ => rfl) ?_ ?_⟩
    · intro n
      split
      · next hn => exact (h.unowned hc (hn ▸ hfree)).1
      · rfl
    · intro n
      split
      · next hn => exact (h.unowned hc (hn ▸ hfree)).2
      · rfl
  simp only [howner, Option.getD_some]
  by_cases heq : owner = user
  · subst heq
    have hmay : m.MayOwn owner zone := .inr howner
    rw [if_pos rfl, if_pos hmay]
    -- the zone was the user's before
    have hsame : (fun z => if z = zone then some owner else m.owner z) = m.owner := by
      funext z
      split
      · next hz => rw [hz, howner]
      · rfl
    rw [hsame]
    exact ⟨rfl, h⟩
  · rw [if_neg heq, if_pos hne, if_neg (ZoneMachine.not_mayOwn howner heq)]
    exact ⟨rfl, h⟩

theorem simulates_revoke (h : Encodes s m) (hc : Coherent identity s) (user : String)
    (zone : DomainName) :
    Simulates (alone (revokeRounds user zone claimAttempts) s) (m.revoke user zone) := by
  rw [claimAttempts, alone_revokeRounds, h.readOwner hc]
  unfold ZoneMachine.revoke
  rcases h.owner_cases hc zone with hfree | ⟨owner, hne, howner⟩
  · have hmay : m.MayOwn user zone := .inl hfree
    have hread : s.read (.value zone.zoneKey) = none := by
      rw [h.owner, hfree]
      rfl
    simp only [hfree, Option.getD_none, hread, and_self, if_true]
    rw [if_pos hmay]
    -- nothing has to be done, as the zone is empty
    refine ⟨rfl, ?_, ?_, ?_⟩
    · intro z
      simp only
      split
      · next hz => rw [hz, hread]; rfl
      · exact h.owner z
    · intro n
      simp only
      split
      · next hn => rw [h.claimant, (h.unowned hc (hn ▸ hfree)).1]
      · exact h.claimant n
    · intro n
      simp only
      split
      · next hn =>
        rw [h.records, (h.unowned hc (hn ▸ hfree)).2]
        exact (AddressBook.stored_eq_none.2 rfl).symm
      · exact h.records n
  simp only [howner, Option.getD_some, hne, false_and, if_false, ne_eq, not_false_eq_true, true_and]
  by_cases heq : owner = user
  · subst heq
    have hmay : m.MayOwn owner zone := .inr howner
    obtain ⟨t, hrun, hcleared⟩ := alone_clearZone_of_write hc zone none
    simp only [not_true_eq_false, if_false]
    rw [if_pos hmay, hrun]
    refine ⟨rfl, h.of_cleared hc none hcleared (fun _ => rfl) (fun _ => rfl) fun n => ?_⟩
    simp only
    split
    · exact AddressBook.stored_eq_none.2 rfl
    · rfl
  · rw [if_pos heq, if_neg (ZoneMachine.not_mayOwn howner heq)]
    exact ⟨rfl, h⟩

/-! ## Labels -/

/-- Adding the records of addresses is putting the addresses into the book. -/
theorem alone_addRecords_of_stored (hz : s.TakesFields name.zone.fqdn)
    (hread : s.read (recordCell name) = book.recordSet.stored) (auth : ZoneAuthority)
    (hips : ips ≠ []) :
    ∃ t, alone (auth.addRecords name ips) s = (.ok (), t) ∧ ∀ cell : Cell, t.read cell =
      if cell = recordCell name then (book.putAll auth.recordTtl ips).recordSet.stored
      else s.read cell := by
  have hset := labelRecords_of_stored hread
  rw [alone_addRecords, alone_readRecords hz, hset]
  simp only
  have hbook : (book.putAll auth.recordTtl ips).recordSet = _ := book.recordSet_putAll auth.recordTtl ips
  by_cases hchanged : (book.recordSet.addAll (auth.recordsOf ips)).1 = true
  · have hstored : (book.putAll auth.recordTtl ips).recordSet.stored =
        some (book.recordSet.addAll (auth.recordsOf ips)).2.encode := by
      rw [AddressBook.stored_of_ne (book.entries_putAll_ne_nil auth.recordTtl (.inr hips)), hbook]
      rfl
    have htakes : s.Takes (recordCell name) := hz
    rw [if_pos hchanged, hstored]
    exact ⟨_, rfl, fun cell => read_write _ htakes _ cell⟩
  · have hsame : (book.putAll auth.recordTtl ips).recordSet = book.recordSet :=
      hbook.trans (RecordSet.addAll_eq_self (Bool.not_eq_true _ ▸ hchanged))
    rw [if_neg hchanged, hsame]
    refine ⟨_, rfl, fun cell => ?_⟩
    split
    · next hcell => rw [hcell, hread]
    · rfl

/-- Removing the records of addresses is dropping the addresses from the book. -/
theorem alone_withdraw_of_stored (hz : s.TakesFields name.zone.fqdn)
    (hm : s.TakesFields managedDomains) (hread : s.read (recordCell name) = book.recordSet.stored)
    (auth : ZoneAuthority) (selfManaged : Bool) (ips : List Ip) :
    ∃ t, alone (auth.withdraw selfManaged name ips) s = (.ok (), t) ∧ ∀ cell : Cell, t.read cell =
      if cell = recordCell name then (book.dropAll ips).recordSet.stored
      else if cell = claimCell name ∧ selfManaged = true ∧ (book.dropAll ips).entries = [] then none
      else s.read cell := by
  have hset := labelRecords_of_stored hread
  have hbook : (book.dropAll ips).recordSet = (book.recordSet.removeAll (auth.recordsOf ips)).2 :=
    book.recordSet_dropAll auth.recordTtl ips
  have htakes : s.Takes (recordCell name) := hz
  rw [alone_withdraw auth (fun _ => hm), alone_readRecords hz, hset]
  simp only
  rw [← hbook]
  by_cases hempty : (book.dropAll ips).entries = []
  · rw [if_pos (AddressBook.isEmpty_recordSet _ |>.2 hempty), AddressBook.stored_eq_none.2 hempty]
    refine ⟨_, rfl, fun cell => ?_⟩
    cases selfManaged with
    | true =>
      have htakes' : (s.write (recordCell name) none).Takes (claimCell name) :=
        (takes_write_iff (recordCell name) htakes none (c := claimCell name)
          (DomainName.fqdn_ne_managedDomains name.zone).symm).2 hm
      simp only [if_true, hempty, and_self, and_true]
      rw [read_write (claimCell name) htakes', read_write (recordCell name) htakes]
      grind [recordCell_ne_claimCell]
    | false =>
      simp only [Bool.false_eq_true, if_false, false_and, and_false]
      rw [read_write (recordCell name) htakes]
  · have hnone : ∀ cell, ¬ (cell = claimCell name ∧ selfManaged = true ∧
        (book.dropAll ips).entries = []) := fun _ hcell => hempty hcell.2.2
    simp only [if_neg (hnone _)]
    rw [if_neg fun h => hempty (AddressBook.isEmpty_recordSet _ |>.1 h)]
    by_cases hremoved : (book.recordSet.removeAll (auth.recordsOf ips)).1 = true
    · rw [if_pos hremoved, AddressBook.stored_of_ne hempty]
      exact ⟨_, rfl, fun cell => read_write _ htakes _ cell⟩
    · have hsame : (book.dropAll ips).recordSet = book.recordSet :=
        hbook.trans (RecordSet.removeAll_eq_self (Bool.not_eq_true _ ▸ hremoved))
      rw [if_neg hremoved, hsame]
      refine ⟨_, rfl, fun cell => ?_⟩
      split
      · next hcell => rw [hcell, hread]
      · rfl

/-- **A claim in a zone of the gateway** goes to the first user, and to that user again. -/
theorem simulates_claimSelfManaged (h : Encodes s m) (hc : Coherent identity s)
    (howner : m.owner name.zone = some identity) (auth : ZoneAuthority) (user : String)
    (hips : ips ≠ []) :
    Simulates (alone (auth.claimSelfManaged user name ips) s)
      (if m.MayClaim identity user name then
        (.ok (), m.relabel name ((m.addresses name).putAll auth.recordTtl ips) (some user))
      else
        (.error (.unauthorized ("add subdomain " ++ name.text ++ " to zone") name.zone.text), m)) := by
  have hz := hc.takesFields_fqdn name.zone
  have hclaims := h.claimant_ne_none hc name
  rw [alone_claimSelfManaged, h.readClaimant hc]
  cases hclaimant : m.claimant name with
  | none =>
    have hentries : (m.addresses name).entries = [] := by
      apply Classical.byContradiction
      intro hne
      exact hclaims.2 ⟨howner, hne⟩ hclaimant
    have hmay : m.MayClaim identity user name := .inr ⟨howner, .inl hentries⟩
    have hcell : s.read (claimCell name) = none := by
      rw [h.claimant, hclaimant]
      rfl
    simp only
    rw [if_pos hcell, if_pos hmay, h.readRecords hc]
    simp only
    -- the records are read and written after the claim
    have htakes : s.Takes (claimCell name) := hc.takesFields_claims
    have hz' : (s.write (claimCell name) (some (Bytes.ofText user))).TakesFields name.zone.fqdn :=
      (takes_write_iff (claimCell name) htakes _ (c := recordCell name)
        (DomainName.fqdn_ne_managedDomains name.zone)).2 hz
    have hrecords : (s.write (claimCell name) (some (Bytes.ofText user))).read (recordCell name) =
        (m.addresses name).recordSet.stored := by
      rw [read_write _ htakes, if_neg (recordCell_ne_claimCell _ _), h.records]
    obtain ⟨t, hrun, hread⟩ := alone_addRecords_of_stored hz' hrecords auth hips
    rw [hrun]
    refine ⟨rfl, h.of_label fun cell => ?_⟩
    rw [hread, read_write _ htakes]
    rfl
  | some other =>
    simp only
    by_cases heq : other = user
    · subst heq
      have hmay : m.MayClaim identity other name := .inr ⟨howner, .inr hclaimant⟩
      obtain ⟨t, hrun, hread⟩ := alone_addRecords_of_stored hz (h.records name) auth hips
      rw [if_pos rfl, if_pos hmay, hrun, ← hclaimant]
      exact ⟨rfl, h.of_records hread⟩
    · have hclaimed : m.claimant name ≠ none := by
        rw [hclaimant]
        exact Option.some_ne_none other
      rw [if_neg heq,
        if_neg (ZoneMachine.not_mayClaim_of_claimant howner (hclaims.1 hclaimed).2 hclaimant heq)]
      exact ⟨rfl, h⟩

theorem simulates_claim (h : Encodes s m) (hc : Coherent identity s) (hu : user ≠ "") {domain : String}
    (hd : DomainName.parse domain = .ok name) (ttl : UInt32) (ips : List Ip) :
    Simulates (alone (ZoneAuthority.claim ⟨identity, ttl⟩ user domain ips) s)
      (m.claim identity user ttl name ips) := by
  unfold ZoneMachine.claim
  by_cases hips : ips = []
  · rw [if_pos hips]
    unfold ZoneAuthority.claim
    rw [alone_checked, if_neg hu, DomainName.require_eq_ok.2 hd]
    simp only [hips, if_true]
    exact ⟨rfl, h⟩
  rw [if_neg hips, alone_claim _ hu hd hips, h.readOwner hc]
  rcases h.owner_cases hc name.zone with hfree | ⟨owner, hne, howner⟩
  · simp only [hfree, Option.getD_none, if_true]
    exact ⟨rfl, h⟩
  simp only [howner, Option.getD_some, if_neg hne, reduceCtorEq, if_false, Option.some.injEq]
  by_cases hid : owner = identity
  · subst hid
    simp only [if_true]
    exact simulates_claimSelfManaged h hc howner ⟨owner, ttl⟩ user hips
  simp only [if_neg hid]
  by_cases heq : owner = user
  · subst heq
    have hmay : m.MayClaim identity owner name := .inl ⟨howner, hid⟩
    obtain ⟨t, hrun, hread⟩ := alone_addRecords_of_stored (hc.takesFields_fqdn name.zone)
      (h.records name) ⟨identity, ttl⟩ hips
    rw [if_pos rfl, if_pos hmay, hrun]
    exact ⟨rfl, h.of_records hread⟩
  · rw [if_neg heq, if_neg (ZoneMachine.not_mayClaim_of_owner howner hid heq)]
    exact ⟨rfl, h⟩

/-- Whoever may withdraw addresses does to the machine what it does to the store. -/
theorem simulates_withdraw (h : Encodes s m) (hc : Coherent identity s) (auth : ZoneAuthority)
    (name : DomainName) {selfManaged : Bool} (hself : selfManaged = true ∨ m.claimant name = none)
    (ips : List Ip) :
    let left := (m.addresses name).dropAll ips
    Simulates (alone (auth.withdraw selfManaged name ips) s)
      (.ok (), m.relabel name left (if left.entries = [] then none else m.claimant name)) := by
  intro left
  obtain ⟨t, hrun, hread⟩ := alone_withdraw_of_stored (hc.takesFields_fqdn name.zone)
    hc.takesFields_claims (h.records name) auth selfManaged ips
  rw [hrun]
  refine ⟨rfl, h.of_label fun cell => ?_⟩
  rw [hread]
  split
  · rfl
  by_cases hcell : cell = claimCell name
  · rw [if_pos hcell, hcell, h.claimant]
    by_cases hempty : left.entries = []
    · rw [if_pos hempty]
      rcases hself with hself | hnone
      · rw [if_pos ⟨rfl, hself, hempty⟩]
        rfl
      · rw [hnone]
        simp
    · rw [if_neg fun hgone => hempty hgone.2.2, if_neg hempty]
  · rw [if_neg hcell, if_neg fun hgone => hcell hgone.1]

theorem simulates_release (h : Encodes s m) (hc : Coherent identity s) (hu : user ≠ "") {domain : String}
    (hd : DomainName.parse domain = .ok name) (ttl : UInt32) (ips : List Ip) :
    Simulates (alone (ZoneAuthority.release ⟨identity, ttl⟩ user domain ips) s)
      (m.release identity user name ips) := by
  unfold ZoneMachine.release
  rw [alone_release _ hu hd, h.readOwner hc]
  rcases h.owner_cases hc name.zone with hfree | ⟨owner, hne, howner⟩
  · have hmay : m.MayRelease identity user name := .inl hfree
    have hleft : ((m.addresses name).dropAll ips).entries = [] :=
      AddressBook.entries_dropAll_of_nil _ (h.entries_of_unowned hc hfree) ips
    obtain ⟨hclaimant, hstored⟩ := h.unowned hc hfree
    simp only [hfree, Option.getD_none, if_true]
    rw [if_pos hmay, if_pos hleft]
    -- there is nothing to be removed
    refine ⟨rfl, h.of_label fun cell => ?_⟩
    rw [AddressBook.stored_eq_none.2 hleft]
    split
    · next hcell => rw [hcell, h.records, hstored]
    split
    · next hcell => rw [hcell, h.claimant, hclaimant]
    · rfl
  simp only [howner, Option.getD_some, if_neg hne]
  by_cases hid : owner = identity
  · subst hid
    rw [if_pos rfl, h.readClaimant hc]
    cases hclaimant : m.claimant name with
    | none =>
      have hmay : m.MayRelease owner user name := .inr (.inr ⟨howner, .inl hclaimant⟩)
      simp only
      rw [if_pos hmay]
      simpa only [hclaimant] using simulates_withdraw h hc ⟨owner, ttl⟩ name (.inl rfl) ips
    | some other =>
      simp only
      by_cases heq : other = user
      · subst heq
        have hmay : m.MayRelease owner other name := .inr (.inr ⟨howner, .inr hclaimant⟩)
        rw [if_pos rfl, if_pos hmay]
        simpa only [hclaimant] using simulates_withdraw h hc ⟨owner, ttl⟩ name (.inl rfl) ips
      · rw [if_neg heq, if_neg (ZoneMachine.not_mayRelease_of_claimant howner hclaimant heq)]
        exact ⟨rfl, h⟩
  · rw [if_neg hid]
    by_cases heq : owner = user
    · subst heq
      have hmay : m.MayRelease identity owner name := .inr (.inl ⟨howner, hid⟩)
      have hnone : m.claimant name = none := by
        apply Classical.byContradiction
        intro hclaimed
        have hgateway := ((h.claimant_ne_none hc name).1 hclaimed).1
        exact hid (Option.some.inj (howner.symm.trans hgateway))
      rw [if_pos rfl, if_pos hmay]
      exact simulates_withdraw h hc _ name (.inr hnone) ips
    · rw [if_neg heq, if_neg (ZoneMachine.not_mayRelease_of_owner howner hid heq)]
      exact ⟨rfl, h⟩

/-! ## Runs -/

/-- **One call** moves the store and the machine alike. -/
theorem simulates_call (h : Encodes s m) (hc : Coherent identity s) (call : ZoneCall) :
    Simulates (alone (call.operation identity) s) (m.step identity call) := by
  obtain ⟨next, hnext⟩ := ZoneCall.operation_eq identity call
  unfold ZoneMachine.step
  by_cases hu : call.user = ""
  · rw [hnext, alone_checked, if_pos hu, if_pos hu]
    exact ⟨rfl, h⟩
  rw [if_neg hu]
  cases hr : DomainName.require call.domain with
  | error e =>
    rw [hnext, alone_checked, if_neg hu, hr]
    exact ⟨rfl, h⟩
  | ok name =>
    have hd := DomainName.require_eq_ok.1 hr
    cases call with
    | delegate user domain =>
      change user ≠ "" at hu
      change DomainName.parse domain = .ok name at hd
      show Simulates (alone (ZoneAuthority.delegate user domain) s) (m.delegate user name)
      rw [alone_delegate hu hd]
      exact simulates_delegate h hc hu name
    | revoke user domain =>
      change user ≠ "" at hu
      change DomainName.parse domain = .ok name at hd
      show Simulates (alone (ZoneAuthority.revoke user domain) s) (m.revoke user name)
      rw [alone_revoke hu hd]
      exact simulates_revoke h hc user name
    | claim ttl user domain ips => exact simulates_claim h hc hu hd ttl ips
    | release ttl user domain ips => exact simulates_release h hc hu hd ttl ips

/-- The answers of calls that run one after another. -/
def answerCalls (identity : String) : List ZoneCall → MemoryStore → List (Except GatewayError Unit)
  | [], _ => []
  | call :: calls, s =>
    let (answer, s) := alone (call.operation identity) s
    answer :: answerCalls identity calls s

theorem simulates_calls (h : Encodes s m) (hc : Coherent identity s) (calls : List ZoneCall) :
    answerCalls identity calls s = (m.run identity calls).1 ∧
      Encodes (runCalls identity calls s) (m.run identity calls).2 ∧
      Coherent identity (runCalls identity calls s) := by
  induction calls generalizing s m with
  | nil => exact ⟨rfl, h, hc⟩
  | cons call calls ih =>
    have hstep := simulates_call h hc call
    obtain ⟨hanswers, hrest⟩ := ih hstep.state (hc.call call)
    have hleft : answerCalls identity (call :: calls) s =
        (alone (call.operation identity) s).1 ::
          answerCalls identity calls (alone (call.operation identity) s).2 := rfl
    have hright : (m.run identity (call :: calls)).1 =
        (m.step identity call).1 :: ((m.step identity call).2.run identity calls).1 := rfl
    refine ⟨?_, hrest⟩
    rw [hleft, hright, hstep.answer, hanswers]

/-- What the queries of a store answer is what the machine says, and they leave the store alone. -/
structure AnswersAs (s : MemoryStore) (m : ZoneMachine) : Prop where
  records : ∀ domain, alone (ZoneAuthority.records domain) s =
    ((DomainName.require domain).map fun name => (m.addresses name).recordSet, s)
  labels : ∀ domain, match DomainName.require domain with
    | .error e => alone (ZoneAuthority.labels domain) s = (.error e, s)
    | .ok zone => ∃ labels, alone (ZoneAuthority.labels domain) s = (.ok labels, s) ∧ m.Lists zone labels
  zoneOwner : ∀ domain, alone (ZoneAuthority.zoneOwner domain) s =
    ((DomainName.require domain).map m.owner, s)
  claimantOf : ∀ domain, alone (ZoneAuthority.claimantOf domain) s =
    ((DomainName.require domain).map m.claimant, s)

/-- The fields of the hash of a zone are its labels with addresses. -/
theorem Encodes.lists (h : Encodes s m) (hc : Coherent identity s) (zone : DomainName) :
    m.Lists zone (s.fieldNames zone.fqdn) := by
  refine ⟨fieldNames_sorted _ _, fun label => ?_⟩
  have hstored : ∀ name, s.read (recordCell name) ≠ none ↔ (m.addresses name).entries ≠ [] := by
    intro name
    rw [h.records, ne_eq, AddressBook.stored_eq_none]
  rw [mem_fieldNames (hc.takesFields_fqdn zone)]
  constructor
  · intro hread
    obtain ⟨name, hname | hname⟩ := hc.fields _ _ hread
    · rw [hname, hstored] at hread
      rw [recordCell, Cell.field.injEq] at hname
      exact ⟨name, (DomainName.fqdn_inj.1 hname.1).symm, hname.2.symm, hread⟩
    · rw [claimCell, Cell.field.injEq] at hname
      exact absurd hname.1 (DomainName.fqdn_ne_managedDomains zone)
  · rintro ⟨name, rfl, rfl, hne⟩
    exact (hstored name).2 hne

theorem Encodes.answersAs (h : Encodes s m) (hc : Coherent identity s) : AnswersAs s m where
  records := by
    intro domain
    unfold ZoneAuthority.records
    cases DomainName.require domain with
    | error e => rfl
    | ok name => rw [alone_bind_ok (alone_check_ok name s), h.readRecords hc]; rfl
  labels := by
    intro domain
    unfold ZoneAuthority.labels
    cases DomainName.require domain with
    | error e => rfl
    | ok zone =>
      refine ⟨_, ?_, h.lists hc zone⟩
      rw [alone_bind_ok (alone_check_ok zone s), alone_hkeys (hc.takesFields_fqdn zone)]
  zoneOwner := by
    intro domain
    unfold ZoneAuthority.zoneOwner
    cases DomainName.require domain with
    | error e => rfl
    | ok zone =>
      rw [alone_bind_ok (alone_check_ok zone s), alone_bind_ok (h.readOwner hc zone)]
      rcases h.owner_cases hc zone with hfree | ⟨owner, hne, howner⟩
      · simp only [hfree, Option.getD_none, if_true, alone_pure, Except.map]
      · simp only [howner, Option.getD_some, if_neg hne, alone_pure, Except.map]
  claimantOf := by
    intro domain
    unfold ZoneAuthority.claimantOf
    cases DomainName.require domain with
    | error e => rfl
    | ok name => rw [alone_bind_ok (alone_check_ok name s), h.readClaimant hc]; rfl

/-- **The zone authority is the ownership machine.** Whatever calls run one after another on the empty
store, each answers as the machine does, and all queries afterwards answer what the machine has. -/
theorem authority_refines_machine (identity : String) (calls : List ZoneCall) :
    answerCalls identity calls .empty = (ZoneMachine.empty.run identity calls).1 ∧
      AnswersAs (runCalls identity calls .empty) (ZoneMachine.empty.run identity calls).2 := by
  obtain ⟨hanswers, hencodes, hcoherent⟩ :=
    simulates_calls encodes_empty (coherent_empty identity) calls
  exact ⟨hanswers, hencodes.answersAs hcoherent⟩

end GatewayControl
