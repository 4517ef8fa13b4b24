import GatewayControl.Proofs.Authority.ZoneAlone
import GatewayControl.Proofs.Dns.AddressSet
import GatewayControl.Proofs.Dns.RecordCodec

/-!
# `GatewayControl.Proofs.Authority.Coherence` -- the three tables of the zone authority agree

Owner records, record sets and label claims are stored apart and written without a transaction, yet
calls that run one after another keep them in step: `Coherent` says how, and `coherent_run` that
every finite run of calls of one gateway stays coherent. Two transitions cover all calls that change
the store. A change of owner empties the zone (`Coherent.change_owner`); a claim or a release
writes the records and the claim of one name together (`Coherent.change_label`).
-/

namespace GatewayControl

open Operation MemoryStore

/-- What the owner records, record sets and label claims of a gateway have to do with each other. -/
structure Coherent (identity : String) (s : MemoryStore) : Prop where
  /-- A plain value is the owner record of a zone and names somebody. -/
  values : ∀ key bytes, s.read (.value key) = some bytes →
    ∃ zone : DomainName, key = zone.zoneKey ∧ ∃ user, user ≠ "" ∧ bytes = encodeOwner user
  /-- A field holds the records of a name, or a claim of a name. -/
  fields : ∀ key field, s.read (.field key field) ≠ none →
    ∃ name : DomainName, .field key field = recordCell name ∨ .field key field = claimCell name
  /-- Only owned zones have records. -/
  owned : ∀ name, s.read (recordCell name) ≠ none →
    ∃ owner, owner ≠ "" ∧ s.ownerOf name.zone = some owner
  /-- Records are stored in one form: addresses alone, none of them twice, and at least one. -/
  addresses : ∀ name bytes, s.read (recordCell name) = some bytes →
    ∃ set : RecordSet, set.IsAddressSet ∧ set.isEmpty = false ∧ bytes = set.encode
  /-- A claim names somebody. -/
  claimants : ∀ name bytes, s.read (claimCell name) = some bytes →
    ∃ user, user ≠ "" ∧ bytes = Bytes.ofText user
  /-- The names that are claimed are the names with records in zones of the gateway. -/
  claimed : ∀ name, s.read (claimCell name) ≠ none ↔
    s.ownerOf name.zone = some identity ∧ s.read (recordCell name) ≠ none

theorem coherent_empty (identity : String) : Coherent identity MemoryStore.empty where
  values := fun key bytes h => by rw [read_empty] at h; cases h
  fields := fun key field h => absurd (read_empty _) h
  owned := fun name h => absurd (read_empty _) h
  addresses := fun name bytes h => by rw [read_empty] at h; cases h
  claimants := fun name bytes h => by rw [read_empty] at h; cases h
  claimed := fun name => by rw [read_empty, read_empty]; simp

namespace Coherent

variable {identity user domain : String} {s t : MemoryStore} {zone name : DomainName}

/-! ## What a coherent store answers -/

theorem takesFields (h : Coherent identity s) {key : String}
    (hkey : ∀ zone : DomainName, key ≠ zone.zoneKey) : s.TakesFields key := by
  unfold TakesFields
  cases hread : s.read (.value key) with
  | none => rfl
  | some bytes =>
    obtain ⟨zone, hzone, -⟩ := h.values key bytes hread
    exact absurd hzone (hkey zone)

theorem takesFields_fqdn (h : Coherent identity s) (zone : DomainName) : s.TakesFields zone.fqdn :=
  h.takesFields fun _ => DomainName.fqdn_ne_zoneKey _ _

theorem takesFields_claims (h : Coherent identity s) : s.TakesFields managedDomains :=
  h.takesFields fun zone heq => DomainName.zoneKey_ne_managedDomains zone heq.symm

theorem takesValue_zoneKey (h : Coherent identity s) (zone : DomainName) :
    s.TakesValue zone.zoneKey := by
  intro field
  apply Classical.byContradiction
  intro hread
  obtain ⟨name, hname | hname⟩ := h.fields _ _ hread
  · rw [recordCell, Cell.field.injEq] at hname
    exact DomainName.fqdn_ne_zoneKey _ _ hname.1.symm
  · rw [claimCell, Cell.field.injEq] at hname
    exact DomainName.zoneKey_ne_managedDomains _ hname.1

/-- A name has no records, or a stored set of addresses that is not empty. -/
theorem labelRecords_cases (h : Coherent identity s) (name : DomainName) :
    ∃ set : RecordSet, set.IsAddressSet ∧ s.labelRecords name = some set ∧
      (s.read (recordCell name) = none ∧ set = .empty ∨
        s.read (recordCell name) = some set.encode ∧ set.isEmpty = false) := by
  unfold labelRecords
  cases hread : s.read (recordCell name) with
  | none => exact ⟨.empty, RecordSet.isAddressSet_empty, rfl, .inl ⟨rfl, rfl⟩⟩
  | some bytes =>
    obtain ⟨set, hset, hempty, rfl⟩ := h.addresses name bytes hread
    exact ⟨set, hset, RecordSet.decode?_encode hset.foreign, .inr ⟨rfl, hempty⟩⟩

/-- A name has no claim, or one that names a user. -/
theorem labelClaimant_cases (h : Coherent identity s) (name : DomainName) :
    (s.read (claimCell name) = none ∧ s.labelClaimant name = some "") ∨
      ∃ user, user ≠ "" ∧ s.read (claimCell name) = some (Bytes.ofText user) ∧
        s.labelClaimant name = some user := by
  unfold labelClaimant claimantIn
  cases hread : s.read (claimCell name) with
  | none => exact .inl ⟨rfl, rfl⟩
  | some bytes =>
    obtain ⟨user, hne, rfl⟩ := h.claimants name bytes hread
    exact .inr ⟨user, hne, rfl, Bytes.toText?_ofText user⟩

theorem claim_cases (h : Coherent identity s) (name : DomainName) :
    s.read (claimCell name) = none ∨
      ∃ user, user ≠ "" ∧ s.read (claimCell name) = some (Bytes.ofText user) := by
  rcases h.labelClaimant_cases name with ⟨hnone, -⟩ | ⟨user, huser, hsome, -⟩
  · exact .inl hnone
  · exact .inr ⟨user, huser, hsome⟩

/-! ## The two transitions -/

/-- **A change of owner** leaves a zone without records and claims. -/
theorem change_owner (h : Coherent identity s) {content : Option Bytes}
    (hcontent : content = none ∨ ∃ user, user ≠ "" ∧ content = some (encodeOwner user))
    (ht : Cleared zone (s.write (.value zone.zoneKey) content) t) : Coherent identity t := by
  have hread : ∀ cell : Cell, t.read cell =
      if cell.InZone zone then none else if cell = .value zone.zoneKey then content else s.read cell := by
    intro cell
    have htakes : s.Takes (.value zone.zoneKey) := h.takesValue_zoneKey zone
    rw [ht, read_write (.value zone.zoneKey) htakes]
  have hfield : ∀ key field, ¬ (Cell.field key field).InZone zone →
      t.read (.field key field) = s.read (.field key field) := by
    intro key field hc
    rw [hread, if_neg hc, if_neg (by simp)]
  -- what is left lies outside the zone, where nothing has changed
  have hgone : ∀ cell : Cell, t.read cell ≠ none → ¬ cell.InZone zone :=
    fun cell hne hc => hne (by rw [hread, if_pos hc])
  have howner : ∀ other : DomainName, other ≠ zone → t.ownerOf other = s.ownerOf other := by
    intro other hne
    apply ownerOf_congr
    rw [hread, if_neg (by simp [Cell.InZone]), if_neg]
    simpa using fun heq => hne (DomainName.zoneKey_inj.1 heq)
  refine ⟨?_, ?_, ?_, ?_, ?_, ?_⟩
  · intro key bytes hbytes
    rw [hread, if_neg (by simp [Cell.InZone])] at hbytes
    split at hbytes
    · next hkey =>
      rcases hcontent with hnone | ⟨user, hne, hsome⟩
      · rw [hnone] at hbytes
        cases hbytes
      · rw [hsome, Option.some.injEq] at hbytes
        exact ⟨zone, Cell.value.inj hkey, user, hne, hbytes.symm⟩
    · exact h.values key bytes hbytes
  · intro key field hne
    rw [hfield key field (hgone _ hne)] at hne
    exact h.fields key field hne
  · intro name hne
    have hout := hgone _ hne
    rw [inZone_recordCell] at hout
    rw [recordCell, hfield _ _ ((not_congr inZone_recordCell).2 hout)] at hne
    rw [howner _ hout]
    exact h.owned name hne
  · intro name bytes hbytes
    have hout := hgone (recordCell name) (by rw [hbytes]; exact Option.some_ne_none _)
    rw [recordCell, hfield _ _ hout] at hbytes
    exact h.addresses name bytes hbytes
  · intro name bytes hbytes
    have hout := hgone (claimCell name) (by rw [hbytes]; exact Option.some_ne_none _)
    rw [claimCell, hfield _ _ hout] at hbytes
    exact h.claimants name bytes hbytes
  · intro name
    by_cases hin : name.zone = zone
    · rw [hread, if_pos (inZone_claimCell.2 hin), hread, if_pos (inZone_recordCell.2 hin)]
      simp
    · have hclaim : t.read (claimCell name) = s.read (claimCell name) :=
        hfield _ _ ((not_congr inZone_claimCell).2 hin)
      have hrecord : t.read (recordCell name) = s.read (recordCell name) :=
        hfield _ _ ((not_congr inZone_recordCell).2 hin)
      rw [hclaim, hrecord, howner _ hin]
      exact h.claimed name

/-- **A change of a label** writes its records and its claim in step. -/
theorem change_label (h : Coherent identity s) {owner : String} (hne : owner ≠ "")
    (howner : s.ownerOf name.zone = some owner) {records claim : Option Bytes}
    (hrecords : records = none ∨
      ∃ set : RecordSet, set.IsAddressSet ∧ set.isEmpty = false ∧ records = some set.encode)
    (hclaim : claim = none ∨ ∃ user, user ≠ "" ∧ claim = some (Bytes.ofText user))
    (hstep : claim ≠ none ↔ owner = identity ∧ records ≠ none)
    (ht : ∀ cell : Cell, t.read cell =
      if cell = recordCell name then records else if cell = claimCell name then claim
      else s.read cell) : Coherent identity t := by
  have hvalue : ∀ key, t.read (.value key) = s.read (.value key) := by
    intro key
    rw [ht, if_neg (by simp [recordCell]), if_neg (by simp [claimCell])]
  have hown : ∀ other, t.ownerOf other = s.ownerOf other := fun other => ownerOf_congr (hvalue _)
  have hrecord : ∀ other, t.read (recordCell other) =
      if other = name then records else s.read (recordCell other) := by
    intro other
    rw [ht]
    by_cases heq : other = name
    · rw [if_pos (recordCell_inj.2 heq), if_pos heq]
    · rw [if_neg ((not_congr recordCell_inj).2 heq), if_neg (recordCell_ne_claimCell _ _), if_neg heq]
  have hclaimed : ∀ other, t.read (claimCell other) =
      if other = name then claim else s.read (claimCell other) := by
    intro other
    rw [ht, if_neg fun heq => recordCell_ne_claimCell _ _ heq.symm]
    by_cases heq : other = name
    · rw [if_pos (claimCell_inj.2 heq), if_pos heq]
    · rw [if_neg ((not_congr claimCell_inj).2 heq), if_neg heq]
  -- every table has changed in the row of the name alone
  refine ⟨?_, ?_, ?_, ?_, ?_, ?_⟩
  · intro key bytes hbytes
    rw [hvalue] at hbytes
    exact h.values key bytes hbytes
  · intro key field hfield
    rw [ht] at hfield
    split at hfield
    · next heq => exact ⟨name, .inl heq⟩
    split at hfield
    · next heq => exact ⟨name, .inr heq⟩
    · exact h.fields key field hfield
  · intro other hother
    rw [hrecord] at hother
    rw [hown]
    split at hother
    · next heq => exact ⟨owner, hne, heq ▸ howner⟩
    · exact h.owned other hother
  · intro other bytes hbytes
    rw [hrecord] at hbytes
    split at hbytes
    · rcases hrecords with hnone | ⟨set, hset, hempty, hsome⟩
      · rw [hnone] at hbytes
        cases hbytes
      · rw [hsome, Option.some.injEq] at hbytes
        exact ⟨set, hset, hempty, hbytes.symm⟩
    · exact h.addresses other bytes hbytes
  · intro other bytes hbytes
    rw [hclaimed] at hbytes
    split at hbytes
    · rcases hclaim with hnone | ⟨user, huser, hsome⟩
      · rw [hnone] at hbytes
        cases hbytes
      · rw [hsome, Option.some.injEq] at hbytes
        exact ⟨user, huser, hbytes.symm⟩
    · exact h.claimants other bytes hbytes
  · intro other
    rw [hclaimed, hrecord, hown]
    by_cases heq : other = name
    · rw [if_pos heq, if_pos heq, heq, howner, Option.some.injEq]
      exact hstep
    · rw [if_neg heq, if_neg heq]
      exact h.claimed other

/-! ## Owners -/

/-- A store is coherent again once the zone is cleared whose owner has changed. -/
theorem clear_after_write (h : Coherent identity s) {content : Option Bytes}
    (hcontent : content = none ∨ ∃ user, user ≠ "" ∧ content = some (encodeOwner user)) :
    Coherent identity
      (alone (ZoneAuthority.clearZone zone) (s.write (.value zone.zoneKey) content)).2 := by
  have htakes : s.Takes (.value zone.zoneKey) := h.takesValue_zoneKey zone
  have hfields : ∀ key, (∀ zone : DomainName, key ≠ zone.zoneKey) →
      (s.write (.value zone.zoneKey) content).TakesFields key := by
    intro key hkey
    unfold TakesFields
    rw [read_write (.value zone.zoneKey) htakes, if_neg (by simpa using hkey zone)]
    exact h.takesFields hkey
  obtain ⟨t, hrun, hcleared⟩ := ZoneAuthority.alone_clearZone
    (hfields zone.fqdn fun _ => DomainName.fqdn_ne_zoneKey _ _)
    (hfields managedDomains fun other heq => DomainName.zoneKey_ne_managedDomains other heq.symm)
  rw [hrun]
  exact h.change_owner hcontent hcleared

theorem delegateRounds (h : Coherent identity s) (hu : user ≠ "") (rounds : Nat) :
    Coherent identity (alone (ZoneAuthority.delegateRounds user zone (rounds + 1)) s).2 := by
  rw [ZoneAuthority.alone_delegateRounds]
  rcases alone_readOwner_cases zone s with ⟨owner, -, -, hrun⟩ | ⟨e, hrun⟩
  · rw [hrun]
    simp only
    split
    · exact h
    split
    · exact h
    · exact h.clear_after_write (.inr ⟨user, hu, rfl⟩)
  · rw [hrun]
    exact h

theorem revokeRounds (h : Coherent identity s) (rounds : Nat) :
    Coherent identity (alone (ZoneAuthority.revokeRounds user zone (rounds + 1)) s).2 := by
  rw [ZoneAuthority.alone_revokeRounds]
  rcases alone_readOwner_cases zone s with ⟨owner, -, -, hrun⟩ | ⟨e, hrun⟩
  · rw [hrun]
    simp only
    split
    · exact h
    split
    · exact h
    · exact h.clear_after_write (.inl rfl)
  · rw [hrun]
    exact h

/-! ## Labels -/

/-- The records of a name are read as a set of addresses. -/
theorem readRecords_cases (h : Coherent identity s) (name : DomainName) :
    ∃ set : RecordSet, set.IsAddressSet ∧
      alone (ZoneAuthority.readRecords name.zone name.label) s = (.ok set, s) ∧
      (s.read (recordCell name) = none ∧ set = .empty ∨
        s.read (recordCell name) = some set.encode ∧ set.isEmpty = false) := by
  obtain ⟨set, hset, hlabel, hread⟩ := h.labelRecords_cases name
  refine ⟨set, hset, ?_, hread⟩
  rw [alone_readRecords (h.takesFields_fqdn name.zone), hlabel]

/-- In a store whose claim of the name is in order, records that are added stay in step with it. -/
theorem addRecords (h : Coherent identity s) {owner : String} (hne : owner ≠ "")
    (howner : s.ownerOf name.zone = some owner)
    (hclaim : owner = identity → s.read (claimCell name) ≠ none) (auth : ZoneAuthority)
    {ips : List Ip} (hips : ips ≠ []) :
    Coherent identity (alone (auth.addRecords name ips) s).2 := by
  obtain ⟨set, hset, hrun, hread⟩ := h.readRecords_cases name
  have haddr : ∀ r ∈ auth.recordsOf ips, r.IsAddress :=
    fun r hr => ZoneAuthority.isAddress_of_mem_recordsOf hr
  have hrecords : auth.recordsOf ips ≠ [] := fun hnil => hips (List.map_eq_nil_iff.1 hnil)
  rw [ZoneAuthority.alone_addRecords, hrun]
  simp only
  split
  · have htakes : s.Takes (recordCell name) := h.takesFields_fqdn name.zone
    refine h.change_label hne howner
      (.inr ⟨_, hset.addAll haddr, hset.isEmpty_addAll haddr (.inr hrecords), rfl⟩)
      (h.claim_cases name) ?_ ?_
    · have hclaimed := h.claimed name
      rw [howner, Option.some.injEq] at hclaimed
      exact ⟨fun hc => ⟨(hclaimed.1 hc).1, Option.some_ne_none _⟩, fun ho => hclaim ho.1⟩
    · intro cell
      rw [read_write (recordCell name) htakes]
      split
      · rfl
      split
      · next heq => rw [heq]
      · rfl
  · exact h

/-- A first claim of a label writes the claim and the records. -/
theorem claimSelfManaged (h : Coherent identity s) (hi : identity ≠ "")
    (howner : s.ownerOf name.zone = some identity) (auth : ZoneAuthority) (hu : user ≠ "")
    {ips : List Ip} (hips : ips ≠ []) :
    Coherent identity (alone (auth.claimSelfManaged user name ips) s).2 := by
  rw [ZoneAuthority.alone_claimSelfManaged, alone_claimant name h.takesFields_claims]
  rcases h.labelClaimant_cases name with ⟨hnone, hlabel⟩ | ⟨other, hother, hsome, hlabel⟩
  · rw [hlabel]
    simp only [if_true]
    rw [if_pos hnone]
    have htakes : s.Takes (claimCell name) := h.takesFields_claims
    -- a name without a claim has no records either
    have hrecord : s.read (recordCell name) = none := by
      apply Classical.byContradiction
      intro hread
      exact (h.claimed name).2 ⟨howner, hread⟩ hnone
    obtain ⟨set, hset, hrun, hread⟩ := h.readRecords_cases name
    have hset' : set = .empty := by
      rcases hread with ⟨-, heq⟩ | ⟨hread, -⟩
      · exact heq
      · rw [hrecord] at hread
        cases hread
    subst hset'
    have haddr : ∀ r ∈ auth.recordsOf ips, r.IsAddress :=
      fun r hr => ZoneAuthority.isAddress_of_mem_recordsOf hr
    have hrecords : auth.recordsOf ips ≠ [] := fun hnil => hips (List.map_eq_nil_iff.1 hnil)
    rw [hrun]
    simp only
    rw [ZoneAuthority.alone_addRecords, ZoneAuthority.alone_readRecords_write name (claimCell name)
      htakes _ (DomainName.fqdn_ne_managedDomains name.zone).symm, hrun]
    simp only
    rw [if_pos (RecordSet.addAll_empty hrecords)]
    have htakes' : (s.write (claimCell name) (some (Bytes.ofText user))).Takes (recordCell name) :=
      (takes_write_iff (claimCell name) htakes _ (c := recordCell name)
        (DomainName.fqdn_ne_managedDomains name.zone)).2 (h.takesFields_fqdn name.zone)
    refine h.change_label hi howner
      (.inr ⟨_, hset.addAll haddr, hset.isEmpty_addAll haddr (.inr hrecords), rfl⟩)
      (.inr ⟨user, hu, rfl⟩) (by simp) ?_
    intro cell
    rw [read_write (recordCell name) htakes', read_write (claimCell name) htakes]
  · rw [hlabel]
    simp only [if_neg hother]
    split
    · exact h.addRecords hi howner (fun _ => by rw [hsome]; exact Option.some_ne_none _) auth hips
    · exact h

/-- A release keeps the claim as long as there are records. -/
theorem withdraw (h : Coherent identity s) {owner : String} (hne : owner ≠ "")
    (howner : s.ownerOf name.zone = some owner) {selfManaged : Bool}
    (hself : selfManaged = true ↔ owner = identity) (auth : ZoneAuthority) (ips : List Ip) :
    Coherent identity (alone (auth.withdraw selfManaged name ips) s).2 := by
  obtain ⟨set, hset, hrun, hread⟩ := h.readRecords_cases name
  have hclaimed := h.claimed name
  rw [howner, Option.some.injEq] at hclaimed
  have htakes : s.Takes (recordCell name) := h.takesFields_fqdn name.zone
  rw [ZoneAuthority.alone_withdraw auth (fun _ => h.takesFields_claims), hrun]
  simp only
  split
  · have htakes' : (s.write (recordCell name) none).Takes (claimCell name) :=
      (takes_write_iff (recordCell name) htakes none (c := claimCell name)
        (DomainName.fqdn_ne_managedDomains name.zone).symm).2 h.takesFields_claims
    -- the last record is gone, and with it the claim if there was one
    refine h.change_label hne howner (.inl rfl) (.inl rfl) (by simp) ?_
    intro cell
    cases selfManaged with
    | true =>
      simp only [if_true]
      rw [read_write (claimCell name) htakes', read_write (recordCell name) htakes]
      grind [recordCell_ne_claimCell]
    | false =>
      -- the zone is not the gateway's, so there was no claim
      have hnone : s.read (claimCell name) = none := by
        apply Classical.byContradiction
        intro hread
        exact absurd (hself.2 (hclaimed.1 hread).1) (by decide)
      simp only [Bool.false_eq_true, if_false]
      rw [read_write (recordCell name) htakes]
      split
      · rfl
      split
      · next heq => rw [heq, hnone]
      · rfl
  · next hempty =>
    split
    · have hrecord : s.read (recordCell name) ≠ none := by
        rcases hread with ⟨-, heq⟩ | ⟨hread, -⟩
        · rw [heq, RecordSet.removeAll_empty] at hempty
          exact absurd rfl hempty
        · rw [hread]
          exact Option.some_ne_none _
      refine h.change_label hne howner
        (.inr ⟨_, hset.removeAll _, Bool.eq_false_iff.2 hempty, rfl⟩) (h.claim_cases name) ?_ ?_
      · exact ⟨fun hc => ⟨(hclaimed.1 hc).1, Option.some_ne_none _⟩,
          fun ho => hclaimed.2 ⟨ho.1, hrecord⟩⟩
      · intro cell
        rw [read_write (recordCell name) htakes]
        split
        · rfl
        split
        · next heq => rw [heq]
        · rfl
    · exact h

theorem claim (h : Coherent identity s) (auth : ZoneAuthority) (hauth : auth.identity = identity)
    (hu : user ≠ "") (hd : DomainName.parse domain = .ok name) (ips : List Ip) :
    Coherent identity (alone (auth.claim user domain ips) s).2 := by
  by_cases hips : ips = []
  · unfold ZoneAuthority.claim
    rw [ZoneAuthority.alone_checked, if_neg hu, DomainName.require_eq_ok.2 hd]
    simp only [hips, if_true]
    exact h
  rw [ZoneAuthority.alone_claim auth hu hd hips]
  rcases alone_readOwner_cases name.zone s with ⟨owner, -, howner, hrun⟩ | ⟨e, hrun⟩
  · rw [hrun]
    simp only
    split
    · exact h
    next hne =>
      split
      · next hi =>
        rw [hauth] at hi
        subst hi
        exact h.claimSelfManaged hne howner auth hu hips
      next hi =>
        split
        · exact h.addRecords hne howner (fun heq => absurd (heq.trans hauth.symm) hi) auth hips
        · exact h
  · rw [hrun]
    exact h

theorem release (h : Coherent identity s) (auth : ZoneAuthority) (hauth : auth.identity = identity)
    (hu : user ≠ "") (hd : DomainName.parse domain = .ok name) (ips : List Ip) :
    Coherent identity (alone (auth.release user domain ips) s).2 := by
  rw [ZoneAuthority.alone_release auth hu hd]
  rcases alone_readOwner_cases name.zone s with ⟨owner, -, howner, hrun⟩ | ⟨e, hrun⟩
  · rw [hrun]
    simp only
    split
    · exact h
    next hne =>
      split
      · next hi =>
        have hself : Coherent identity (alone (auth.withdraw true name ips) s).2 :=
          h.withdraw hne howner ⟨fun _ => hi.trans hauth, fun _ => rfl⟩ auth ips
        rw [alone_claimant name h.takesFields_claims]
        rcases h.labelClaimant_cases name with ⟨-, hlabel⟩ | ⟨other, hother, -, hlabel⟩
        · rw [hlabel]
          exact hself
        · rw [hlabel]
          simp only [if_neg hother]
          split
          · exact hself
          · exact h
      next hi =>
        split
        · refine h.withdraw hne howner ⟨fun hf => absurd hf (by decide), fun heq => ?_⟩ auth ips
          exact absurd (heq.trans hauth.symm) hi
        · exact h
  · rw [hrun]
    exact h

/-! ## Runs -/

/-- **One call** of the gateway keeps its store coherent. -/
theorem call (h : Coherent identity s) (call : ZoneCall) :
    Coherent identity (alone (call.operation identity) s).2 := by
  by_cases hvalid : call.user = "" ∨ ∀ name, DomainName.parse call.domain ≠ .ok name
  · rw [ZoneCall.alone_operation_of_invalid hvalid]
    exact h
  rw [not_or] at hvalid
  obtain ⟨hu, hparse⟩ := hvalid
  obtain ⟨name, hd⟩ := Classical.not_forall.1 hparse
  replace hd := Classical.not_not.1 hd
  cases call with
  | delegate user domain =>
    change user ≠ "" at hu
    change DomainName.parse domain = .ok name at hd
    change Coherent identity (alone (ZoneAuthority.delegate user domain) s).2
    rw [ZoneAuthority.alone_delegate hu hd]
    exact h.delegateRounds hu 2
  | revoke user domain =>
    change user ≠ "" at hu
    change DomainName.parse domain = .ok name at hd
    change Coherent identity (alone (ZoneAuthority.revoke user domain) s).2
    rw [ZoneAuthority.alone_revoke hu hd]
    exact h.revokeRounds 2
  | claim recordTtl user domain ips => exact h.claim ⟨identity, recordTtl⟩ rfl hu hd ips
  | release recordTtl user domain ips => exact h.release ⟨identity, recordTtl⟩ rfl hu hd ips

end Coherent

/-- The store after calls that run one after another. -/
def runCalls (identity : String) (calls : List ZoneCall) (s : MemoryStore) : MemoryStore :=
  calls.foldl (fun s call => (alone (call.operation identity) s).2) s

/-- **Coherence of runs.** Whatever calls run one after another on the empty store, its three tables
agree. -/
theorem coherent_run (identity : String) (calls : List ZoneCall) :
    Coherent identity (runCalls identity calls .empty) := by
  have hrun : ∀ s, Coherent identity s → Coherent identity (runCalls identity calls s) := by
    induction calls with
    | nil => exact fun s h => h
    | cons call calls ih => exact fun s h => ih _ (h.call call)
  exact hrun _ (coherent_empty identity)

end GatewayControl
