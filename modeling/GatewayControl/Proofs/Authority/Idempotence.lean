import GatewayControl.Proofs.Authority.Atomicity
import GatewayControl.Proofs.Authority.Independence
import GatewayControl.Proofs.Dns.AddressSet
import GatewayControl.Proofs.Dns.StoredForm
import GatewayControl.Proofs.Operation.Idempotence

/-!
# `GatewayControl.Proofs.Authority.Idempotence` -- calls that need to be made once

Every call on a zone, a label or a route is idempotent, whatever the store holds
(`DomainCall.idempotent_operation`). The second run rarely takes the way of the first. A delegation finds its
user to be the owner, and a revocation finds no record; a claim finds its own claim; a release of the last
record finds neither records nor a claim. A registration writes its entry over itself.

Addresses are added and withdrawn by their data, so what comes second finds nothing to do
(`RecordSet.addAll_reread`, `RecordSet.removeAll_reread`). What was written is read before that, and reading
may round the numbers in records of other types; nothing that is written depends on it, as nothing is written.
-/

namespace GatewayControl

open Operation MemoryStore

variable {s t : MemoryStore} {zone name : DomainName} {user domain : String} {ips : List Ip}

/-! ## Sets that were written and are read -/

namespace RecordSet

variable {set : RecordSet} {records : List Record}

theorem foreign_addAll (set : RecordSet) (records : List Record) :
    (set.addAll records).2.foreign = set.foreign := by
  induction records generalizing set with
  | nil => rfl
  | cons r rest ih => exact (ih _).trans (foreign_insert set r)

theorem foreign_removeAll (set : RecordSet) (records : List Record) :
    (set.removeAll records).2.foreign = set.foreign := by
  induction records generalizing set with
  | nil => rfl
  | cons r rest ih => exact (ih _).trans (foreign_erase set r)

theorem find?_reread (set : RecordSet) (r : Record) : set.reread.find? r = set.find? r := by
  cases r <;> rfl

theorem contains_reread (set : RecordSet) (r : Record) : set.reread.contains r = set.contains r := by
  cases r <;> rfl

/-- **Records that were added** and stored are not added again. -/
theorem addAll_reread (set : RecordSet)
    (hsame : ∀ r ∈ records, ∀ s ∈ records, s.sameData r = true → s = r) :
    (set.addAll records).2.reread.addAll records = (false, (set.addAll records).2.reread) := by
  refine addAll_of_find? fun r hr => ?_
  rw [find?_reread]
  exact find?_addAll (hsame r hr) (.inl hr)

/-- **Records that were removed** from what is stored are not removed again. -/
theorem removeAll_reread (set : RecordSet) (records : List Record) :
    (set.removeAll records).2.reread.removeAll records = (false, (set.removeAll records).2.reread) := by
  refine removeAll_of_not_contains fun r hr => Bool.eq_false_iff.2 fun hcontains => ?_
  rw [contains_reread] at hcontains
  exact (not_mem_of_contains_removeAll hcontains).2 hr

end RecordSet

theorem MemoryStore.kept_of_labelRecords {set : RecordSet} (h : s.labelRecords name = some set) :
    RecordSet.Kept set.foreign := by
  unfold labelRecords at h
  split at h
  · cases h
    exact RecordSet.kept_nil
  · exact RecordSet.kept_of_decode? h

namespace ZoneAuthority

variable {auth : ZoneAuthority}

/-- Records that were written are read as they come back. -/
theorem alone_readRecords_written {set : RecordSet} (ht : s.TakesFields name.zone.fqdn)
    (hset : RecordSet.Kept set.foreign) :
    alone (readRecords name.zone name.label) (s.write (recordCell name) (some set.encode)) =
      (.ok set.reread, s.write (recordCell name) (some set.encode)) := by
  have htakes : s.Takes (recordCell name) := ht
  rw [alone_readRecords (takes_write (recordCell name) htakes _)]
  unfold labelRecords
  rw [read_write _ htakes, if_pos rfl]
  simp only [RecordSet.decode?_encode_eq_reread hset]

/-- Records that were removed are read as none. -/
theorem alone_readRecords_removed (ht : s.TakesFields name.zone.fqdn)
    (hread : s.read (recordCell name) = none) :
    alone (readRecords name.zone name.label) s = (.ok .empty, s) := by
  rw [alone_readRecords ht]
  unfold labelRecords
  rw [hread]

/-! ## Looks -/

theorem alone_claimant_congr
    (h : ∀ cell, cell ≠ recordCell name → t.read cell = s.read cell) :
    alone (claimant name) t = ((alone (claimant name) s).1, t) := by
  let f : Footprint := ⟨fun cell => cell = .value managedDomains ∨ cell = claimCell name, fun _ => False⟩
  have hwithin : Within f (claimant name) := within_claimant fun cell => .inl
  refine (looksOnly_claimant reversible name).alone_congr hwithin fun cell hcell => (h cell ?_).symm
  rcases hcell with (rfl | rfl) | hnever
  · exact Cell.noConfusion
  · exact (recordCell_ne_claimCell name name).symm
  · exact absurd hnever id

/-- A request about a label sees the same owner again, as it does not write the record. -/
theorem idempotent_control_bind {next : Control → Operation Unit}
    (hwithin : Within (.ofLabel name) (auth.control name.zone >>= next))
    (hnext : ∀ control, Idempotent (next control)) : Idempotent (auth.control name.zone >>= next) := by
  let f : Footprint := ⟨fun cell => cell.key = name.zone.zoneKey, fun _ => False⟩
  have hlook : Within f (auth.control name.zone) := within_control auth fun cell => .inl
  refine idempotent_bind (looksOnly_control reversible auth name.zone) hlook hwithin
    (fun cell hcell => ?_) hnext
  rintro (hkey | hnever)
  · rcases hcell with rfl | rfl
    · exact DomainName.fqdn_ne_zoneKey name.zone name.zone hkey
    · exact (DomainName.zoneKey_ne_managedDomains name.zone).symm hkey
  · exact hnever

/-! ## Claims -/

theorem read_addRecords (auth : ZoneAuthority) (name : DomainName) (ips : List Ip) (s : MemoryStore)
    {cell : Cell} (hcell : cell ≠ recordCell name) :
    (alone (auth.addRecords name ips) s).2.read cell = s.read cell := by
  rw [alone_addRecords]
  rcases alone_readRecords_cases name s with ⟨set, ht, -, hset⟩ | ⟨e, hset⟩ <;> rw [hset]
  dsimp only
  split
  · have htakes : s.Takes (recordCell name) := ht
    exact (read_write _ htakes _ cell).trans (if_neg hcell)
  · rfl

/-- Addresses that are there are not written again. -/
theorem idempotent_addRecords (auth : ZoneAuthority) (name : DomainName) (ips : List Ip) :
    Idempotent (auth.addRecords name ips) := by
  intro s a t hrun
  have hfirst := hrun
  rw [alone_addRecords] at hfirst
  rcases alone_readRecords_cases name s with ⟨set, ht, hlabel, hset⟩ | ⟨e, hset⟩ <;> rw [hset] at hfirst
  · dsimp only at hfirst
    split at hfirst
    · cases hfirst
      have hkept : RecordSet.Kept (set.addAll (auth.recordsOf ips)).2.foreign := by
        rw [RecordSet.foreign_addAll]
        exact kept_of_labelRecords hlabel
      have hsame : ∀ r ∈ auth.recordsOf ips, ∀ s ∈ auth.recordsOf ips, s.sameData r = true → s = r :=
        fun r hr s hs => eq_of_sameData_recordsOf hr hs
      rw [alone_addRecords, alone_readRecords_written ht hkept]
      simp only [RecordSet.addAll_reread set hsame, Bool.false_eq_true, if_false]
    · cases hfirst
      exact hrun
  · cases hfirst

/-- A label that the user has claimed is the user's. -/
theorem alone_claimant_claimed (hu : user ≠ "") (ht : s.TakesFields managedDomains) :
    alone (claimant name) (s.write (claimCell name) (some (Bytes.ofText user))) =
      (.ok (some user), s.write (claimCell name) (some (Bytes.ofText user))) := by
  have htakes : s.Takes (claimCell name) := ht
  rw [alone_claimant name (takes_write (claimCell name) htakes _), labelClaimant_write ht]
  simp only [if_neg hu]

theorem idempotent_claimSelfManaged (auth : ZoneAuthority) (hu : user ≠ "") (name : DomainName)
    (ips : List Ip) : Idempotent (auth.claimSelfManaged user name ips) := by
  rintro s ⟨⟩ t hrun
  -- whoever was the claimant before, the records are added to a label of the user
  have hclaimed : ∀ u, alone (claimant name) u = (.ok (some user), u) →
      alone (auth.addRecords name ips) u = (.ok (), t) →
      alone (auth.claimSelfManaged user name ips) t = (.ok (), t) := by
    intro u hfound hadd
    have hframe : ∀ cell, cell ≠ recordCell name → t.read cell = u.read cell := by
      intro cell hcell
      have hread := read_addRecords auth name ips u hcell
      rwa [hadd] at hread
    rw [alone_claimSelfManaged, alone_claimant_congr hframe, hfound]
    simp only [if_true]
    exact idempotent_addRecords auth name ips u () t hadd
  rw [alone_claimSelfManaged] at hrun
  rcases alone_claimant_cases name s with ⟨other, ht, -, hfound⟩ | ⟨e, hfound⟩
  · by_cases hother : other = ""
    · rw [if_pos hother] at hfound
      rw [hfound] at hrun
      dsimp only at hrun
      split at hrun
      · rcases alone_readRecords_cases name s with ⟨set, -, -, hset⟩ | ⟨e, hset⟩ <;> rw [hset] at hrun
        · exact hclaimed _ (alone_claimant_claimed hu ht) hrun
        · cases hrun
      · cases hrun
    · rw [if_neg hother] at hfound
      rw [hfound] at hrun
      dsimp only at hrun
      split at hrun
      · next hmine => exact hclaimed s (hmine ▸ hfound) hrun
      · cases hrun
  · rw [hfound] at hrun
    cases hrun

theorem idempotent_claim (auth : ZoneAuthority) (hu : user ≠ "") (hd : DomainName.parse domain = .ok name)
    (hwithin : Within (.ofLabel name) (auth.claim user domain ips)) :
    Idempotent (auth.claim user domain ips) := by
  unfold claim at hwithin ⊢
  rw [checked_eq hu hd] at hwithin ⊢
  split at hwithin
  · next hips =>
    rw [if_pos hips]
    exact idempotent_throw _
  next hips =>
  rw [if_neg hips]
  refine idempotent_control_bind hwithin fun control => ?_
  cases control with
  | unclaimed => exact idempotent_throw _
  | selfManaged => exact idempotent_claimSelfManaged auth hu name ips
  | delegated owner =>
    dsimp only
    split
    · exact idempotent_addRecords auth name ips
    · exact idempotent_throw _

/-! ## Releases -/

/-- What a withdrawal of the last record leaves. -/
theorem read_withdrawn (name : DomainName) {selfManaged : Bool} (ht : s.TakesFields name.zone.fqdn)
    (hm : selfManaged = true → s.TakesFields managedDomains) (cell : Cell) :
    (if selfManaged = true then (s.write (recordCell name) none).write (claimCell name) none
      else s.write (recordCell name) none).read cell =
      if cell = recordCell name ∨ selfManaged = true ∧ cell = claimCell name then none
      else s.read cell := by
  have htakes : s.Takes (recordCell name) := ht
  cases selfManaged with
  | false => simp only [Bool.false_eq_true, if_false, false_and, or_false, read_write _ htakes]
  | true =>
    have hclaims : (s.write (recordCell name) none).Takes (claimCell name) := by
      have hread := read_write (recordCell name) htakes none (.value managedDomains)
      rw [if_neg Cell.noConfusion] at hread
      exact hread.trans (hm rfl)
    simp only [if_true, true_and, read_write _ hclaims, read_write _ htakes]
    by_cases hcell : cell = claimCell name
    · rw [if_pos hcell, if_pos (.inr hcell)]
    · simp only [hcell, if_false, or_false]

/-- Where there is nothing left, nothing is removed. -/
theorem alone_withdraw_removed {selfManaged : Bool} (hm : selfManaged = true → s.TakesFields managedDomains)
    (ht : s.TakesFields name.zone.fqdn) (hrecords : s.read (recordCell name) = none)
    (hclaim : selfManaged = true → s.read (claimCell name) = none) :
    alone (auth.withdraw selfManaged name ips) s = (.ok (), s) := by
  have hempty : (RecordSet.empty.removeAll (auth.recordsOf ips)).2.isEmpty = true := by
    rw [RecordSet.removeAll_empty]
    rfl
  rw [alone_withdraw auth hm, alone_readRecords_removed ht hrecords]
  simp only [hempty, if_true]
  rw [write_eq_self (recordCell name) ht hrecords]
  cases selfManaged with
  | false => rfl
  | true => rw [if_pos rfl, write_eq_self (claimCell name) (hm rfl) (hclaim rfl)]

/-- **A withdrawal** has nothing left to withdraw, and leaves the claim alone or removes it. -/
theorem alone_withdraw_again {selfManaged : Bool} (hm : selfManaged = true → s.TakesFields managedDomains)
    (hrun : alone (auth.withdraw selfManaged name ips) s = (.ok (), t)) :
    alone (auth.withdraw selfManaged name ips) t = (.ok (), t) ∧
      (t.read (claimCell name) = s.read (claimCell name) ∨ t.read (claimCell name) = none) ∧
      ∀ key, t.read (.value key) = s.read (.value key) := by
  have hfirst := hrun
  rw [alone_withdraw auth hm] at hfirst
  rcases alone_readRecords_cases name s with ⟨set, ht, hlabel, hset⟩ | ⟨e, hset⟩ <;> rw [hset] at hfirst
  · dsimp only at hfirst
    split at hfirst
    · obtain rfl := (Prod.mk.inj hfirst).2
      have hread := read_withdrawn name ht hm
      have hvalue := fun key => (hread (.value key)).trans
        (if_neg fun hcell => hcell.elim Cell.noConfusion fun hcell => Cell.noConfusion hcell.2)
      refine ⟨alone_withdraw_removed (fun hself => (hvalue _).trans (hm hself)) ((hvalue _).trans ht) ?_ ?_,
        ?_, hvalue⟩
      · rw [hread, if_pos (.inl rfl)]
      · intro hself
        rw [hread, if_pos (.inr ⟨hself, rfl⟩)]
      · rw [hread]
        split
        · exact .inr rfl
        · exact .inl rfl
    next hleft =>
    split at hfirst
    · obtain rfl := (Prod.mk.inj hfirst).2
      have htakes : s.Takes (recordCell name) := ht
      have hread := read_write (recordCell name) htakes
        (some (set.removeAll (auth.recordsOf ips)).2.encode)
      have hvalue := fun key => (hread (.value key)).trans (if_neg Cell.noConfusion)
      have hkept : RecordSet.Kept (set.removeAll (auth.recordsOf ips)).2.foreign := by
        rw [RecordSet.foreign_removeAll]
        exact kept_of_labelRecords hlabel
      refine ⟨?_, .inl ?_, hvalue⟩
      · rw [alone_withdraw auth fun hself => (hvalue _).trans (hm hself), alone_readRecords_written ht hkept]
        simp only [RecordSet.removeAll_reread, RecordSet.isEmpty_reread hkept, if_neg hleft,
          Bool.false_eq_true, if_false]
      · rw [hread, if_neg (recordCell_ne_claimCell name name).symm]
    · obtain rfl := (Prod.mk.inj hfirst).2
      exact ⟨hrun, .inl rfl, fun _ => rfl⟩
  · cases hfirst

/-- After the withdrawal the label is whose it was, or free. -/
theorem alone_claimant_again (ht : s.TakesFields managedDomains) {found : Option String}
    (hfound : alone (claimant name) s = (.ok found, s))
    (hclaim : t.read (claimCell name) = s.read (claimCell name) ∨ t.read (claimCell name) = none)
    (hvalue : ∀ key, t.read (.value key) = s.read (.value key)) :
    alone (claimant name) t = (.ok found, t) ∨ alone (claimant name) t = (.ok none, t) := by
  have ht' : t.TakesFields managedDomains := (hvalue managedDomains).trans ht
  rcases hclaim with hsame | hfreed
  · rw [alone_claimant name ht] at hfound
    rw [alone_claimant name ht', labelClaimant_congr hsame]
    exact .inl (Prod.ext (Prod.mk.inj hfound).1 rfl)
  · right
    rw [alone_claimant name ht']
    unfold labelClaimant
    rw [hfreed]
    rfl

/-- In a zone of the gateway the second run may find a label free that was the user's. -/
theorem idempotent_releaseSelfManaged (auth : ZoneAuthority) (user : String) (name : DomainName)
    (ips : List Ip) : Idempotent (claimant name >>= fun found =>
      match found with
      | none => auth.withdraw true name ips
      | some other =>
        if other = user then auth.withdraw true name ips else throw (releaseRefused name)) := by
  refine idempotent_look (looksOnly_claimant reversible name) fun s found b t hfound hrun => ?_
  have ht : s.TakesFields managedDomains := by
    rcases alone_claimant_cases name s with ⟨-, ht, -, -⟩ | ⟨e, hfails⟩
    · exact ht
    · rw [hfound] at hfails
      cases hfails
  obtain ⟨hmine, hwithdraw⟩ : (found = none ∨ found = some user) ∧
      alone (auth.withdraw true name ips) s = (.ok (), t) := by
    cases found with
    | none => exact ⟨.inl rfl, hrun⟩
    | some other =>
      dsimp only at hrun
      split at hrun
      · next hmine => exact ⟨.inr (hmine ▸ rfl), hrun⟩
      · cases hrun
  obtain ⟨hagain, hclaim, hvalue⟩ := alone_withdraw_again (fun _ => ht) hwithdraw
  rcases alone_claimant_again ht hfound hclaim hvalue with hsame | hfree
  · refine ⟨found, hsame, ?_⟩
    rcases hmine with rfl | rfl
    · exact hagain
    · simp only [if_true]
      exact hagain
  · exact ⟨none, hfree, hagain⟩

theorem idempotent_release (auth : ZoneAuthority) (hu : user ≠ "") (hd : DomainName.parse domain = .ok name)
    (hwithin : Within (.ofLabel name) (auth.release user domain ips)) :
    Idempotent (auth.release user domain ips) := by
  unfold release at hwithin ⊢
  rw [checked_eq hu hd] at hwithin ⊢
  refine idempotent_control_bind hwithin fun control => ?_
  cases control with
  | unclaimed => exact idempotent_pure ()
  | selfManaged => exact idempotent_releaseSelfManaged auth user name ips
  | delegated owner =>
    dsimp only
    split
    · exact fun s _ t hrun => (alone_withdraw_again (fun hself => absurd hself Bool.false_ne_true) hrun).1
    · exact idempotent_throw _

/-! ## Delegations and revocations -/

/-- Clearing a zone leaves its owner record alone. -/
theorem read_owner_of_clearZone (ht : s.TakesValue zone.zoneKey)
    (hrun : alone (clearZone zone) s = (.ok (), t)) :
    t.TakesValue zone.zoneKey ∧ t.read (.value zone.zoneKey) = s.read (.value zone.zoneKey) := by
  obtain ⟨-, hcleared⟩ := cleared_of_alone_ok hrun
  refine ⟨fun field => ?_, (hcleared _).trans (if_neg id)⟩
  rw [hcleared]
  split
  · rfl
  · exact ht field

end ZoneAuthority

/-! ## Calls -/

theorem ZoneCall.idempotent_of_changesOwner {call : ZoneCall} (identity : String)
    (h : call.ChangesOwner zone) : Idempotent (call.operation identity) := by
  rcases call.operation_of_changesOwner identity h with ⟨e, he, -⟩ | ⟨verdict, hop, hdecides⟩
  · rw [he]
    exact idempotent_throw e
  · rw [hop]
    refine idempotent_swapRounds (fun s t ht => ZoneAuthority.read_owner_of_clearZone ht) ?_ 2
    exact fun raw content hverdict => .inl (hdecides.settles raw content hverdict)

theorem ZoneCall.idempotent_operation (identity : String) (call : ZoneCall) :
    Idempotent (call.operation identity) := by
  rcases call.within_operation identity with ⟨e, he⟩ | ⟨name, hd, hwithin⟩
  · rw [he]
    exact idempotent_throw e
  by_cases hu : call.user = ""
  · obtain ⟨next, hnext⟩ := call.operation_eq identity
    rw [hnext]
    rcases ZoneAuthority.checked_cases call.user call.domain next with ⟨e, he, -⟩ | ⟨hne, -⟩
    · rw [he]
      exact idempotent_throw e
    · exact absurd hu hne
  cases call with
  | delegate user domain | revoke user domain => exact idempotent_of_changesOwner identity hd
  | claim recordTtl user domain ips => exact ZoneAuthority.idempotent_claim _ hu hd hwithin
  | release recordTtl user domain ips => exact ZoneAuthority.idempotent_release _ hu hd hwithin

theorem RouteCall.idempotent_operation (call : RouteCall) : Idempotent call.operation := by
  rcases call.operation_cases with ⟨e, he, -⟩ | ⟨name, verdict, -, hop, hdecides⟩
  · rw [he]
    exact idempotent_throw e
  · rw [hop]
    refine idempotent_swapRounds (fun s t ht hrun => ?_) (fun raw content hverdict => ?_) 2
    · cases hrun
      exact ⟨ht, rfl⟩
    · exact (hdecides.settles raw content hverdict).symm.imp id fun hagain => ⟨hagain, idempotent_pure ()⟩

/-- **Every call is idempotent**: made again where it has succeeded, it succeeds and leaves the store as it
is. -/
theorem DomainCall.idempotent_operation (identity : String) (call : DomainCall) :
    Idempotent (call.operation identity) := by
  cases call with
  | ofZone call => exact call.idempotent_operation identity
  | ofRoute call => exact call.idempotent_operation

end GatewayControl
