import GatewayControl.Proofs.Authority.Atomicity
import GatewayControl.Proofs.Authority.History

/-!
# `GatewayControl.Proofs.Authority.OwnerRecords` -- who owns a zone, after any calls

Of a store that only calls have written, nothing need be known but its owner records to tell whether a claim
finds the zone of its name (`claim_notFound_iff`). All owner records can be read there
(`ownersReadable_history`), as a call either leaves the record of a zone alone (`DomainCall.read_ownerKey`)
or is a delegation or a revocation of it, which leaves a record that can be read.
-/

namespace GatewayControl

open Operation MemoryStore ZoneAuthority

variable {s t : MemoryStore} {zone name : DomainName} {user domain owner : String}

/-- The owner record of a zone can be read and names this owner; the empty one if nobody owns the zone. -/
structure MemoryStore.OwnedBy (zone : DomainName) (owner : String) (s : MemoryStore) : Prop where
  takesValue : s.TakesValue zone.zoneKey
  ownerOf : s.ownerOf zone = some owner

/-- All owner records can be read. -/
def MemoryStore.OwnersReadable (s : MemoryStore) : Prop := ∀ zone, ∃ owner, s.OwnedBy zone owner

namespace MemoryStore.OwnedBy

theorem readOwner (h : s.OwnedBy zone owner) :
    alone (ZoneAuthority.readOwner zone) s = (.ok (s.read (.value zone.zoneKey), owner), s) := by
  rw [alone_readOwner h.takesValue, h.ownerOf]

/-- An owner record that was left alone names the same owner. -/
theorem congr (h : s.OwnedBy zone owner)
    (hread : ∀ cell : Cell, cell.key = zone.zoneKey → t.read cell = s.read cell) : t.OwnedBy zone owner where
  takesValue := fun field => (hread (.field zone.zoneKey field) rfl).trans (h.takesValue field)
  ownerOf := (ownerOf_congr (hread _ rfl)).trans h.ownerOf

theorem owner_eq {other : String} (h : s.OwnedBy zone owner) (h' : s.OwnedBy zone other) : owner = other :=
  Option.some.inj (h.ownerOf.symm.trans h'.ownerOf)

end MemoryStore.OwnedBy

theorem MemoryStore.OwnersReadable.ownedBy_iff (h : s.OwnersReadable) :
    s.OwnedBy zone owner ↔ s.ownerOf zone = some owner := by
  refine ⟨OwnedBy.ownerOf, fun howner => ?_⟩
  obtain ⟨other, hother⟩ := h zone
  exact ⟨hother.takesValue, howner⟩

/-! ## Delegations and revocations -/

namespace ZoneAuthority

/-- The record that is written before a zone is cleared is there afterwards. -/
theorem ownedBy_clearZone_write (h : s.TakesValue zone.zoneKey) {content : Option Bytes}
    (howner : ownerIn content = some owner) :
    (alone (clearZone zone) (s.write (.value zone.zoneKey) content)).2.OwnedBy zone owner := by
  have htakes : s.Takes (.value zone.zoneKey) := h
  have hread : ∀ cell : Cell, cell.key = zone.zoneKey →
      (alone (clearZone zone) (s.write (.value zone.zoneKey) content)).2.read cell =
        if cell = .value zone.zoneKey then content else s.read cell := by
    intro cell hcell
    rw [read_clearZone fun hin => Footprint.not_looksAtZone_of_inZone hin (.inl hcell), read_write _ htakes]
  refine ⟨fun field => ?_, ?_⟩
  · rw [hread (.field zone.zoneKey field) rfl, if_neg Cell.noConfusion]
    exact h field
  · unfold MemoryStore.ownerOf
    rw [hread (.value zone.zoneKey) rfl, if_pos rfl]
    exact howner

/-- **A delegation** gives the zone to the user if nobody owns it. -/
theorem ownedBy_delegate (hu : user ≠ "") (hd : DomainName.parse domain = .ok zone)
    (h : s.OwnedBy zone owner) :
    (alone (delegate user domain) s).2.OwnedBy zone (if owner = "" then user else owner) := by
  rw [alone_delegate hu hd]
  unfold claimAttempts
  rw [alone_delegateRounds, h.readOwner]
  dsimp only
  by_cases howner : owner = user
  · rw [if_pos howner, if_neg (howner ▸ hu)]
    exact h
  rw [if_neg howner]
  by_cases hfree : owner = ""
  · rw [if_neg (not_not.2 hfree), if_pos hfree]
    exact ownedBy_clearZone_write h.takesValue (decodeOwner?_encodeOwner user)
  · rw [if_pos hfree, if_neg hfree]
    exact h

/-- **A revocation** leaves a record that can be read, or none. -/
theorem ownedBy_revoke (hu : user ≠ "") (hd : DomainName.parse domain = .ok zone)
    (h : s.OwnedBy zone owner) : ∃ left, (alone (revoke user domain) s).2.OwnedBy zone left := by
  rw [alone_revoke hu hd]
  unfold claimAttempts
  rw [alone_revokeRounds, h.readOwner]
  dsimp only
  split
  · exact ⟨owner, h⟩
  split
  · exact ⟨owner, h⟩
  · exact ⟨"", ownedBy_clearZone_write h.takesValue rfl⟩

end ZoneAuthority

/-! ## All calls -/

namespace DomainCall

/-- The owner record of a zone is left alone by calls about names and routes, and by those about other zones. -/
theorem read_ownerKey (identity : String) {call : DomainCall}
    (hother : call.OnName ∨ ∀ name, DomainName.parse call.domain = .ok name → name ≠ zone) (s : MemoryStore)
    {cell : Cell} (hcell : cell.key = zone.zoneKey) :
    (alone (call.operation identity) s).2.read cell = s.read cell := by
  rcases call.within_operation identity with ⟨e, he⟩ | ⟨name, hd, hwithin⟩
  · rw [he]
    rfl
  refine hwithin.frame s cell fun hchanges => ?_
  cases call with
  | ofRoute call =>
    rw [show cell = .value name.routingKey from hchanges] at hcell
    exact DomainName.zoneKey_ne_routingKey zone name hcell.symm
  | ofZone call =>
    change (call.footprintAt name).changes cell at hchanges
    rcases call.footprintAt_cases name with ⟨-, -, hf⟩ | ⟨hzone, -, hf⟩ <;> rw [hf] at hchanges
    · exact Footprint.not_looksAtZone_of_inZone (Footprint.inZone_of_label_changes hchanges) (.inl hcell)
    rcases hchanges with rfl | hin
    · exact hother.elim hzone fun hne => hne name hd (DomainName.zoneKey_inj.1 hcell)
    · exact Footprint.not_looksAtZone_of_inZone hin (.inl hcell)

/-- **Owner records stay readable.** -/
theorem ownersReadable_operation (identity : String) (call : DomainCall) (h : s.OwnersReadable) :
    (alone (call.operation identity) s).2.OwnersReadable := by
  intro zone
  obtain ⟨owner, howner⟩ := h zone
  by_cases hother : call.OnName ∨ ∀ name, DomainName.parse call.domain = .ok name → name ≠ zone
  · exact ⟨owner, howner.congr fun cell hcell => read_ownerKey identity hother s hcell⟩
  obtain ⟨hzone, hnames⟩ := not_or.1 hother
  obtain ⟨name, hd, hname⟩ := not_forall₂.1 hnames
  obtain rfl := not_not.1 hname
  cases call with
  | ofRoute call => exact absurd trivial hzone
  | ofZone call =>
    by_cases hu : call.user = ""
    · refine ⟨owner, ?_⟩
      rw [show (alone (operation identity (ofZone call)) s).2 = s from
        ZoneCall.alone_operation_of_invalid (.inl hu) s]
      exact howner
    cases call with
    | claim recordTtl user domain ips | release recordTtl user domain ips => exact absurd trivial hzone
    | delegate user domain => exact ⟨_, ownedBy_delegate hu hd howner⟩
    | revoke user domain => exact ownedBy_revoke hu hd howner

/-- A call about a name or a route makes no difference to who owns a zone. -/
theorem ownedBy_operation_iff (identity : String) {call : DomainCall}
    (hother : call.OnName ∨ ∀ name, DomainName.parse call.domain = .ok name → name ≠ zone) :
    (alone (call.operation identity) s).2.OwnedBy zone owner ↔ s.OwnedBy zone owner := by
  have hkeeps := fun (cell : Cell) (hcell : cell.key = zone.zoneKey) =>
    call.read_ownerKey identity hother s hcell
  exact ⟨fun h => h.congr fun cell hcell => (hkeeps cell hcell).symm, fun h => h.congr hkeeps⟩

end DomainCall

/-- A delegation leaves a zone unowned if it was, and the delegation is not of the zone to somebody. -/
theorem ownedBy_empty_delegate_iff (h : s.OwnersReadable) :
    (alone (delegate user domain) s).2.OwnedBy zone "" ↔
      s.OwnedBy zone "" ∧ ¬ (user ≠ "" ∧ DomainName.parse domain = .ok zone) := by
  let call : ZoneCall := .delegate user domain
  by_cases hu : user = ""
  · -- the identity is that of no gateway, as no delegation depends on it
    have hinvalid : (alone (call.operation "") s).2 = s := call.alone_operation_of_invalid (.inl hu) s
    change (alone (call.operation "") s).2.OwnedBy zone "" ↔ _
    rw [hinvalid]
    exact (and_iff_left fun hasked => hasked.1 hu).symm
  by_cases hd : DomainName.parse domain = .ok zone
  · obtain ⟨owner, howner⟩ := h zone
    refine iff_of_false (fun hfree => ?_) fun hfree => hfree.2 ⟨hu, hd⟩
    have heq := hfree.owner_eq (ownedBy_delegate hu hd howner)
    split at heq
    · exact hu heq.symm
    · next hne => exact hne heq.symm
  · have hothers : ∀ name, DomainName.parse domain = .ok name → name ≠ zone := by
      rintro name hname rfl
      exact hd hname
    refine (@DomainCall.ownedBy_operation_iff s zone "" "" (.ofZone call) (.inr hothers)).trans ?_
    exact (and_iff_left fun hasked => hd hasked.2).symm

/-- Whatever complete calls ran on the empty store, all owner records can be read. -/
theorem ownersReadable_history (identity : String) (history : List DomainCall) :
    (historyStore identity history).OwnersReadable := by
  have hrun : ∀ s : MemoryStore, s.OwnersReadable →
      (history.foldl (fun s call => (alone (call.operation identity) s).2) s).OwnersReadable := by
    induction history with
    | nil => exact fun s h => h
    | cons call rest ih => exact fun s h => ih _ (call.ownersReadable_operation identity h)
  exact hrun .empty fun zone => ⟨"", fun field => read_empty _, congrArg ownerIn (read_empty _)⟩

/-! ## Claims that find no zone -/

namespace ZoneAuthority

variable {auth : ZoneAuthority} {ips : List Ip} {e : GatewayError}

/-- Records that cannot be read are a fault of the store. -/
theorem kind_ne_notFound_of_readRecords (h : alone (readRecords name.zone name.label) s = (.error e, t)) :
    e.kind ≠ .notFound := by
  by_cases ht : s.TakesFields name.zone.fqdn
  · rw [alone_readRecords ht] at h
    split at h <;> cases h
    exact ErrorKind.noConfusion
  · have hrefused : s.Refuses (.hget name.zone.fqdn name.label) := ht
    rw [show alone (readRecords name.zone name.label) s = (.error (refusal name.zone.fqdn), s) from
      alone_bind_error (alone_call_refused hrefused)] at h
    cases h
    exact ErrorKind.noConfusion

theorem kind_ne_notFound_of_claimant (h : alone (claimant name) s = (.error e, t)) : e.kind ≠ .notFound := by
  by_cases ht : s.TakesFields managedDomains
  · rw [alone_claimant name ht] at h
    split at h <;> cases h
    exact ErrorKind.noConfusion
  · have hrefused : s.Refuses (.hget managedDomains name.text) := ht
    rw [show alone (claimant name) s = (.error (refusal managedDomains), s) from
      alone_bind_error (alone_call_refused hrefused)] at h
    cases h
    exact ErrorKind.noConfusion

theorem kind_ne_notFound_of_addRecords (h : alone (auth.addRecords name ips) s = (.error e, t)) :
    e.kind ≠ .notFound := by
  rcases alone_attempt_addRecords auth name ips s with ⟨u, hadd⟩ | ⟨e', hreads, hadd⟩ <;> rw [hadd] at h
  · cases h
  · cases h
    exact kind_ne_notFound_of_readRecords hreads

theorem kind_ne_notFound_of_claimSelfManaged
    (h : alone (auth.claimSelfManaged user name ips) s = (.error e, t)) : e.kind ≠ .notFound := by
  rw [alone_claimSelfManaged] at h
  rcases hclaim : alone (claimant name) s with ⟨e' | (_ | other), u⟩ <;> rw [hclaim] at h
  · cases h
    exact kind_ne_notFound_of_claimant hclaim
  · dsimp only at h
    split at h
    · rcases hreads : alone (readRecords name.zone name.label) u with ⟨e' | set, v⟩ <;> rw [hreads] at h
      · cases h
        exact kind_ne_notFound_of_readRecords hreads
      · exact kind_ne_notFound_of_addRecords h
    · cases h
      exact ErrorKind.noConfusion
  · dsimp only at h
    split at h
    · exact kind_ne_notFound_of_addRecords h
    · cases h
      exact ErrorKind.noConfusion

/-- **A claim finds nothing** exactly if nobody owns the zone of its name. -/
theorem claim_notFound_iff (auth : ZoneAuthority) (hu : user ≠ "")
    (hd : DomainName.parse domain = .ok name) (hips : ips ≠ []) (h : s.OwnedBy name.zone owner) :
    (∃ e, (alone (auth.claim user domain ips) s).1 = .error e ∧ e.kind = .notFound) ↔ owner = "" := by
  rw [alone_claim auth hu hd hips, h.readOwner]
  dsimp only
  by_cases hfree : owner = ""
  · rw [if_pos hfree]
    exact iff_of_true ⟨_, rfl, rfl⟩ hfree
  rw [if_neg hfree]
  refine iff_of_false ?_ hfree
  rintro ⟨e, he, hkind⟩
  split at he
  · exact kind_ne_notFound_of_claimSelfManaged (Prod.ext he rfl) hkind
  split at he
  · exact kind_ne_notFound_of_addRecords (Prod.ext he rfl) hkind
  · cases he
    cases hkind

end ZoneAuthority
end GatewayControl
