import GatewayControl.Authority.Route
import GatewayControl.Proofs.Authority.ZoneAlone

/-!
# `GatewayControl.Proofs.Authority.Frame` -- what a call is allowed to change

Authorisation as a frame condition on the store, whatever bytes it holds: a call that runs alone
changes a cell only if its user is entitled to it by the owner records, label claims and entries
that the store holds at the start. `MayChange` spells the entitlement out for each call, and
`authorisation_frame` is the theorem. Each operation contributes one lemma: a cell that it changes
is one that it writes, and its checks were passed.
-/

namespace GatewayControl

open Operation MemoryStore

variable {s : MemoryStore} {cell : Cell} {zone name : DomainName}

/-! ## Zones and labels -/

namespace ZoneAuthority

variable {user : String}

/-- Clearing a zone stays inside the zone, also where it fails half way. -/
theorem read_clearZone (hc : ¬ cell.InZone zone) (s : MemoryStore) :
    (alone (clearZone zone) s).2.read cell = s.read cell := by
  by_cases hz : s.TakesFields zone.fqdn
  · by_cases hm : s.TakesFields managedDomains
    · obtain ⟨t, hrun, hcleared⟩ := alone_clearZone hz hm
      rw [hrun, hcleared, if_neg hc]
    · rw [alone_clearZone_claims_refused hz hm]
      simp only [read_put_none]
      split
      · next hkey =>
        cases cell with
        | value key =>
          have hvalue : key = zone.fqdn := hkey
          rw [hvalue]
          exact hz.symm
        | field key text => exact absurd (Or.inl hkey) hc
      · rfl
  · rw [alone_clearZone_refused hz]

/-- A new owner record and the clearing change the record and the contents of the zone. -/
theorem cell_of_clear_ne {content : Option Bytes} (ht : s.TakesValue zone.zoneKey)
    (h : (alone (clearZone zone) (s.write (.value zone.zoneKey) content)).2.read cell ≠ s.read cell) :
    cell = .value zone.zoneKey ∨ cell.InZone zone := by
  apply Classical.byContradiction
  intro hcell
  rw [not_or] at hcell
  have htakes : s.Takes (.value zone.zoneKey) := ht
  rw [read_clearZone hcell.2, read_write (.value zone.zoneKey) htakes, if_neg hcell.1] at h
  exact h rfl

/-- A delegation that changes the store found the zone without an owner. -/
theorem delegateRounds_changed {rounds : Nat}
    (h : (alone (delegateRounds user zone (rounds + 1)) s).2.read cell ≠ s.read cell) :
    s.ownerOf zone = some "" ∧ (cell = .value zone.zoneKey ∨ cell.InZone zone) := by
  rw [alone_delegateRounds] at h
  rcases alone_readOwner_cases zone s with ⟨owner, ht, ho, hrun⟩ | ⟨e, hrun⟩
  · rw [hrun] at h
    simp only at h
    split at h
    · exact absurd rfl h
    split at h
    · exact absurd rfl h
    next hempty => exact ⟨by rw [ho, Classical.not_not.1 hempty], cell_of_clear_ne ht h⟩
  · rw [hrun] at h
    exact absurd rfl h

/-- A revocation that changes the store found the zone unowned or owned by its user. -/
theorem revokeRounds_changed {rounds : Nat}
    (h : (alone (revokeRounds user zone (rounds + 1)) s).2.read cell ≠ s.read cell) :
    (s.ownerOf zone = some "" ∨ s.ownerOf zone = some user) ∧
      (cell = .value zone.zoneKey ∨ cell.InZone zone) := by
  rw [alone_revokeRounds] at h
  rcases alone_readOwner_cases zone s with ⟨owner, ht, ho, hrun⟩ | ⟨e, hrun⟩
  · rw [hrun] at h
    simp only at h
    split at h
    · exact absurd rfl h
    split at h
    · exact absurd rfl h
    next howner =>
      constructor
      · rw [ho, Option.some.injEq, Option.some.injEq]
        by_cases hempty : owner = ""
        · exact .inl hempty
        · exact .inr (Classical.byContradiction fun hu => howner ⟨hempty, hu⟩)
      · exact cell_of_clear_ne ht h
  · rw [hrun] at h
    exact absurd rfl h

/-- Adding records changes the records of the name alone. -/
theorem addRecords_changed {auth : ZoneAuthority} {ips : List Ip}
    (h : (alone (auth.addRecords name ips) s).2.read cell ≠ s.read cell) : cell = recordCell name := by
  rw [alone_addRecords] at h
  rcases alone_readRecords_cases name s with ⟨set, ht, -, hrun⟩ | ⟨e, hrun⟩
  · rw [hrun] at h
    simp only at h
    split at h
    · have ht' : s.Takes (recordCell name) := ht
      exact eq_of_read_write_ne ht' h
    · exact absurd rfl h
  · rw [hrun] at h
    exact absurd rfl h

/-- A claim of a label of the gateway that changes the store found the label free or its user's. -/
theorem claimSelfManaged_changed {auth : ZoneAuthority} {ips : List Ip}
    (h : (alone (auth.claimSelfManaged user name ips) s).2.read cell ≠ s.read cell) :
    (s.labelClaimant name = some "" ∨ s.labelClaimant name = some user) ∧
      (cell = recordCell name ∨ cell = claimCell name) := by
  rw [alone_claimSelfManaged] at h
  rcases alone_claimant_cases name s with ⟨other, ht, hc, hrun⟩ | ⟨e, hrun⟩
  · rw [hrun] at h
    by_cases hempty : other = ""
    · refine ⟨.inl (by rw [hc, hempty]), ?_⟩
      simp only [hempty, if_true] at h
      split at h
      · rcases alone_readRecords_cases name s with ⟨set, -, -, hreads⟩ | ⟨e, hreads⟩
        · rw [hreads] at h
          simp only at h
          -- the change is the claim that was written, or one of the records after it
          by_cases hadd : (alone (auth.addRecords name ips)
              (s.write (claimCell name) (some (Bytes.ofText user)))).2.read cell =
                (s.write (claimCell name) (some (Bytes.ofText user))).read cell
          · have ht' : s.Takes (claimCell name) := ht
            rw [hadd] at h
            exact .inr (eq_of_read_write_ne ht' h)
          · exact .inl (addRecords_changed hadd)
        · rw [hreads] at h
          exact absurd rfl h
      · exact absurd rfl h
    · simp only [hempty, if_false] at h
      split at h
      · next hother =>
        exact ⟨.inr (by rw [hc, hother]), .inl (addRecords_changed h)⟩
      · exact absurd rfl h
  · rw [hrun] at h
    exact absurd rfl h

/-- Withdrawing addresses changes the records of the name, and in a zone of the gateway its claim. -/
theorem withdraw_changed {auth : ZoneAuthority} {selfManaged : Bool} {ips : List Ip}
    (hm : selfManaged = true → s.TakesFields managedDomains)
    (h : (alone (auth.withdraw selfManaged name ips) s).2.read cell ≠ s.read cell) :
    cell = recordCell name ∨ selfManaged = true ∧ cell = claimCell name := by
  rw [alone_withdraw auth hm] at h
  rcases alone_readRecords_cases name s with ⟨set, ht, -, hrun⟩ | ⟨e, hrun⟩
  · rw [hrun] at h
    have ht' : s.Takes (recordCell name) := ht
    simp only at h
    split at h
    · cases selfManaged with
      | false => exact .inl (eq_of_read_write_ne ht' h)
      | true =>
        have hm' : (s.write (recordCell name) none).Takes (claimCell name) :=
          (takes_write_iff (recordCell name) ht' none (c := claimCell name)
            (DomainName.fqdn_ne_managedDomains name.zone).symm).2 (hm rfl)
        simp only [if_true, read_write (claimCell name) hm'] at h
        by_cases hcell : cell = claimCell name
        · exact .inr ⟨rfl, hcell⟩
        · rw [if_neg hcell] at h
          exact .inl (eq_of_read_write_ne ht' h)
    · split at h
      · exact .inl (eq_of_read_write_ne ht' h)
      · exact absurd rfl h
  · rw [hrun] at h
    exact absurd rfl h

end ZoneAuthority

/-- What a call on a zone or a name may change. Delegation and revocation may change the owner
record and the contents of a zone that nobody or the user owns. Claim and release may change the
records of a name whose zone the user owns; in a zone of the gateway, the records and the claim of a
name that nobody or the user claims. -/
def ZoneCall.MayChange (identity : String) (call : ZoneCall) (name : DomainName) (s : MemoryStore)
    (cell : Cell) : Prop :=
  match call with
  | .delegate user _ | .revoke user _ =>
    (s.ownerOf name = some "" ∨ s.ownerOf name = some user) ∧
      (cell = .value name.zoneKey ∨ cell.InZone name)
  | .claim _ user _ _ | .release _ user _ _ =>
    (s.ownerOf name.zone = some user ∧ user ≠ identity ∧ cell = recordCell name) ∨
      (s.ownerOf name.zone = some identity ∧
        (s.labelClaimant name = some "" ∨ s.labelClaimant name = some user) ∧
        (cell = recordCell name ∨ cell = claimCell name))

namespace ZoneCall

theorem claim_changed {auth : ZoneAuthority} {user domain : String} {ips : List Ip} (hu : user ≠ "")
    (hd : DomainName.parse domain = .ok name)
    (h : (alone (auth.claim user domain ips) s).2.read cell ≠ s.read cell) :
    (claim auth.recordTtl user domain ips).MayChange auth.identity name s cell := by
  by_cases hips : ips = []
  · unfold ZoneAuthority.claim at h
    rw [ZoneAuthority.alone_checked, if_neg hu, DomainName.require_eq_ok.2 hd] at h
    simp only [hips, if_true] at h
    exact absurd rfl h
  rw [ZoneAuthority.alone_claim auth hu hd hips] at h
  rcases alone_readOwner_cases name.zone s with ⟨owner, ht, ho, hrun⟩ | ⟨e, hrun⟩
  · rw [hrun] at h
    simp only at h
    split at h
    · exact absurd rfl h
    split at h
    · next hi =>
      obtain ⟨hclaim, hcell⟩ := ZoneAuthority.claimSelfManaged_changed h
      exact .inr ⟨by rw [ho, hi], hclaim, hcell⟩
    split at h
    · next hi hu' =>
      exact .inl ⟨by rw [ho, hu'], fun heq => hi (hu'.trans heq), ZoneAuthority.addRecords_changed h⟩
    · exact absurd rfl h
  · rw [hrun] at h
    exact absurd rfl h

theorem release_changed {auth : ZoneAuthority} {user domain : String} {ips : List Ip} (hu : user ≠ "")
    (hd : DomainName.parse domain = .ok name)
    (h : (alone (auth.release user domain ips) s).2.read cell ≠ s.read cell) :
    (release auth.recordTtl user domain ips).MayChange auth.identity name s cell := by
  rw [ZoneAuthority.alone_release auth hu hd] at h
  rcases alone_readOwner_cases name.zone s with ⟨owner, ht, ho, hrun⟩ | ⟨e, hrun⟩
  · rw [hrun] at h
    simp only at h
    split at h
    · exact absurd rfl h
    split at h
    · next hi =>
      have howner : s.ownerOf name.zone = some auth.identity := by rw [ho, hi]
      rcases alone_claimant_cases name s with ⟨other, hm, hc, hclaim⟩ | ⟨e, hclaim⟩
      · rw [hclaim] at h
        have hcells : (alone (auth.withdraw true name ips) s).2.read cell ≠ s.read cell →
            cell = recordCell name ∨ cell = claimCell name := by
          intro hne
          exact (ZoneAuthority.withdraw_changed (fun _ => hm) hne).imp_right And.right
        by_cases hempty : other = ""
        · simp only [hempty, if_true] at h
          exact .inr ⟨howner, .inl (by rw [hc, hempty]), hcells h⟩
        · simp only [hempty, if_false] at h
          split at h
          · next hother => exact .inr ⟨howner, .inr (by rw [hc, hother]), hcells h⟩
          · exact absurd rfl h
      · rw [hclaim] at h
        exact absurd rfl h
    split at h
    · next hi hu' =>
      rcases ZoneAuthority.withdraw_changed (fun hf => absurd hf (by decide)) h with hcell | ⟨hf, -⟩
      · exact .inl ⟨by rw [ho, hu'], fun heq => hi (hu'.trans heq), hcell⟩
      · exact absurd hf (by decide)
    · exact absurd rfl h
  · rw [hrun] at h
    exact absurd rfl h

theorem mayChange_of_read_ne {identity : String} {call : ZoneCall}
    (hd : DomainName.parse call.domain = .ok name)
    (h : (alone (call.operation identity) s).2.read cell ≠ s.read cell) :
    call.user ≠ "" ∧ call.MayChange identity name s cell := by
  have hu : call.user ≠ "" := by
    intro hu
    rw [alone_operation_of_invalid (.inl hu)] at h
    exact h rfl
  refine ⟨hu, ?_⟩
  cases call with
  | delegate user domain =>
    change user ≠ "" at hu
    change DomainName.parse domain = .ok name at hd
    change (alone (ZoneAuthority.delegate user domain) s).2.read cell ≠ s.read cell at h
    rw [ZoneAuthority.alone_delegate hu hd] at h
    obtain ⟨hfree, hcell⟩ := ZoneAuthority.delegateRounds_changed h
    exact ⟨.inl hfree, hcell⟩
  | revoke user domain =>
    change user ≠ "" at hu
    change DomainName.parse domain = .ok name at hd
    change (alone (ZoneAuthority.revoke user domain) s).2.read cell ≠ s.read cell at h
    rw [ZoneAuthority.alone_revoke hu hd] at h
    exact ZoneAuthority.revokeRounds_changed h
  | claim recordTtl user domain ips =>
    change (alone ((⟨identity, recordTtl⟩ : ZoneAuthority).claim user domain ips) s).2.read cell ≠
      s.read cell at h
    exact claim_changed hu hd h
  | release recordTtl user domain ips =>
    change (alone ((⟨identity, recordTtl⟩ : ZoneAuthority).release user domain ips) s).2.read cell ≠
      s.read cell at h
    exact release_changed hu hd h

end ZoneCall

/-! ## Routes -/

/-- A change to the route of a domain that a user asks for. -/
inductive RouteCall where
  | registerForward (user domain addr : String) (httpPort tlsPort : UInt16)
  | registerReverse (auth : RouteAuthority) (user domain : String) (secret : ReverseSecret)
  | deregister (user domain : String)

namespace RouteCall

/-- The user who issues a call. -/
def user : RouteCall → String
  | registerForward user _ _ _ _ | registerReverse _ user _ _ | deregister user _ => user

/-- The text that names the domain of a call. -/
def domain : RouteCall → String
  | registerForward _ domain _ _ _ | registerReverse _ _ domain _ | deregister _ domain => domain

/-- The operation of a call. -/
def operation : RouteCall → Operation Unit
  | registerForward user domain addr httpPort tlsPort =>
    RouteAuthority.registerForward user domain addr httpPort tlsPort
  | registerReverse auth user domain secret => auth.registerReverse user domain secret
  | deregister user domain => RouteAuthority.deregister user domain

/-- What a call on a route may change: the entry of its domain, if there is none or its owner is the
user of the call. -/
def MayChange (call : RouteCall) (name : DomainName) (s : MemoryStore) (cell : Cell) : Prop :=
  cell = .value name.routingKey ∧
    (s.read cell = none ∨
      ∃ raw entry, s.read cell = some raw ∧ RoutingEntry.decode raw = .ok entry ∧
        entry.owner = call.user)

end RouteCall

namespace RouteAuthority

/-- Run alone, a registration ends in its first round. -/
theorem alone_registerRounds (ht : s.TakesValue name.routingKey) (entry : RoutingEntry)
    (rounds : Nat) :
    alone (registerRounds name entry (rounds + 1)) s =
      match s.read (.value name.routingKey) with
      | none => (.ok (), s.write (.value name.routingKey) (some (entry.encode name.routingKey)))
      | some raw =>
        match RoutingEntry.decode raw with
        | .error e => (.error e, s)
        | .ok existing =>
          if existing.owner ≠ entry.owner then (.error (.unauthorized "add proxy from" name.text), s)
          else (.ok (), s.write (.value name.routingKey) (some (entry.encode name.routingKey))) := by
  have hcas : alone (compareAndSet name.routingKey (s.read (.value name.routingKey))
      (some (entry.encode name.routingKey))) s =
      (.ok true, s.write (.value name.routingKey) (some (entry.encode name.routingKey))) := by
    rw [alone_compareAndSet ht, if_pos rfl]
  unfold registerRounds
  rw [alone_bind_ok (alone_get ht)]
  cases hraw : s.read (.value name.routingKey) with
  | none =>
    rw [hraw] at hcas
    simp only
    rw [alone_bind_ok hcas]
    rfl
  | some raw =>
    rw [hraw] at hcas
    simp only
    cases RoutingEntry.decode raw with
    | error e => rfl
    | ok existing =>
      rw [alone_bind_ok (alone_check_ok existing s)]
      simp only
      by_cases ho : existing.owner ≠ entry.owner
      · rw [if_pos ho, if_pos ho]
        rfl
      · rw [if_neg ho, if_neg ho, alone_bind_ok hcas]
        rfl

theorem alone_deregisterRounds (ht : s.TakesValue name.routingKey) (user : String) (rounds : Nat) :
    alone (deregisterRounds user name (rounds + 1)) s =
      match s.read (.value name.routingKey) with
      | none => (.ok (), s)
      | some raw =>
        match RoutingEntry.decode raw with
        | .error e => (.error e, s)
        | .ok existing =>
          if existing.owner ≠ user then (.error (.unauthorized "remove proxy from" name.text), s)
          else (.ok (), s.write (.value name.routingKey) none) := by
  unfold deregisterRounds
  rw [alone_bind_ok (alone_get ht)]
  cases hraw : s.read (.value name.routingKey) with
  | none => rfl
  | some raw =>
    simp only
    cases RoutingEntry.decode raw with
    | error e => rfl
    | ok existing =>
      rw [alone_bind_ok (alone_check_ok existing s)]
      simp only
      by_cases ho : existing.owner ≠ user
      · rw [if_pos ho, if_pos ho]
        rfl
      · have hcas : alone (compareAndSet name.routingKey (some raw) none) s =
            (.ok true, s.write (.value name.routingKey) none) := by
          rw [alone_compareAndSet ht, if_pos hraw]
        rw [if_neg ho, if_neg ho, alone_bind_ok hcas]
        rfl

theorem registerRounds_changed {entry : RoutingEntry} {rounds : Nat}
    (h : (alone (registerRounds name entry (rounds + 1)) s).2.read cell ≠ s.read cell) :
    cell = .value name.routingKey ∧
      (s.read cell = none ∨
        ∃ raw existing, s.read cell = some raw ∧ RoutingEntry.decode raw = .ok existing ∧
          existing.owner = entry.owner) := by
  by_cases ht : s.TakesValue name.routingKey
  · have ht' : s.Takes (.value name.routingKey) := ht
    rw [alone_registerRounds ht] at h
    cases hraw : s.read (.value name.routingKey) with
    | none =>
      rw [hraw] at h
      have hcell := eq_of_read_write_ne ht' h
      exact ⟨hcell, .inl (hcell ▸ hraw)⟩
    | some raw =>
      rw [hraw] at h
      simp only at h
      split at h
      · exact absurd rfl h
      · next existing hdecode =>
        split at h
        · exact absurd rfl h
        · next ho =>
          have hcell := eq_of_read_write_ne ht' h
          exact ⟨hcell, .inr ⟨raw, existing, hcell ▸ hraw, hdecode, Classical.not_not.1 ho⟩⟩
  · have hrefused : s.Refuses (.get name.routingKey) := ht
    have hfail : alone (registerRounds name entry (rounds + 1)) s =
        (.error (refusal name.routingKey), s) := alone_bind_error (alone_call_refused hrefused)
    rw [hfail] at h
    exact absurd rfl h

theorem deregisterRounds_changed {user : String} {rounds : Nat}
    (h : (alone (deregisterRounds user name (rounds + 1)) s).2.read cell ≠ s.read cell) :
    cell = .value name.routingKey ∧
      ∃ raw existing, s.read cell = some raw ∧ RoutingEntry.decode raw = .ok existing ∧
        existing.owner = user := by
  by_cases ht : s.TakesValue name.routingKey
  · have ht' : s.Takes (.value name.routingKey) := ht
    rw [alone_deregisterRounds ht] at h
    cases hraw : s.read (.value name.routingKey) with
    | none =>
      rw [hraw] at h
      exact absurd rfl h
    | some raw =>
      rw [hraw] at h
      simp only at h
      split at h
      · exact absurd rfl h
      · next existing hdecode =>
        split at h
        · exact absurd rfl h
        · next ho =>
          have hcell := eq_of_read_write_ne ht' h
          exact ⟨hcell, raw, existing, hcell ▸ hraw, hdecode, Classical.not_not.1 ho⟩
  · have hrefused : s.Refuses (.get name.routingKey) := ht
    have hfail : alone (deregisterRounds user name (rounds + 1)) s =
        (.error (refusal name.routingKey), s) := alone_bind_error (alone_call_refused hrefused)
    rw [hfail] at h
    exact absurd rfl h

end RouteAuthority

namespace RouteCall

theorem mayChange_of_read_ne {call : RouteCall} (hd : DomainName.parse call.domain = .ok name)
    (h : (alone call.operation s).2.read cell ≠ s.read cell) :
    call.user ≠ "" ∧ call.MayChange name s cell := by
  have hr : DomainName.require call.domain = .ok name := DomainName.require_eq_ok.2 hd
  cases call with
  | registerForward user domain addr httpPort tlsPort =>
    change (alone (RouteAuthority.registerForward user domain addr httpPort tlsPort) s).2.read cell ≠
      s.read cell at h
    change DomainName.require domain = .ok name at hr
    unfold RouteAuthority.registerForward at h
    rw [ZoneAuthority.alone_checked, hr] at h
    split at h
    · exact absurd rfl h
    next hu =>
      refine ⟨hu, ?_⟩
      by_cases haddr : addr = ""
      · simp only [haddr, if_true] at h
        exact absurd rfl h
      · simp only [haddr, if_false] at h
        exact RouteAuthority.registerRounds_changed h
  | registerReverse auth user domain secret =>
    change (alone (auth.registerReverse user domain secret) s).2.read cell ≠ s.read cell at h
    change DomainName.require domain = .ok name at hr
    unfold RouteAuthority.registerReverse at h
    rw [ZoneAuthority.alone_checked, hr] at h
    split at h
    · exact absurd rfl h
    next hu =>
      refine ⟨hu, ?_⟩
      simp only at h
      rcases hreveal : auth.reveal user secret with e | plain
      · rw [hreveal] at h
        exact absurd rfl h
      rw [hreveal, alone_bind_ok (alone_check_ok plain s)] at h
      rcases hbound : RouteAuthority.checkBound user plain with e | _
      · rw [hbound] at h
        exact absurd rfl h
      rw [hbound, alone_bind_ok (alone_check_ok () s)] at h
      exact RouteAuthority.registerRounds_changed h
  | deregister user domain =>
    change (alone (RouteAuthority.deregister user domain) s).2.read cell ≠ s.read cell at h
    change DomainName.require domain = .ok name at hr
    unfold RouteAuthority.deregister at h
    rw [ZoneAuthority.alone_checked, hr] at h
    split at h
    · exact absurd rfl h
    next hu =>
      obtain ⟨hcell, howned⟩ := RouteAuthority.deregisterRounds_changed h
      exact ⟨hu, hcell, .inr howned⟩

end RouteCall

/-! ## All calls -/

/-- A call on a zone, a label or a route. -/
inductive DomainCall where
  | ofZone (call : ZoneCall)
  | ofRoute (call : RouteCall)

namespace DomainCall

/-- The user who issues a call. -/
def user : DomainCall → String
  | ofZone call => call.user
  | ofRoute call => call.user

/-- The text that a call is about. -/
def domain : DomainCall → String
  | ofZone call => call.domain
  | ofRoute call => call.domain

/-- The operation of a call at a gateway of this identity. -/
def operation (identity : String) : DomainCall → Operation Unit
  | ofZone call => call.operation identity
  | ofRoute call => call.operation

/-- What a call about a name may change. -/
def MayChange (identity : String) (call : DomainCall) (name : DomainName) (s : MemoryStore)
    (cell : Cell) : Prop :=
  match call with
  | ofZone call => call.MayChange identity name s cell
  | ofRoute call => call.MayChange name s cell

end DomainCall

/-- **Authorisation frame.** Whatever the store holds, a call that runs alone changes only what its
user may change, and a call without a user changes nothing. -/
theorem authorisation_frame (identity : String) (call : DomainCall)
    (hd : DomainName.parse call.domain = .ok name) (s : MemoryStore)
    (h : (alone (call.operation identity) s).2.read cell ≠ s.read cell) :
    call.user ≠ "" ∧ call.MayChange identity name s cell := by
  cases call with
  | ofZone call => exact ZoneCall.mayChange_of_read_ne hd h
  | ofRoute call => exact RouteCall.mayChange_of_read_ne hd h

/-- The first claim of a label of the gateway. -/
theorem authorisation_frame_first_claim :
    let name := DomainName.sample
    let store := (alone (ZoneAuthority.delegate "gateway" "example.com") MemoryStore.empty).2
    let call : DomainCall := .ofZone (.claim 300 "alice" name.text [.v4 ⟨10, 0, 0, 1⟩])
    call.user ≠ "" ∧ call.MayChange "gateway" name store (claimCell name) := by
  intro name store call
  have hwritten : (alone (call.operation "gateway") store).2.read (claimCell name) ≠
      store.read (claimCell name) := by
    subst name store call
    decide +kernel
  exact authorisation_frame "gateway" call (DomainName.parse_text name) store hwritten

end GatewayControl
