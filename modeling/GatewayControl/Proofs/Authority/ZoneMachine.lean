import GatewayControl.Proofs.Authority.ZoneAlone
import GatewayControl.Proofs.Dns.AddressBook

/-!
# `GatewayControl.Proofs.Authority.ZoneMachine` -- the ownership machine

What the zone authority is for, said without keys, hashes and encodings. The state of the machine is who
owns each zone, who claims each name, and which addresses each name has. Its four transitions say in one
condition each who may do what (`MayOwn`, `MayClaim`, `MayRelease`), and what comes of it.
-/

namespace GatewayControl

/-- Who owns what, and what is published: zones, claims of names, and the addresses of names. -/
structure ZoneMachine where
  owner : DomainName → Option String
  claimant : DomainName → Option String
  addresses : DomainName → AddressBook

namespace ZoneMachine

/-- Nobody owns anything. -/
def empty : ZoneMachine := ⟨fun _ => none, fun _ => none, fun _ => .empty⟩

variable (identity user : String) (ttl : UInt32) (zone name : DomainName) (ips : List Ip)
  (m : ZoneMachine)

/-- The machine with other addresses and another claimant of a name. -/
def relabel (book : AddressBook) (claimant : Option String) : ZoneMachine :=
  { m with
    claimant := fun n => if n = name then claimant else m.claimant n
    addresses := fun n => if n = name then book else m.addresses n }

/-- The user may own the zone: it is free, or the user's already. -/
def MayOwn : Prop := m.owner zone = none ∨ m.owner zone = some user

/-- The zone of the name is the user's, and the user is not the gateway. -/
def OwnsZoneOf : Prop := m.owner name.zone = some user ∧ user ≠ identity

/-- The user may add addresses to the name: as the owner of the zone, or, in a zone of the gateway, as
the claimant of the name or as the first. -/
def MayClaim : Prop :=
  m.OwnsZoneOf identity user name ∨ m.owner name.zone = some identity ∧
    ((m.addresses name).entries = [] ∨ m.claimant name = some user)

/-- The user may remove addresses from the name, if only for want of anything to remove. -/
def MayRelease : Prop :=
  m.owner name.zone = none ∨ m.OwnsZoneOf identity user name ∨
    m.owner name.zone = some identity ∧ (m.claimant name = none ∨ m.claimant name = some user)

instance : Decidable (m.MayOwn user zone) := inferInstanceAs (Decidable (_ ∨ _))

instance : Decidable (m.OwnsZoneOf identity user name) := inferInstanceAs (Decidable (_ ∧ _))

instance : Decidable (m.MayClaim identity user name) := inferInstanceAs (Decidable (_ ∨ _ ∧ (_ ∨ _)))

instance : Decidable (m.MayRelease identity user name) :=
  inferInstanceAs (Decidable (_ ∨ _ ∨ _ ∧ (_ ∨ _)))

section Refused

variable {identity user owner other : String} {zone name : DomainName} {m : ZoneMachine}

/-- Nobody may own a zone that another user owns. -/
theorem not_mayOwn (howner : m.owner zone = some owner) (hne : owner ≠ user) : ¬ m.MayOwn user zone := by
  rintro (hfree | hown)
  · rw [hfree] at howner
    cases howner
  · exact hne (Option.some.inj (howner.symm.trans hown))

/-- The zone is another user's. -/
theorem not_mayClaim_of_owner (howner : m.owner name.zone = some owner) (hid : owner ≠ identity)
    (hne : owner ≠ user) : ¬ m.MayClaim identity user name := by
  rintro (⟨hown, -⟩ | ⟨hown, -⟩)
  · exact hne (Option.some.inj (howner.symm.trans hown))
  · exact hid (Option.some.inj (howner.symm.trans hown))

/-- The zone is the gateway's, and the name another user's. -/
theorem not_mayClaim_of_claimant (howner : m.owner name.zone = some identity)
    (hentries : (m.addresses name).entries ≠ []) (hclaimant : m.claimant name = some other)
    (hne : other ≠ user) : ¬ m.MayClaim identity user name := by
  rintro (⟨hown, hid⟩ | ⟨-, hnone | hclaimed⟩)
  · exact hid (Option.some.inj (hown.symm.trans howner))
  · exact hentries hnone
  · exact hne (Option.some.inj (hclaimant.symm.trans hclaimed))

theorem not_mayRelease_of_owner (howner : m.owner name.zone = some owner) (hid : owner ≠ identity)
    (hne : owner ≠ user) : ¬ m.MayRelease identity user name := by
  rintro (hfree | ⟨hown, -⟩ | ⟨hown, -⟩)
  · rw [hfree] at howner
    cases howner
  · exact hne (Option.some.inj (howner.symm.trans hown))
  · exact hid (Option.some.inj (howner.symm.trans hown))

theorem not_mayRelease_of_claimant (howner : m.owner name.zone = some identity)
    (hclaimant : m.claimant name = some other) (hne : other ≠ user) :
    ¬ m.MayRelease identity user name := by
  rintro (hfree | ⟨hown, hid⟩ | ⟨-, hfree | hclaimed⟩)
  · rw [hfree] at howner
    cases howner
  · exact hid (Option.some.inj (hown.symm.trans howner))
  · rw [hfree] at hclaimant
    cases hclaimant
  · exact hne (Option.some.inj (hclaimant.symm.trans hclaimed))

end Refused

/-- A delegation makes the user the owner of the zone. -/
def delegate : Except GatewayError Unit × ZoneMachine :=
  if m.MayOwn user zone then
    (.ok (), { m with owner := fun z => if z = zone then some user else m.owner z })
  else (.error (.unauthorized "delegate domain" zone.text), m)

/-- A revocation frees the zone and empties it. -/
def revoke : Except GatewayError Unit × ZoneMachine :=
  if m.MayOwn user zone then
    (.ok (), {
      owner := fun z => if z = zone then none else m.owner z
      claimant := fun n => if n.zone = zone then none else m.claimant n
      addresses := fun n => if n.zone = zone then .empty else m.addresses n })
  else (.error (.unauthorized "remove delegated domain" zone.text), m)

/-- A claim puts addresses under a name; in a zone of the gateway the name is then the user's. -/
def claim : Except GatewayError Unit × ZoneMachine :=
  if ips = [] then (.error (.validation "at least one ip is required"), m)
  else if m.owner name.zone = none then
    (.error (.notFound ("zone " ++ name.zone.text ++ " (delegate the domain first)")), m)
  else if m.MayClaim identity user name then
    (.ok (), m.relabel name ((m.addresses name).putAll ttl ips)
      (if m.owner name.zone = some identity then some user else m.claimant name))
  else
    let subdomain := if m.owner name.zone = some identity then name.text else name.label
    (.error (.unauthorized ("add subdomain " ++ subdomain ++ " to zone") name.zone.text), m)

/-- A release takes addresses from under a name, which is free once it has none. -/
def release : Except GatewayError Unit × ZoneMachine :=
  if m.MayRelease identity user name then
    let left := (m.addresses name).dropAll ips
    (.ok (), m.relabel name left (if left.entries = [] then none else m.claimant name))
  else (.error (.unauthorized ("remove subdomain " ++ name.label ++ " from zone") name.zone.text), m)

/-- One call: malformed ones are refused, all others are transitions. -/
def step (call : ZoneCall) : Except GatewayError Unit × ZoneMachine :=
  if call.user = "" then (.error emptyUser, m)
  else match DomainName.require call.domain with
    | .error e => (.error e, m)
    | .ok name =>
      match call with
      | .delegate user _ => m.delegate user name
      | .revoke user _ => m.revoke user name
      | .claim ttl user _ ips => m.claim identity user ttl name ips
      | .release _ user _ ips => m.release identity user name ips

/-- Calls one after another: their answers, and the machine they leave. -/
def run (identity : String) : List ZoneCall → ZoneMachine → List (Except GatewayError Unit) × ZoneMachine
  | [], m => ([], m)
  | call :: calls, m =>
    let (answer, m) := m.step identity call
    let (answers, m) := run identity calls m
    (answer :: answers, m)

/-- The labels with addresses under a zone, in order. -/
def Lists (zone : DomainName) (m : ZoneMachine) (labels : List String) : Prop :=
  labels.Pairwise (· < ·) ∧ ∀ label, label ∈ labels ↔
    ∃ name : DomainName, name.zone = zone ∧ name.label = label ∧ (m.addresses name).entries ≠ []

end ZoneMachine

end GatewayControl
