import GatewayControl.Dns.Name
import GatewayControl.Dns.RecordSet
import GatewayControl.Program

/-!
# `GatewayControl.Authority.Zone` -- zones, their owners and the records under their labels

The store holds three tables. The plain value `zone:<zone>.` names the owner of a zone; it is
absent or empty while nobody owns the zone. The hash `<zone>.` maps each label to its record set.
The hash `managed_domains` maps a name to its claimant, for zones that the gateway itself owns.

A delegated zone is its owner's alone. In a zone of the gateway the first user to claim a label
owns it until its last record is released.
-/

namespace GatewayControl

/-- The hash of label claims in zones of the gateway. -/
def managedDomains : String := "managed_domains"

/-- The authority over zones, acting for the gateway of this identity. Records that it publishes
live `recordTtl` seconds. -/
structure ZoneAuthority where
  identity : String
  recordTtl : UInt32

/-- Who controls a zone. -/
inductive Control where
  | unclaimed
  | selfManaged
  | delegated (owner : String)
deriving DecidableEq, Repr

/-- The stored form of the owner of a zone. -/
def encodeOwner (owner : String) : Bytes := Json.Value.bytes (.object [("owner", .string owner)])

/-- The owner that stored bytes name; empty if the field is absent. -/
def decodeOwner? (bytes : Bytes) : Option String := do
  let (_, fields) ← (← Json.Tree.read? bytes).record? ["owner"] Json.maxDepth
  match fields with
  | [none] => some ""
  | [some owner] => owner.text?
  | _ => none

namespace RecordSet

/-- Adds records one after the other; the flag tells whether any changed the set. -/
def addAll (set : RecordSet) : List Record → Bool × RecordSet
  | [] => (false, set)
  | r :: rest =>
    let (changed, set) := set.add r
    let (more, set) := set.addAll rest
    (changed || more, set)

/-- Removes records one after the other; the flag tells whether any was present. -/
def removeAll (set : RecordSet) : List Record → Bool × RecordSet
  | [] => (false, set)
  | r :: rest =>
    let (changed, set) := set.remove r
    let (more, set) := set.removeAll rest
    (changed || more, set)

end RecordSet

namespace ZoneAuthority

open Operation

/-- The stored value of the owner record of a zone, and the owner it names; empty if there is no
record. -/
def readOwner (zone : DomainName) : Operation (Option Bytes × String) := do
  let raw ← get zone.zoneKey
  match raw with
  | none => return (none, "")
  | some bytes =>
    match decodeOwner? bytes with
    | some owner => return (some bytes, owner)
    | none => throw .json

/-- Who controls a zone. -/
def control (auth : ZoneAuthority) (zone : DomainName) : Operation Control := do
  let (_, owner) ← readOwner zone
  if owner = "" then return .unclaimed
  else if owner = auth.identity then return .selfManaged
  else return .delegated owner

/-- The claimant of a name in a zone of the gateway; an empty one counts as none. -/
def claimant (name : DomainName) : Operation (Option String) := do
  match ← hget managedDomains name.text with
  | none => return none
  | some bytes =>
    match Bytes.toText? bytes with
    | none => throw (.storage (.other ("claimant of " ++ name.text ++ " is not utf-8")))
    | some user => return if user = "" then none else some user

/-- The record set of a label; empty if the field is absent. -/
def readRecords (zone : DomainName) (label : String) : Operation RecordSet := do
  match ← hget zone.fqdn label with
  | none => return .empty
  | some bytes =>
    match RecordSet.decode? bytes with
    | some set => return set
    | none => throw .json

/-! ## Delegation -/

/-- Removes those of the claims whose name stands in a zone. -/
def clearClaims (zone : DomainName) : List String → Operation Unit
  | [] => return ()
  | claimed :: rest => do
    match DomainName.parse claimed with
    | .ok name => if name.zone = zone then discard <| hdel managedDomains claimed
    | .error _ => pure ()
    clearClaims zone rest

/-- Removes all record sets and label claims of a zone. -/
def clearZone (zone : DomainName) : Operation Unit := do
  -- a plain value under the name of the hash is a fault, and stays
  let _ ← hkeys zone.fqdn
  let _ ← delete zone.fqdn
  clearClaims zone (← hkeys managedDomains)

/-- Rounds of delegation: the owner is read, checked, and replaced if it has not changed. The new
owner starts with an empty zone. -/
def delegateRounds (user : String) (zone : DomainName) : Nat → Operation Unit
  | 0 => throw (.storage (.contended zone.zoneKey))
  | rounds + 1 => do
    let (raw, owner) ← readOwner zone
    if owner = user then return ()
    else if owner ≠ "" then throw (.unauthorized "delegate domain" zone.text)
    else if ← compareAndSet zone.zoneKey raw (some (encodeOwner user)) then clearZone zone
    else delegateRounds user zone rounds

/-- Delegates a zone to a user: nobody else may own it. -/
def delegate (user domain : String) : Operation Unit := do
  check (requireUser user)
  let zone ← check (DomainName.require domain)
  delegateRounds user zone claimAttempts

/-- Rounds of revocation: the owner is read, checked, and removed if it has not changed. Then the
zone is cleared. -/
def revokeRounds (user : String) (zone : DomainName) : Nat → Operation Unit
  | 0 => throw (.storage (.contended zone.zoneKey))
  | rounds + 1 => do
    let (raw, owner) ← readOwner zone
    -- a record that names nobody is removed like one's own
    if owner = "" ∧ raw = none then return ()
    else if owner ≠ "" ∧ owner ≠ user then throw (.unauthorized "remove delegated domain" zone.text)
    else if ← compareAndSet zone.zoneKey raw none then clearZone zone
    else revokeRounds user zone rounds

/-- Revokes the delegation of a zone to a user, with everything published under it. -/
def revoke (user domain : String) : Operation Unit := do
  check (requireUser user)
  let zone ← check (DomainName.require domain)
  revokeRounds user zone claimAttempts

/-! ## Claims and releases -/

/-- Rounds of a label claim: the claimant is read, and written if there is none. Tells whether
this call wrote it. -/
def claimLabel (user : String) (name : DomainName) : Nat → Operation Bool
  | 0 => throw (.storage (.contended managedDomains))
  | rounds + 1 => do
    match ← claimant name with
    | some other =>
      if other = user then return false
      else throw (.unauthorized ("add subdomain " ++ name.text ++ " to zone") name.zone.text)
    | none =>
      if ← hsetIfAbsent managedDomains name.text (Bytes.ofText user) then return true
      else claimLabel user name rounds

/-- The address records for a list of addresses. -/
def recordsOf (auth : ZoneAuthority) (ips : List Ip) : List Record :=
  ips.map (Record.ofIp auth.recordTtl)

/-- Adds address records under a name; nothing is written if all of them are present. -/
def addRecords (auth : ZoneAuthority) (name : DomainName) (ips : List Ip) : Operation Unit := do
  let set ← readRecords name.zone name.label
  let (changed, set) := set.addAll (auth.recordsOf ips)
  if changed then hset name.zone.fqdn name.label set.encode

/-- Claims a label of the gateway and adds records under it. A claim that this call wrote is
undone if the records cannot be written. -/
def claimSelfManaged (auth : ZoneAuthority) (user : String) (name : DomainName) (ips : List Ip) :
    Operation Unit := do
  let fresh ← claimLabel user name claimAttempts
  match ← attempt (auth.addRecords name ips) with
  | .ok () => return ()
  | .error e =>
    -- the first fault is reported, even if the undoing fails too
    if fresh then discard <| attempt (hdel managedDomains name.text)
    throw e

/-- Publishes addresses under a name. The name's zone has to be owned; in a zone of the gateway the
label has to be free or the user's, and the work goes on even if the caller gives up. -/
def claim (auth : ZoneAuthority) (user domain : String) (ips : List Ip) : Operation Unit := do
  check (requireUser user)
  let name ← check (DomainName.require domain)
  if ips = [] then throw (.validation "at least one ip is required")
  match ← auth.control name.zone with
  | .unclaimed => throw (.notFound ("zone " ++ name.zone.text ++ " (delegate the domain first)"))
  | .selfManaged => detached (auth.claimSelfManaged user name ips)
  | .delegated owner =>
    if owner = user then auth.addRecords name ips
    else throw (.unauthorized ("add subdomain " ++ name.label ++ " to zone") name.zone.text)

/-- Withdraws addresses from a name whose label the user may change. In a zone of the gateway the
label is freed when no record is left. -/
def withdraw (auth : ZoneAuthority) (selfManaged : Bool) (name : DomainName) (ips : List Ip) :
    Operation Unit := do
  let set ← readRecords name.zone name.label
  let (removed, set) := set.removeAll (auth.recordsOf ips)
  if set.isEmpty then
    discard <| hdel name.zone.fqdn name.label
    if selfManaged then discard <| hdel managedDomains name.text
  else if removed then hset name.zone.fqdn name.label set.encode

/-- The refusal of a release. -/
def releaseRefused (name : DomainName) : GatewayError :=
  .unauthorized ("remove subdomain " ++ name.label ++ " from zone") name.zone.text

/-- Withdraws addresses from a name. Absent records and unowned zones are no fault. -/
def release (auth : ZoneAuthority) (user domain : String) (ips : List Ip) : Operation Unit := do
  check (requireUser user)
  let name ← check (DomainName.require domain)
  match ← auth.control name.zone with
  | .unclaimed => return ()
  | .selfManaged =>
    match ← claimant name with
    | none => auth.withdraw true name ips
    | some other =>
      if other = user then auth.withdraw true name ips else throw (releaseRefused name)
  | .delegated owner =>
    if owner = user then auth.withdraw false name ips else throw (releaseRefused name)

/-! ## Queries -/

/-- The records published for a name. -/
def records (domain : String) : Operation RecordSet := do
  let name ← check (DomainName.require domain)
  readRecords name.zone name.label

/-- The labels with records under a zone, sorted. -/
def labels (zone : String) : Operation (List String) := do
  let zone ← check (DomainName.require zone)
  hkeys zone.fqdn

/-- The owner of a zone, if it has one. -/
def zoneOwner (zone : String) : Operation (Option String) := do
  let zone ← check (DomainName.require zone)
  let (_, owner) ← readOwner zone
  return if owner = "" then none else some owner

/-- The claimant of a name, if it has one. -/
def claimantOf (domain : String) : Operation (Option String) := do
  claimant (← check (DomainName.require domain))

end ZoneAuthority

end GatewayControl
