import GatewayControl.Directory
import GatewayControl.Dns.Name
import GatewayControl.Program
import GatewayControl.Routing.Entry
import GatewayControl.Secret

/-!
# `GatewayControl.Authority.Route` -- who may route a domain

The plain value `routing:<domain>` holds the entry of a domain. The first user to register a domain
owns it until the entry is removed, whoever owns the zone. Every write replaces the entry that was
checked, and nothing else.
-/

namespace GatewayControl

/-- The client secret of a reverse tunnel, as a request brings it. -/
inductive ReverseSecret where
  | plain (secret : String)
  /-- Sealed by the user to the gateway. -/
  | encrypted (sealed : String)
deriving DecidableEq, Repr

/-- The authority over routes: where it finds the keys of users, and the key that opens secrets. -/
structure RouteAuthority where
  directory : Directory
  secret : Key

namespace RouteAuthority

open Operation

/-- The entry of a domain, if it has one. -/
def entry (domain : String) : Operation (Option RoutingEntry) := do
  let domain ← check (DomainName.require domain)
  match ← get domain.routingKey with
  | none => return none
  | some raw => return some (← check (RoutingEntry.decode raw))

/-- Rounds of a registration: the entry is read, its owner checked, and the entry replaced if it
has not changed. -/
def registerRounds (domain : DomainName) (entry : RoutingEntry) : Nat → Operation Unit
  | 0 => throw (.storage (.contended domain.routingKey))
  | rounds + 1 => do
    let current ← get domain.routingKey
    match current with
    | none => pure ()
    | some raw =>
      let existing ← check (RoutingEntry.decode raw)
      if existing.owner ≠ entry.owner then throw (.unauthorized "add proxy from" domain.text)
    if ← compareAndSet domain.routingKey current (some (entry.encode domain.routingKey)) then
      return ()
    else registerRounds domain entry rounds

/-- Forwards a domain to an address. -/
def registerForward (user domain addr : String) (httpPort tlsPort : UInt16) : Operation Unit := do
  check (requireUser user)
  let domain ← check (DomainName.require domain)
  if addr = "" then throw (.validation "proxy address cannot be empty")
  registerRounds domain ⟨user, .forward addr httpPort tlsPort⟩ claimAttempts

/-- The client secret in the clear; a sealed one is opened with the key of the user. -/
def reveal (auth : RouteAuthority) (user : String) : ReverseSecret → Except GatewayError String
  | .plain secret => .ok secret
  | .encrypted sealed =>
    if sealed = "" then .error (.validation "secret cannot be empty")
    else do
      let peer ← auth.directory.fetch user
      Secret.openSealed sealed auth.secret peer

/-- A client secret has to start with its user and a colon. -/
def checkBound (user secret : String) : Except GatewayError Unit :=
  if secret = "" then .error (.validation "secret cannot be empty")
  else if (user ++ ":").toList.isPrefixOf secret.toList then .ok ()
  else .error (.validation "secret must follow the format '<user>:<random>'")

/-- Hands a domain to the reverse tunnel of a secret. -/
def registerReverse (auth : RouteAuthority) (user domain : String) (secret : ReverseSecret) :
    Operation Unit := do
  check (requireUser user)
  let domain ← check (DomainName.require domain)
  let secret ← check (auth.reveal user secret)
  check (checkBound user secret)
  registerRounds domain ⟨user, .reverse secret⟩ claimAttempts

/-- Rounds of a removal: the entry is read, its owner checked, and the entry removed if it has not
changed. -/
def deregisterRounds (user : String) (domain : DomainName) : Nat → Operation Unit
  | 0 => throw (.storage (.contended domain.routingKey))
  | rounds + 1 => do
    match ← get domain.routingKey with
    | none => return ()
    | some raw =>
      let existing ← check (RoutingEntry.decode raw)
      if existing.owner ≠ user then throw (.unauthorized "remove proxy from" domain.text)
      else if ← compareAndSet domain.routingKey (some raw) none then return ()
      else deregisterRounds user domain rounds

/-- Removes the entry of a domain; an absent one is no fault. -/
def deregister (user domain : String) : Operation Unit := do
  check (requireUser user)
  let domain ← check (DomainName.require domain)
  deregisterRounds user domain claimAttempts

end RouteAuthority

end GatewayControl
