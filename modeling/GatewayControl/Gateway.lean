import GatewayControl.Authority.Route
import GatewayControl.Authority.Tunnel
import GatewayControl.Authority.Zone
import GatewayControl.Config.Basic
import GatewayControl.Identity
import GatewayControl.Tunnel.Namespace
import GatewayControl.Workload

/-!
# `GatewayControl.Gateway` -- a node put together

A gateway is an identity with the three authorities that act for it and the deadline of one
request. It is built from a configuration; of several faults the one that comes first in the order
identity, device names, directory, deadline, endpoint is reported.
-/

namespace GatewayControl

/-- A node. -/
structure Gateway where
  identity : Identity
  zones : ZoneAuthority
  routes : RouteAuthority
  /-- The authority over tunnels, unless tunnels are disabled. -/
  tunnel : Option TunnelAuthority
  timeoutSecs : Nat

namespace Gateway

/-- The identity that a configuration describes. -/
def openIdentity (files : Files) (config : IdentityConfig) : Except GatewayError Identity := do
  let seed ← match config.seed, config.seedPath with
    | some hex, _ => Identity.seedOfHex hex
    | none, some path =>
      match files.read path with
      | .ok contents => Identity.seedOfFile path contents
      | .error fault => .error (.io fault)
    | none, none => .error (.config "identity.seed or identity.seed_path must be set")
  return Identity.ofSeed seed config.name

/-- The directory that a configuration describes; a client reaches the explorer. -/
def openDirectory (client : Http.Client) (config : DirectoryConfig) : Except GatewayError Directory :=
  match config.explorerUrl with
  | some url => Directory.ofUrl client url
  | none => Directory.ofHex config.keys

/-- The device that a configuration describes, if tunnels are enabled. -/
def openDevice (config : TunnelConfig) : Except GatewayError (Option NamespaceDevice) :=
  if config.enabled then
    (NamespaceDevice.named config.namespaceName config.interface).map some
  else .ok none

/-- The authority over the tunnels of an identity. -/
def openTunnel (identity : Identity) (config : TunnelConfig) : Except GatewayError TunnelAuthority := do
  let listenPort ← Config.listenPort config
  return ⟨identity.seed, identity.wireguardKey, config.endpoint.getD "", listenPort,
    config.keepaliveSecs⟩

/-- Puts a node together. -/
def ofParts (config : Config) (identity : Identity) (directory : Directory) (hasDevice : Bool) :
    Except GatewayError Gateway := do
  config.validate
  let tunnel ← if hasDevice then (openTunnel identity config.tunnel).map some else .ok none
  return ⟨identity, ⟨identity.name, config.recordTtl⟩, ⟨directory, identity.seed⟩, tunnel,
    config.timeoutSecs⟩

/-- The node that a configuration describes, with its device. -/
def ofConfig (client : Http.Client) (files : Files) (config : Config) :
    Except GatewayError (Gateway × Option NamespaceDevice) := do
  let identity ← openIdentity files config.identity
  let device ← openDevice config.tunnel
  let directory ← openDirectory client config.directory
  return (← ofParts config identity directory device.isSome, device)

/-- The node of a configuration whose device is yet to be supplied. -/
def ofSettings (client : Http.Client) (files : Files) (config : Config) :
    Except GatewayError Gateway := do
  let identity ← openIdentity files config.identity
  let directory ← openDirectory client config.directory
  ofParts config identity directory config.tunnel.enabled

/-- The types of workloads that a node serves. -/
def supported (g : Gateway) : List WorkloadType :=
  WorkloadType.startupOrder.filter fun t => t != .fourToSix || g.tunnel.isSome

end Gateway

end GatewayControl
