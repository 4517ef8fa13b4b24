import GatewayControl.Json.Value
import GatewayControl.Tunnel.Device

/-!
# `GatewayControl.Authority.Tunnel` -- tunnels of users

Nobody owns a tunnel: the address of a user follows from the seed of the gateway, and the peer
table of the device is the only record of who is connected. A peer is known by its key, however
the key is spelled.
-/

namespace GatewayControl

/-- A peer as a client configures it. -/
structure TunnelPeer where
  publicKey : String
  endpoint : String
  allowedIps : List String
deriving DecidableEq, Repr

/-- What a client needs to bring up its side of a tunnel. -/
structure PeerConfig where
  ips : List String
  peers : List TunnelPeer
deriving DecidableEq, Repr

/-- The JSON form of a client's configuration. -/
def PeerConfig.toValue (config : PeerConfig) : Json.Value :=
  .object [
    ("ips", .array (config.ips.map .string)),
    ("peers", .array (config.peers.map fun p => .object [
      ("public_key", .string p.publicKey),
      ("endpoint", .string p.endpoint),
      ("allowed_ips", .array (p.allowedIps.map .string))]))]

/-- The authority over tunnels. -/
structure TunnelAuthority where
  /-- The seed of the gateway, which is also its private WireGuard key. -/
  seed : Key
  publicKey : Key
  endpoint : String
  listenPort : UInt16
  keepaliveSecs : UInt16

namespace TunnelAuthority

variable {δ : Type} [TunnelDevice δ]

/-- The address of a user. -/
def address (auth : TunnelAuthority) (user : String) : Ipv6 := Pool.address auth.seed.bytes user

/-- What the device is set up with. -/
def deviceSetup (auth : TunnelAuthority) : DeviceSetup :=
  ⟨auth.seed, auth.listenPort, Pool.gateway auth.seed.bytes⟩

/-- The peer that stands for a user with a key. -/
def peerUpdate (auth : TunnelAuthority) (user : String) (key : Key) : PeerUpdate :=
  ⟨key, auth.address user, auth.keepaliveSecs⟩

/-- The client side of a user's tunnel: its address, and the gateway as the peer for all traffic. -/
def clientConfig (auth : TunnelAuthority) (user : String) : PeerConfig :=
  ⟨[(auth.address user).text], [⟨auth.publicKey.text, auth.endpoint, ["::/0"]⟩]⟩

/-- Sets the device up. -/
def setup (auth : TunnelAuthority) (d : δ) : Except GatewayError Unit × δ :=
  TunnelDevice.step (.setup auth.deviceSetup) d

/-- Tears the device down. -/
def teardown (d : δ) : Except GatewayError Unit × δ := TunnelDevice.step .teardown d

/-- The request that adds a peer. -/
def addRequest (auth : TunnelAuthority) (user publicKey : String) : Except GatewayError DeviceCall := do
  requireUser user
  return .upsert (auth.peerUpdate user (← Key.parse publicKey))

/-- Grants a key the address of a user. -/
def addPeer (auth : TunnelAuthority) (user publicKey : String) (d : δ) :
    Except GatewayError PeerConfig × δ :=
  match auth.addRequest user publicKey with
  | .error e => (.error e, d)
  | .ok request =>
    let (result, d) := TunnelDevice.step request d
    (result.map fun () => auth.clientConfig user, d)

/-- Drops the peer of a key; an absent one is no fault. -/
def removePeer (publicKey : String) (d : δ) : Except GatewayError Unit × δ :=
  match Key.parse publicKey with
  | .error e => (.error e, d)
  | .ok key => TunnelDevice.step (.remove key) d

end TunnelAuthority

end GatewayControl
