import GatewayControl.Key
import GatewayControl.Tunnel.Pool
import Std.Data.ExtTreeMap

/-!
# `GatewayControl.Tunnel.Device` -- the device that carries the tunnels

The device is the only table of peers. Setting it up, and tearing it down, empties the table;
adding a peer that is present replaces it, and removing one that is absent does nothing.
`TunnelDevice` is what a device has to offer, `MemoryDevice` one that lives in memory.
-/

namespace GatewayControl

/-- What a device is set up with. -/
structure DeviceSetup where
  privateKey : Key
  listenPort : UInt16
  address : Ipv6Cidr
deriving DecidableEq

/-- A peer of the device: the one address that is routed to its key. -/
structure PeerUpdate where
  publicKey : Key
  allowedIp : Ipv6
  keepaliveSecs : UInt16
deriving DecidableEq

/-- A request to the device. -/
inductive DeviceCall where
  | setup (config : DeviceSetup)
  | upsert (peer : PeerUpdate)
  | remove (publicKey : Key)
  | teardown
deriving DecidableEq

/-- A device: a type of states, and what each request does to them. -/
class TunnelDevice (δ : Type) where
  step : DeviceCall → δ → Except GatewayError Unit × δ

/-- A device in memory: what it was set up with, and its peers by the text of their keys. -/
structure MemoryDevice where
  config : Option DeviceSetup
  peers : Std.ExtTreeMap String PeerUpdate

namespace MemoryDevice

/-- The device that is not set up. -/
def empty : MemoryDevice := ⟨none, ∅⟩

/-- The device is set up. -/
def isUp (d : MemoryDevice) : Bool := d.config.isSome

/-- The refusal of a device that is not set up. -/
def notUp : GatewayError := .device "tunnel device is not set up"

/-- Answers one request. -/
def step (call : DeviceCall) (d : MemoryDevice) : Except GatewayError Unit × MemoryDevice :=
  match call with
  | .setup config => (.ok (), ⟨some config, ∅⟩)
  | .upsert peer =>
    if d.isUp then (.ok (), { d with peers := d.peers.insert peer.publicKey.text peer })
    else (.error notUp, d)
  | .remove key =>
    if d.isUp then (.ok (), { d with peers := d.peers.erase key.text }) else (.error notUp, d)
  | .teardown => (.ok (), empty)

instance : TunnelDevice MemoryDevice := ⟨step⟩

end MemoryDevice

end GatewayControl
