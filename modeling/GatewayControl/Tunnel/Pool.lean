import GatewayControl.Crypto.Sha2
import GatewayControl.Net.Ip

/-!
# `GatewayControl.Tunnel.Pool` -- the addresses of tunnel clients

Addresses are derived and never stored: the network is `fd` and seven bytes of the hash of the
seed, the host part eight bytes of the hash of the seed followed by the user. The gateway itself
has host part one.
-/

namespace GatewayControl

/-- An IPv6 address with the length of its network part. -/
structure Ipv6Cidr where
  addr : Ipv6
  prefixLen : UInt8
deriving DecidableEq

/-- The text of an address with its length. -/
def Ipv6Cidr.text (cidr : Ipv6Cidr) : String := cidr.addr.text ++ "/" ++ toString cidr.prefixLen

namespace Pool

/-- The eight bytes of the network. -/
def network (seed : Bytes) : Bytes := 0xfd :: (Crypto.sha256 seed).take 7

/-- The address of a user. -/
def address (seed : Bytes) (user : String) : Ipv6 :=
  Ipv6.ofBytes (network seed ++ (Crypto.sha256 (seed ++ Bytes.ofText user)).take 8)

/-- The network of all addresses. -/
def subnet (seed : Bytes) : Ipv6Cidr := ⟨Ipv6.ofBytes (network seed), 64⟩

/-- The address of the gateway in its network. -/
def gateway (seed : Bytes) : Ipv6Cidr :=
  ⟨Ipv6.ofBytes (network seed ++ [0, 0, 0, 0, 0, 0, 0, 1]), 64⟩

/-- What is shown of the pool of a seed. -/
def shown (seed : Bytes) : String :=
  "AddressPool \x7b subnet: Ipv6Cidr \x7b addr: " ++ (subnet seed).addr.text ++
    ", prefix_len: 64 \x7d, .. \x7d"

end Pool

end GatewayControl
