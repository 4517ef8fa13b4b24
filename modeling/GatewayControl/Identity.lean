import GatewayControl.Crypto.Curve25519
import GatewayControl.Text.Quoted

/-!
# `GatewayControl.Identity` -- who a gateway is

One seed of 32 bytes determines every secret of a gateway: its signing key, its WireGuard key, the
key that opens sealed secrets, and the pool of tunnel addresses. The gateway is known by a name,
which is its public signing key in hexadecimal unless one is given.
-/

namespace GatewayControl

/-- What a gateway is known by, and the seed behind it. -/
structure Identity where
  seed : Key
  name : String
  /-- The public signing key. -/
  publicKey : Key
  /-- The public WireGuard key, which is also the key that secrets are sealed to. -/
  wireguardKey : Key

namespace Identity

/-- The seed of these bytes. -/
def seedOfBytes (bytes : Bytes) : Except GatewayError Key :=
  match Key.ofBytes? bytes with
  | some seed => .ok seed
  | none => .error (.config ("seed must be 32 bytes, got " ++ toString bytes.length))

/-- The seed that 64 digits spell. -/
def seedOfHex (text : String) : Except GatewayError Key :=
  match Text.Hex.decode (Bytes.ofText (Text.trim text)) with
  | .ok bytes => seedOfBytes bytes
  | .error fault => .error (.config ("invalid seed hex: " ++ fault.message))

/-- The seed in a file: 32 bytes as they are, or digits. -/
def seedOfFile (path : String) (contents : Bytes) : Except GatewayError Key :=
  if contents.length = 32 then seedOfBytes contents
  else match Bytes.toText? contents with
    | some text => seedOfHex text
    | none => .error (.config ("seed file " ++ path ++ " is not hex text"))

/-- The identity of a seed; an empty name counts as none. -/
def ofSeed (seed : Key) (name : Option String) : Identity :=
  let publicKey := Crypto.verifyingKey seed
  let name := match name with
    | some name => if name = "" then publicKey.hex else name
    | none => publicKey.hex
  ⟨seed, name, publicKey, Crypto.publicKey seed⟩

/-- What is shown of an identity where its seed must not be. -/
def shown (identity : Identity) : String :=
  "GatewayIdentity \x7b name: " ++ Text.quoted identity.name ++ ", public_key: " ++
    Text.quoted identity.publicKey.hex ++ ", .. \x7d"

/-- What is shown of a seed. -/
def shownSeed : String := "GatewaySeed(..)"

end Identity

end GatewayControl
