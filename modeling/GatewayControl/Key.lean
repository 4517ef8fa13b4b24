import GatewayControl.Error
import GatewayControl.Text.Base64
import GatewayControl.Text.CharTable
import GatewayControl.Text.Hex

/-!
# `GatewayControl.Key` -- keys of 32 bytes

Seeds, private keys and public keys are all 32 bytes. WireGuard writes a key in base64, the
directory of users writes one in hexadecimal; white space around either form is dropped.
-/

namespace GatewayControl

/-- A string of 32 bytes. -/
structure Key where
  bytes : Bytes
  size : bytes.length = 32
deriving DecidableEq, Repr

namespace Key

/-- The key of these bytes, if there are 32. -/
def ofBytes? (bytes : Bytes) : Option Key :=
  if h : bytes.length = 32 then some ⟨bytes, h⟩ else none

/-- The hexadecimal form of a key. -/
def hex (key : Key) : String := Text.Hex.text key.bytes

/-- The base64 form of a key, as WireGuard writes it. -/
def text (key : Key) : String := Text.Base64.text key.bytes

/-- The key that a base64 text spells. -/
def parse (s : String) : Except GatewayError Key :=
  match Text.Base64.decode (Bytes.ofText (Text.trim s)) with
  | .error fault => .error (.validation ("invalid wireguard key: " ++ fault.message))
  | .ok bytes =>
    match ofBytes? bytes with
    | some key => .ok key
    | none =>
      .error (.validation
        ("invalid wireguard key: expected 32 bytes, got " ++ toString bytes.length))

/-- The public key that a hexadecimal text of the directory spells. -/
def parseHex (s : String) : Except GatewayError Key :=
  match Text.Hex.decode (Bytes.ofText (Text.trim s)) with
  | .error fault => .error (.directory ("invalid public key hex: " ++ fault.message))
  | .ok bytes =>
    match ofBytes? bytes with
    | some key => .ok key
    | none =>
      .error (.directory ("public key must be 32 bytes, got " ++ toString bytes.length))

/-- What is shown of a key where its bytes must not be. -/
def redacted : String := "WgKey(..)"

end Key

end GatewayControl
