import GatewayControl.Crypto.Curve25519
import GatewayControl.Crypto.Gcm

/-!
# `GatewayControl.Secret` -- secrets sealed between two keys

A sealed secret is written in hexadecimal: a nonce of 12 bytes, the encrypted text and a tag of 16
bytes. Its key is the SHA-256 hash of what the secret key of one side and the public key of the
other agree on, so each side can open what the other sealed.
-/

namespace GatewayControl.Secret

/-- The encryption key between a secret key and a public key. A public key of low order would make
it predictable and is refused. -/
def sharedKey (secret peer : Key) : Except GatewayError Bytes :=
  let shared := Crypto.exchange secret peer
  if Crypto.isContributory shared then .ok (Crypto.sha256 shared.bytes)
  else .error (.validation "peer public key is a low-order point")

/-- The sealed form of a text under a nonce. -/
def sealWith (nonce : Bytes) (text : String) (secret peer : Key) : Except GatewayError String := do
  let key ← sharedKey secret peer
  return Text.Hex.text (nonce ++ Crypto.Gcm.encrypt key nonce (Bytes.ofText text))

/-- The text of a sealed form. White space around it is dropped, and its digits may be of either
case. -/
def openSealed (sealed : String) (secret peer : Key) : Except GatewayError String := do
  let raw ← match Text.Hex.decode (Bytes.ofText (Text.trim sealed)) with
    | .ok raw => .ok raw
    | .error fault => .error (.validation ("secret is not valid hex: " ++ fault.message))
  if raw.length < Crypto.Gcm.nonceSize + Crypto.Gcm.tagSize then
    throw (.validation "secret is too short")
  let key ← sharedKey secret peer
  let nonce := raw.take Crypto.Gcm.nonceSize
  match Crypto.Gcm.decrypt? key nonce (raw.drop Crypto.Gcm.nonceSize) with
  | none => throw (.validation "failed to decrypt secret")
  | some text =>
    match Bytes.toText? text with
    | none => throw (.validation "decrypted secret is not utf-8")
    | some text => return text

end GatewayControl.Secret
