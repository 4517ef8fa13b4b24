import GatewayControl.Crypto.Aes
import GatewayControl.Crypto.Sha2

/-!
# `GatewayControl.Crypto.Gcm` -- authenticated encryption with AES-256

A text is added to a key stream that the key and a nonce of twelve bytes determine; a tag of
sixteen bytes authenticates the result. No further data is authenticated.
-/

namespace GatewayControl.Crypto.Gcm

/-- Bytes of a nonce. -/
def nonceSize : Nat := 12

/-- Bytes of a tag. -/
def tagSize : Nat := 16

/-- The key as it is used: its round keys, and the multiplier of the authentication. -/
structure Schedule where
  roundKeys : List Bytes
  multiplier : Nat

/-- The schedule of a key of 32 bytes. -/
def schedule (key : Bytes) : Schedule :=
  let keys := Aes.roundKeys key
  ⟨keys, Sha2.ofBytes (Aes.encryptWith keys (List.replicate 16 0))⟩

/-- The block of the key stream for a nonce and a counter, exactly sixteen bytes. -/
def streamBlock (s : Schedule) (nonce : Bytes) (counter : Nat) : Bytes :=
  let block := Aes.encryptWith s.roundKeys (nonce ++ Sha2.toBytes 4 counter)
  (List.range 16).map fun i => block.getD i 0

/-- The first `count` bytes of the key stream for a text; its counter starts at two. -/
def stream (s : Schedule) (nonce : Bytes) (count : Nat) : Bytes :=
  ((List.range ((count + 15) / 16)).flatMap fun i => streamBlock s nonce (i + 2)).take count

/-- Bytes added place by place. -/
def add (a b : Bytes) : Bytes := List.zipWith (· ^^^ ·) a b

/-- The text added to its key stream; doing it twice gives the text back. -/
def crypt (s : Schedule) (nonce text : Bytes) : Bytes := add text (stream s nonce text.length)

/-- One step of a product: the accumulated sum, and the factor times the indeterminate. -/
def productStep (y : Nat) (acc : Nat × Nat) (i : Nat) : Nat × Nat :=
  let (z, v) := acc
  let z := if y.testBit (127 - i) then z ^^^ v else z
  let v := if v.testBit 0 then (v >>> 1) ^^^ (0xe1 <<< 120) else v >>> 1
  (z, v)

/-- The product in the field of 128 bits, the highest bit the constant term. -/
def product (x y : Nat) : Nat := ((List.range 128).foldl (productStep y) (0, x)).1

/-- The blocks of a text as numbers, the last one filled up with zeros. -/
def blockNumbers (text : Bytes) : List Nat :=
  (List.range ((text.length + 15) / 16)).map fun i =>
    let block := (text.drop (16 * i)).take 16
    Sha2.ofBytes (block ++ List.replicate (16 - block.length) 0)

/-- The tag of an encrypted text. -/
def tag (s : Schedule) (nonce text : Bytes) : Bytes :=
  -- the last block holds the length in bits
  let mixed := (blockNumbers text ++ [8 * text.length]).foldl
    (fun acc b => product (acc ^^^ b) s.multiplier) 0
  add (Sha2.toBytes tagSize mixed) (streamBlock s nonce 1)

/-- The encrypted text with its tag. -/
def encrypt (key nonce text : Bytes) : Bytes :=
  let s := schedule key
  let sealed := crypt s nonce text
  sealed ++ tag s nonce sealed

/-- The text of an encrypted one with its tag, if the tag is right. -/
def decrypt? (key nonce sealed : Bytes) : Option Bytes :=
  let s := schedule key
  let cut := sealed.length - tagSize
  let text := sealed.take cut
  if sealed.drop cut = tag s nonce text then some (crypt s nonce text) else none

end GatewayControl.Crypto.Gcm
