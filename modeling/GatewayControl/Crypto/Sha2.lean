import GatewayControl.Text.Bytes

/-!
# `GatewayControl.Crypto.Sha2` -- the SHA-2 hash functions

Both hashes are one algorithm on words of 32 or 64 bits: a message is padded to whole blocks of
sixteen words, and each block is mixed into eight words of state. Words are natural numbers below
`2 ^ bits`. The constants are fractional bits of roots of the first primes; the shorter words use
the upper halves of the longer ones.
-/

namespace GatewayControl.Crypto

/-- Fractional bits of the cube roots of the first eighty primes. -/
def roundConstants : List Nat := [
    0x428a2f98d728ae22, 0x7137449123ef65cd, 0xb5c0fbcfec4d3b2f, 0xe9b5dba58189dbbc,
    0x3956c25bf348b538, 0x59f111f1b605d019, 0x923f82a4af194f9b, 0xab1c5ed5da6d8118,
    0xd807aa98a3030242, 0x12835b0145706fbe, 0x243185be4ee4b28c, 0x550c7dc3d5ffb4e2,
    0x72be5d74f27b896f, 0x80deb1fe3b1696b1, 0x9bdc06a725c71235, 0xc19bf174cf692694,
    0xe49b69c19ef14ad2, 0xefbe4786384f25e3, 0x0fc19dc68b8cd5b5, 0x240ca1cc77ac9c65,
    0x2de92c6f592b0275, 0x4a7484aa6ea6e483, 0x5cb0a9dcbd41fbd4, 0x76f988da831153b5,
    0x983e5152ee66dfab, 0xa831c66d2db43210, 0xb00327c898fb213f, 0xbf597fc7beef0ee4,
    0xc6e00bf33da88fc2, 0xd5a79147930aa725, 0x06ca6351e003826f, 0x142929670a0e6e70,
    0x27b70a8546d22ffc, 0x2e1b21385c26c926, 0x4d2c6dfc5ac42aed, 0x53380d139d95b3df,
    0x650a73548baf63de, 0x766a0abb3c77b2a8, 0x81c2c92e47edaee6, 0x92722c851482353b,
    0xa2bfe8a14cf10364, 0xa81a664bbc423001, 0xc24b8b70d0f89791, 0xc76c51a30654be30,
    0xd192e819d6ef5218, 0xd69906245565a910, 0xf40e35855771202a, 0x106aa07032bbd1b8,
    0x19a4c116b8d2d0c8, 0x1e376c085141ab53, 0x2748774cdf8eeb99, 0x34b0bcb5e19b48a8,
    0x391c0cb3c5c95a63, 0x4ed8aa4ae3418acb, 0x5b9cca4f7763e373, 0x682e6ff3d6b2b8a3,
    0x748f82ee5defb2fc, 0x78a5636f43172f60, 0x84c87814a1f0ab72, 0x8cc702081a6439ec,
    0x90befffa23631e28, 0xa4506cebde82bde9, 0xbef9a3f7b2c67915, 0xc67178f2e372532b,
    0xca273eceea26619c, 0xd186b8c721c0c207, 0xeada7dd6cde0eb1e, 0xf57d4f7fee6ed178,
    0x06f067aa72176fba, 0x0a637dc5a2c898a6, 0x113f9804bef90dae, 0x1b710b35131c471b,
    0x28db77f523047d84, 0x32caab7b40c72493, 0x3c9ebe0a15c9bebc, 0x431d67c49c100d4c,
    0x4cc5d4becb3e42b6, 0x597f299cfc657e2a, 0x5fcb6fab3ad6faec, 0x6c44198c4a475817
  ]

/-- Fractional bits of the square roots of the first eight primes. -/
def initialState : List Nat := [
    0x6a09e667f3bcc908, 0xbb67ae8584caa73b, 0x3c6ef372fe94f82b, 0xa54ff53a5f1d36f1,
    0x510e527fade682d1, 0x9b05688c2b3e6c1f, 0x1f83d9abfb41bd6b, 0x5be0cd19137e2179
  ]

/-- Three shifts of a mixing function: two or three rotations, and for two of the functions a
plain shift in third place. -/
structure Shifts where
  first : Nat
  second : Nat
  third : Nat

/-- A member of the family. -/
structure Sha2 where
  /-- Bits of a word. -/
  bits : Nat
  rounds : Nat
  /-- The functions of the message schedule. -/
  small0 : Shifts
  small1 : Shifts
  /-- The functions of a round. -/
  big0 : Shifts
  big1 : Shifts

/-- The member with 32-bit words. -/
def sha256Parameters : Sha2 :=
  ⟨32, 64, ⟨7, 18, 3⟩, ⟨17, 19, 10⟩, ⟨2, 13, 22⟩, ⟨6, 11, 25⟩⟩

/-- The member with 64-bit words. -/
def sha512Parameters : Sha2 :=
  ⟨64, 80, ⟨1, 8, 7⟩, ⟨19, 61, 6⟩, ⟨28, 34, 39⟩, ⟨14, 18, 41⟩⟩

namespace Sha2

variable (h : Sha2)

/-- A number reduced to a word. -/
def word (n : Nat) : Nat := n % Nat.pow 2 h.bits

/-- A word rotated to the right. -/
def rotate (x n : Nat) : Nat := h.word ((x >>> n) ||| (x <<< (h.bits - n)))

/-- Two rotations and a shift. -/
def small (s : Shifts) (x : Nat) : Nat := h.rotate x s.first ^^^ h.rotate x s.second ^^^ (x >>> s.third)

/-- Three rotations. -/
def big (s : Shifts) (x : Nat) : Nat :=
  h.rotate x s.first ^^^ h.rotate x s.second ^^^ h.rotate x s.third

/-- Chooses bits of `f` or `g` by the bits of `e`. -/
def choose (e f g : Nat) : Nat := (e &&& f) ^^^ ((Nat.pow 2 h.bits - 1 - e) &&& g)

/-- The majority of three bits. -/
def majority (a b c : Nat) : Nat := (a &&& b) ^^^ (a &&& c) ^^^ (b &&& c)

/-- A constant of the longer words, cut to the word size. -/
def constant (n : Nat) : Nat := n >>> (64 - h.bits)

/-- The number whose big-endian bytes these are. -/
def ofBytes (bytes : Bytes) : Nat := bytes.foldl (fun n b => n * 256 + b.toNat) 0

/-- A number as `count` bytes, big-endian. -/
def toBytes (count n : Nat) : Bytes :=
  (List.range count).map fun i => (n >>> (8 * (count - 1 - i))).toUInt8

/-- The message with a set bit, zeros, and its length in bits, up to whole blocks. -/
def pad (message : Bytes) : Bytes :=
  let block := 2 * h.bits
  let lengthBytes := h.bits / 4
  let used := message.length + 1 + lengthBytes
  let zeros := (block - used % block) % block
  message ++ 0x80 :: List.replicate zeros 0 ++ toBytes lengthBytes (8 * message.length)

/-- Sixteen words from each block. -/
def blocks (count : Nat) (bytes : Bytes) : List (List Nat) :=
  let size := h.bits / 8
  (List.range count).map fun b =>
    (List.range 16).map fun w => ofBytes ((bytes.drop ((b * 16 + w) * size)).take size)

/-- The words of a block continued by `count` more; the words are kept last first. -/
def extend : Nat → List Nat → List Nat
  | 0, words => words
  | count + 1, words =>
    let back := fun i => words.getD (i - 1) 0
    extend count
      (h.word (h.small h.small1 (back 2) + back 7 + h.small h.small0 (back 15) + back 16) :: words)

/-- One round on the state. -/
def round (state : List Nat) (k : Nat) (w : Nat) : List Nat :=
  match state with
  | [a, b, c, d, e, f, g, l] =>
    let t1 := l + h.big h.big1 e + h.choose e f g + h.constant k + w
    let t2 := h.big h.big0 a + majority a b c
    [h.word (t1 + t2), a, b, c, h.word (d + t1), e, f, g]
  | state => state

/-- A block mixed into the state. -/
def compress (state block : List Nat) : List Nat :=
  let schedule := (h.extend (h.rounds - 16) block.reverse).reverse
  let mixed := (roundConstants.zip schedule).foldl (fun s (k, w) => h.round s k w) state
  List.zipWith (fun x y => h.word (x + y)) state mixed

/-- The hash of a message. -/
def hash (message : Bytes) : Bytes :=
  let padded := h.pad message
  let blocks := h.blocks (padded.length / (2 * h.bits)) padded
  let state := blocks.foldl h.compress (initialState.map h.constant)
  state.flatMap (toBytes (h.bits / 8))

end Sha2

/-- SHA-256: 32 bytes. -/
def sha256 (message : Bytes) : Bytes := sha256Parameters.hash message

/-- SHA-512: 64 bytes. -/
def sha512 (message : Bytes) : Bytes := sha512Parameters.hash message

end GatewayControl.Crypto
