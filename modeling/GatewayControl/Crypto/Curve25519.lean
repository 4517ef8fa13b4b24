import GatewayControl.Crypto.Sha2
import GatewayControl.Key

/-!
# `GatewayControl.Crypto.Curve25519` -- key agreement and signing keys over one prime field

Numbers modulo `2 ^ 255 - 19`. `exchange` is the X25519 function: the coordinate of a point times a
clamped secret, by a ladder over the bits of the secret. `verifyingKey` is the public key of an
Ed25519 seed: the clamped half of its hash times the base point of the twisted Edwards curve.
-/

namespace GatewayControl.Crypto

/-- The prime of the field. -/
def prime : Nat := Nat.pow 2 255 - 19

/-- A number reduced to the field. -/
def reduce (n : Nat) : Nat := n % prime

/-- The difference in the field. -/
def sub (a b : Nat) : Nat := reduce (a + (prime - reduce b))

/-- The product in the field. -/
def mul (a b : Nat) : Nat := reduce (a * b)

/-- A power, from the low bits of the exponent up; `bits` of them are read. -/
def power : Nat → Nat → Nat → Nat
  | 0, _, _ => 1
  | bits + 1, base, exponent =>
    let rest := power bits (mul base base) (exponent / 2)
    if exponent % 2 = 1 then mul base rest else rest

/-- The inverse in the field; zero for zero. -/
def inverse (n : Nat) : Nat := power 255 n (prime - 2)

/-- The number whose little-endian bytes these are. -/
def ofLittleEndian : Bytes → Nat
  | [] => 0
  | b :: rest => b.toNat + 256 * ofLittleEndian rest

/-- A number as a key: 32 bytes, little-endian. -/
def toKey (n : Nat) : Key := ⟨(List.range 32).map fun i => (n >>> (8 * i)).toUInt8, by simp⟩

/-- A secret number with its three low bits cleared and its top bit set at place 254. -/
def clamp (n : Nat) : Nat := (n % Nat.pow 2 254) / 8 * 8 + Nat.pow 2 254

/-! ## Key agreement -/

/-- The two neighbouring multiples that the ladder carries, in projective form. -/
structure Ladder where
  x2 : Nat
  z2 : Nat
  x3 : Nat
  z3 : Nat

/-- The ladder with its two multiples exchanged. -/
def Ladder.swap (l : Ladder) : Ladder := ⟨l.x3, l.z3, l.x2, l.z2⟩

/-- Doubles the first multiple and adds the two, `u` being their difference. -/
def Ladder.step (u : Nat) (l : Ladder) : Ladder :=
  let a := reduce (l.x2 + l.z2)
  let b := sub l.x2 l.z2
  let c := reduce (l.x3 + l.z3)
  let d := sub l.x3 l.z3
  let aa := mul a a
  let bb := mul b b
  let e := sub aa bb
  let da := mul d a
  let cb := mul c b
  let sum := reduce (da + cb)
  let diff := sub da cb
  ⟨mul aa bb, mul e (reduce (aa + 121665 * e)), mul sum sum, mul u (mul diff diff)⟩

/-- The ladder over the lowest `bits` bits of the secret, highest first. -/
def ladder (k u : Nat) : Nat → Ladder → Ladder
  | 0, l => l
  | bits + 1, l =>
    ladder k u bits (if k.testBit bits then (l.swap.step u).swap else l.step u)

/-- The coordinate that a secret and the coordinate of a point agree on. -/
def exchange (secret point : Key) : Key :=
  let k := clamp (ofLittleEndian secret.bytes)
  -- the top bit of a coordinate is not part of it
  let u := reduce (ofLittleEndian point.bytes % Nat.pow 2 255)
  let l := ladder k u 255 ⟨1, 0, u, 1⟩
  toKey (mul l.x2 (inverse l.z2))

/-- The coordinate of the base point. -/
def basePoint : Key := toKey 9

/-- The public key of a secret. -/
def publicKey (secret : Key) : Key := exchange secret basePoint

/-- The other side contributed to a shared key: it is not zero. -/
def isContributory (shared : Key) : Bool := shared.bytes.any (· != 0)

/-! ## Signing keys -/

/-- A point of the twisted Edwards curve, with the product of its coordinates. -/
structure EdwardsPoint where
  x : Nat
  y : Nat
  z : Nat
  t : Nat

/-- The constant of the curve: -121665 / 121666. -/
def edwardsConstant : Nat := mul (prime - 121665) (inverse 121666)

/-- The sum of two points. -/
def EdwardsPoint.add (p q : EdwardsPoint) : EdwardsPoint :=
  let a := mul (sub p.y p.x) (sub q.y q.x)
  let b := mul (reduce (p.y + p.x)) (reduce (q.y + q.x))
  let c := mul (mul (2 * edwardsConstant) p.t) q.t
  let d := mul (2 * p.z) q.z
  let e := sub b a
  let f := sub d c
  let g := reduce (d + c)
  let h := reduce (b + a)
  ⟨mul e f, mul g h, mul f g, mul e h⟩

/-- The neutral point. -/
def EdwardsPoint.zero : EdwardsPoint := ⟨0, 1, 1, 0⟩

/-- A point times the lowest `bits` bits of a number. -/
def EdwardsPoint.times : Nat → EdwardsPoint → Nat → EdwardsPoint
  | 0, _, _ => zero
  | bits + 1, p, k =>
    let rest := times bits (p.add p) (k / 2)
    if k % 2 = 1 then p.add rest else rest

/-- The horizontal coordinate of the base point; the vertical one is 4/5. -/
def edwardsBaseX : Nat :=
  15112221349535400772501151409588531511454012693041857206046113283949847762202

/-- The base point. -/
def edwardsBase : EdwardsPoint :=
  let y := mul 4 (inverse 5)
  ⟨edwardsBaseX, y, 1, mul edwardsBaseX y⟩

/-- The public key of the signing key that a seed generates. -/
def verifyingKey (seed : Key) : Key :=
  let k := clamp (ofLittleEndian ((sha512 seed.bytes).take 32))
  let p := edwardsBase.times 255 k
  let i := inverse p.z
  let x := mul p.x i
  let y := mul p.y i
  -- the top bit tells the point from its mirror image
  toKey (y + (x % 2) * Nat.pow 2 255)

end GatewayControl.Crypto
