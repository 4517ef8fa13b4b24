/-!
# `GatewayControl.Net.Ip` -- addresses of both families and their texts

An IPv4 address is written as four decimal numbers without leading zeros. An IPv6 address is
written as eight groups of hexadecimal digits, the first longest run of two or more zero groups
replaced by `::`; an IPv4-mapped one ends in the IPv4 form. Reading accepts every form in which
`::` stands for at least one group and an IPv4 form stands last.
-/

namespace GatewayControl

/-- An IPv4 address. -/
structure Ipv4 where
  a : UInt8
  b : UInt8
  c : UInt8
  d : UInt8
deriving DecidableEq, Repr

/-- An IPv6 address: eight groups of sixteen bits. -/
structure Ipv6 where
  groups : List UInt16
  eight : groups.length = 8
deriving DecidableEq, Repr

/-- An address of either family. -/
inductive Ip where
  | v4 (ip : Ipv4)
  | v6 (ip : Ipv6)
deriving DecidableEq, Repr

/-- The number that a digit of the base stands for, up to base sixteen and in either case. -/
def digitIn? (base : Nat) (c : Char) : Option Nat :=
  let n :=
    if c.isDigit then c.toNat - 48
    else if 'a' ≤ c ∧ c ≤ 'f' then c.toNat - 87
    else if 'A' ≤ c ∧ c ≤ 'F' then c.toNat - 55
    else base
  if n < base then some n else none

/-- The digits of the base at the start of a text, and what follows them. -/
def spanDigits (base : Nat) : List Char → List Nat × List Char
  | [] => ([], [])
  | c :: cs =>
    match digitIn? base c with
    | some n => let (digits, rest) := spanDigits base cs; (n :: digits, rest)
    | none => ([], c :: cs)

/-- The number of a list of digits of a base. -/
def ofDigits (base : Nat) (digits : List Nat) : Nat := digits.foldl (fun n d => n * base + d) 0

namespace Ipv4

/-- The text of an address. -/
def chars (ip : Ipv4) : List Char :=
  let part := fun n : UInt8 => Nat.toDigits 10 n.toNat
  part ip.a ++ '.' :: part ip.b ++ '.' :: part ip.c ++ '.' :: part ip.d

/-- The text of an address. -/
def text (ip : Ipv4) : String := String.ofList ip.chars

/-- One of the four numbers: at most three digits, no zero before another digit, below 256. -/
def readPart (cs : List Char) : Option (UInt8 × List Char) :=
  match spanDigits 10 cs with
  | ([], _) => none
  | (digits, rest) =>
    if 3 < digits.length ∨ (1 < digits.length ∧ digits.head? = some 0) then none
    else if 255 < ofDigits 10 digits then none
    else some ((ofDigits 10 digits).toUInt8, rest)

/-- What follows a point. -/
def afterPoint : List Char → Option (List Char)
  | '.' :: cs => some cs
  | _ => none

/-- An address at the start of a text, and what follows it. -/
def read (cs : List Char) : Option (Ipv4 × List Char) := do
  let (a, cs) ← readPart cs
  let (b, cs) ← readPart (← afterPoint cs)
  let (c, cs) ← readPart (← afterPoint cs)
  let (d, cs) ← readPart (← afterPoint cs)
  return (⟨a, b, c, d⟩, cs)

/-- The address that a whole text spells. -/
def parse? (s : String) : Option Ipv4 :=
  match read s.toList with
  | some (ip, []) => some ip
  | _ => none

/-- The two groups that hold an IPv4 address. -/
def groups (ip : Ipv4) : List UInt16 :=
  [ip.a.toUInt16 * 256 + ip.b.toUInt16, ip.c.toUInt16 * 256 + ip.d.toUInt16]

end Ipv4

namespace Ipv6

/-- The IPv4 address that an IPv4-mapped address holds. -/
def toIpv4Mapped? (ip : Ipv6) : Option Ipv4 :=
  match ip.groups with
  | [0, 0, 0, 0, 0, 0xffff, x, y] =>
    some ⟨(x / 256).toUInt8, x.toUInt8, (y / 256).toUInt8, y.toUInt8⟩
  | _ => none

/-- How many zero groups a list starts with. -/
def leadingZeros : List UInt16 → Nat
  | 0 :: gs => leadingZeros gs + 1
  | _ => 0

/-- The start and the length of the first longest run of zero groups, `i` being the position of
the first group. -/
def longestZeros (i : Nat) : List UInt16 → Nat × Nat
  | [] => (0, 0)
  | g :: gs =>
    let here := leadingZeros (g :: gs)
    let (start, length) := longestZeros (i + 1) gs
    if length ≤ here ∧ 0 < here then (i, here) else (start, length)

/-- Groups in hexadecimal, separated by colons. -/
def groupChars : List UInt16 → List Char
  | [] => []
  | [g] => Nat.toDigits 16 g.toNat
  | g :: gs => Nat.toDigits 16 g.toNat ++ ':' :: groupChars gs

/-- The text of an address. -/
def chars (ip : Ipv6) : List Char :=
  match ip.toIpv4Mapped? with
  | some v4 => "::ffff:".toList ++ v4.chars
  | none =>
    let (start, length) := longestZeros 0 ip.groups
    if 1 < length then
      groupChars (ip.groups.take start) ++ ':' :: ':' :: groupChars (ip.groups.drop (start + length))
    else groupChars ip.groups

/-- The text of an address. -/
def text (ip : Ipv6) : String := String.ofList ip.chars

/-- One group: at most four digits. -/
def readGroup (cs : List Char) : Option (UInt16 × List Char) :=
  match spanDigits 16 cs with
  | ([], _) => none
  | (digits, rest) => if 4 < digits.length then none else some ((ofDigits 16 digits).toUInt16, rest)

/-- The text after the colon that stands before every group but the first. -/
def afterColon (first : Bool) : List Char → Option (List Char)
  | cs => if first then some cs else match cs with
    | ':' :: cs => some cs
    | _ => none

/-- As many groups as there are, at most `limit`, whether an IPv4 form ended them, and what
follows. An IPv4 form counts for two groups. -/
def readGroups (first : Bool) : Nat → List Char → List UInt16 × Bool × List Char
  | 0, cs => ([], false, cs)
  | limit + 1, cs =>
    match (if limit = 0 then none else (afterColon first cs).bind Ipv4.read) with
    | some (v4, rest) => (v4.groups, true, rest)
    | none =>
      match (afterColon first cs).bind readGroup with
      | some (g, rest) =>
        let (gs, mapped, rest) := readGroups false limit rest
        (g :: gs, mapped, rest)
      | none => ([], false, cs)

/-- An address from groups before and after `::`. -/
def ofHeadTail (head tail : List UInt16) : Option Ipv6 :=
  let all := head ++ List.replicate (8 - head.length - tail.length) 0 ++ tail
  if h : all.length = 8 then some ⟨all, h⟩ else none

/-- An address at the start of a text, and what follows it. -/
def read (cs : List Char) : Option (Ipv6 × List Char) :=
  match readGroups true 8 cs with
  | (head, mapped, rest) =>
    if h : head.length = 8 then some (⟨head, h⟩, rest)
    else if mapped then none
    else match rest with
      | ':' :: ':' :: rest =>
        match readGroups true (8 - (head.length + 1)) rest with
        | (tail, _, rest) => (ofHeadTail head tail).map (·, rest)
      | _ => none

/-- The address that a whole text spells. -/
def parse? (s : String) : Option Ipv6 :=
  match read s.toList with
  | some (ip, []) => some ip
  | _ => none

/-- The address of sixteen bytes, the first byte first; missing bytes are zero. -/
def ofBytes (bytes : List UInt8) : Ipv6 :=
  let byte := fun i => (bytes.getD i 0).toUInt16
  ⟨(List.range 8).map fun i => byte (2 * i) * 256 + byte (2 * i + 1), by simp⟩

end Ipv6

namespace Ip

/-- The text of an address. -/
def text : Ip → String
  | v4 ip => ip.text
  | v6 ip => ip.text

/-- The address that a whole text spells, of the family that its start shows. -/
def parse? (s : String) : Option Ip :=
  match Ipv4.read s.toList with
  | some (ip, []) => some (.v4 ip)
  | some _ => none
  | none => (Ipv6.parse? s).map .v6

end Ip

end GatewayControl
