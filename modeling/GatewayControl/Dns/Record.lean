import GatewayControl.Net.Ip
import GatewayControl.Text.Quoted

/-!
# `GatewayControl.Dns.Record` -- the records that a name publishes

A record is data with a time to live. Its identity is the data: two records with the same data are
one record, whatever their time to live.
-/

namespace GatewayControl

/-- The record types that are modelled. -/
inductive RecordType where
  | a | aaaa | cname | txt
deriving DecidableEq, Repr

namespace RecordType

/-- All types, in the order in which they are listed. -/
def all : List RecordType := [a, aaaa, cname, txt]

/-- The key of a type in a stored record set. -/
def key : RecordType → String
  | a => "a"
  | aaaa => "aaaa"
  | cname => "cname"
  | txt => "txt"

/-- The name of a type as it is displayed. -/
def text : RecordType → String
  | a => "A"
  | aaaa => "AAAA"
  | cname => "CNAME"
  | txt => "TXT"

/-- The type of a key. -/
def ofKey? (key : String) : Option RecordType := all.find? fun t => t.key == key

end RecordType

/-- Data with a time to live in seconds. -/
structure Timed (α : Type) where
  data : α
  ttl : UInt32
deriving DecidableEq, Repr

/-- A record of one of the modelled types. -/
inductive Record where
  | a (record : Timed Ipv4)
  | aaaa (record : Timed Ipv6)
  | cname (record : Timed String)
  | txt (record : Timed String)
deriving DecidableEq, Repr

namespace Record

/-- The address record for an address: an `A` record for IPv4 and IPv4-mapped addresses. -/
def ofIp (ttl : UInt32) : Ip → Record
  | .v4 ip => a ⟨ip, ttl⟩
  | .v6 ip =>
    match ip.toIpv4Mapped? with
    | some v4 => a ⟨v4, ttl⟩
    | none => aaaa ⟨ip, ttl⟩

/-- The type of a record. -/
def type : Record → RecordType
  | a _ => .a
  | aaaa _ => .aaaa
  | cname _ => .cname
  | txt _ => .txt

/-- The time to live of a record. -/
def ttl : Record → UInt32
  | a r => r.ttl
  | aaaa r => r.ttl
  | cname r => r.ttl
  | txt r => r.ttl

/-- The two records publish the same data. -/
def sameData : Record → Record → Bool
  | a r, a s => r.data == s.data
  | aaaa r, aaaa s => r.data == s.data
  | cname r, cname s => r.data == s.data
  | txt r, txt s => r.data == s.data
  | _, _ => false

/-- The data of a record as it is displayed. -/
def dataText : Record → String
  | a r => r.data.text
  | aaaa r => r.data.text
  | cname r => r.data
  | txt r => Text.quoted r.data

/-- A record on one line. -/
def text (r : Record) : String :=
  r.type.text ++ " " ++ r.dataText ++ " ttl=" ++ toString r.ttl.toNat

end Record

end GatewayControl
