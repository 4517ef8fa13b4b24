import GatewayControl.Dns.Record
import GatewayControl.Json.Tree

/-!
# `GatewayControl.Dns.RecordSet` -- all records of one label

A record set holds a list of records for each modelled type, in the order in which their data was
first added, and the values of all other types as they were read. `add` refreshes the time to live
of data that is present and appends data that is not; `remove` drops every record with the data.

The stored form is an object with a list for each type that has records, followed by the other
types sorted by name.
-/

namespace GatewayControl

namespace Timed

variable {α : Type} [DecidableEq α]

/-- Puts a record in the place of the first one with its data, or at the end. -/
def upsert (record : Timed α) : List (Timed α) → List (Timed α)
  | [] => [record]
  | r :: rest => if r.data = record.data then record :: rest else r :: upsert record rest

/-- The records with other data. -/
def without (data : α) (records : List (Timed α)) : List (Timed α) :=
  records.filter fun r => r.data ≠ data

end Timed

/-- The records of one label. -/
structure RecordSet where
  a : List (Timed Ipv4)
  aaaa : List (Timed Ipv6)
  cname : List (Timed String)
  txt : List (Timed String)
  foreign : Json.Members

namespace RecordSet

/-- The set without records. -/
def empty : RecordSet := ⟨[], [], [], [], []⟩

/-- The set with a record added, or with the time to live of its data refreshed. -/
def insert (set : RecordSet) : Record → RecordSet
  | .a r => { set with a := Timed.upsert r set.a }
  | .aaaa r => { set with aaaa := Timed.upsert r set.aaaa }
  | .cname r => { set with cname := Timed.upsert r set.cname }
  | .txt r => { set with txt := Timed.upsert r set.txt }

/-- The set without the records that have the data of `record`. -/
def erase (set : RecordSet) : Record → RecordSet
  | .a r => { set with a := Timed.without r.data set.a }
  | .aaaa r => { set with aaaa := Timed.without r.data set.aaaa }
  | .cname r => { set with cname := Timed.without r.data set.cname }
  | .txt r => { set with txt := Timed.without r.data set.txt }

/-- The records of a type, in order. -/
def get (set : RecordSet) : RecordType → List Record
  | .a => set.a.map .a
  | .aaaa => set.aaaa.map .aaaa
  | .cname => set.cname.map .cname
  | .txt => set.txt.map .txt

/-- All records, type after type. -/
def toList (set : RecordSet) : List Record := RecordType.all.flatMap set.get

/-- A record with the same data is present. -/
def contains (set : RecordSet) (record : Record) : Bool :=
  (set.get record.type).any fun r => r.sameData record

/-- The first record of a set with the data of a record. -/
def find? (set : RecordSet) (record : Record) : Option Record :=
  (set.get record.type).find? fun r => r.sameData record

/-- Adding the record changes the set. -/
def addChanges (set : RecordSet) (record : Record) : Bool := set.find? record != some record

/-- Adds a record; the flag tells whether the set changed. -/
def add (set : RecordSet) (record : Record) : Bool × RecordSet :=
  (set.addChanges record, set.insert record)

/-- Removes the data of a record; the flag tells whether it was present. -/
def remove (set : RecordSet) (record : Record) : Bool × RecordSet :=
  (set.contains record, set.erase record)

/-- How many records of the modelled types there are. -/
def size (set : RecordSet) : Nat := set.toList.length

/-- A value of another type that stands for no records: null or an empty list. -/
def isVoid : Json.Value → Bool
  | .null => true
  | .array [] => true
  | _ => false

/-- No record of any type is left. -/
def isEmpty (set : RecordSet) : Bool :=
  set.toList.isEmpty && set.foreign.all fun (_, v) => isVoid v

/-- Equality of sets, the numbers in other types compared as numbers. -/
def same (s t : RecordSet) : Bool :=
  s.a == t.a && s.aaaa == t.aaaa && s.cname == t.cname && s.txt == t.txt &&
    Json.Value.same (.object s.foreign) (.object t.foreign)

/-! ## The stored form -/

/-- A record as an object: its data under `key`, then its time to live. -/
def recordValue (key data : String) (ttl : UInt32) : Json.Value :=
  .object [(key, .string data), ("ttl", .number (.int ttl.toNat))]

/-- A member for a list of records, unless the list is empty. -/
def listMember (key : String) (records : List Json.Value) : Json.Members :=
  if records.isEmpty then [] else [(key, .array records)]

/-- The stored form of a set. -/
def toValue (set : RecordSet) : Json.Value :=
  .object <|
    listMember "a" (set.a.map fun r => recordValue "ip" r.data.text r.ttl) ++
    listMember "aaaa" (set.aaaa.map fun r => recordValue "ip" r.data.text r.ttl) ++
    listMember "cname" (set.cname.map fun r => recordValue "host" r.data r.ttl) ++
    listMember "txt" (set.txt.map fun r => recordValue "text" r.data r.ttl) ++ set.foreign

/-- The stored bytes of a set. -/
def encode (set : RecordSet) : Bytes := set.toValue.bytes

/-- A record read from a tree: its data under `key`, and its time to live. -/
def recordOf? {α : Type} (key : String) (data? : String → Option α) (depth : Nat) (t : Json.Tree) :
    Option (Timed α) := do
  let (_, fields) ← t.record? [key, "ttl"] depth
  match fields with
  | [some data, some ttl] => return ⟨← data? (← data.text?), (← ttl.natBelow? 0x100000000).toUInt32⟩
  | _ => none

/-- A list of records read from a tree. -/
def listOf? {α : Type} (key : String) (data? : String → Option α) (depth : Nat) (t : Json.Tree) :
    Option (List (Timed α)) := do
  let (depth, items) ← t.items? depth
  items.mapM (recordOf? key data? depth)

/-- What has been read of a set: a list is `none` until its key has come. -/
structure Partial where
  a : Option (List (Timed Ipv4))
  aaaa : Option (List (Timed Ipv6))
  cname : Option (List (Timed String))
  txt : Option (List (Timed String))
  foreign : Json.Members

/-- Takes in one member: a list of a modelled type, at most once, or a value of another type. -/
def Partial.put (depth : Nat) (set : Partial) (key : String) (t : Json.Tree) : Option Partial :=
  if key = "a" then
    if set.a.isSome then none
    else do return { set with a := some (← listOf? "ip" Ipv4.parse? depth t) }
  else if key = "aaaa" then
    if set.aaaa.isSome then none
    else do return { set with aaaa := some (← listOf? "ip" Ipv6.parse? depth t) }
  else if key = "cname" then
    if set.cname.isSome then none
    else do return { set with cname := some (← listOf? "host" some depth t) }
  else if key = "txt" then
    if set.txt.isSome then none
    else do return { set with txt := some (← listOf? "text" some depth t) }
  else do return { set with foreign := Json.Members.insert key (← t.value? depth) set.foreign }

/-- Takes in the members of an object one after the other. -/
def Partial.putAll (depth : Nat) (set : Partial) : List (List Json.Piece × Json.Tree) → Option Partial
  | [] => some set
  | (key, t) :: rest => do
    let set ← set.put depth (← Json.pieceText? key) t
    set.putAll depth rest

/-- The set that a tree spells; only an object does. -/
def ofTree? : Nat → Json.Tree → Option RecordSet
  | depth + 1, .object fields => do
    let set ← Partial.putAll depth ⟨none, none, none, none, []⟩ fields
    return ⟨set.a.getD [], set.aaaa.getD [], set.cname.getD [], set.txt.getD [], set.foreign⟩
  | _, _ => none

/-- The set that stored bytes hold. -/
def decode? (bytes : Bytes) : Option RecordSet := do
  ofTree? Json.maxDepth (← Json.Tree.read? bytes)

end RecordSet

end GatewayControl
