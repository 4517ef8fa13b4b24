import GatewayControl.Error
import GatewayControl.Json.Tree
import GatewayControl.Text.Base64

/-!
# `GatewayControl.Routing.Entry` -- entries of the routing table and their stored form

An entry forwards a domain to a backend or hands it to a reverse tunnel. It is stored as a flat
service record in which a non-empty client secret selects the reverse tunnel; the record is JSON
in base64 inside an envelope that repeats the store key.
-/

namespace GatewayControl

/-- How connections for a domain reach their backend. -/
inductive Route where
  /-- Dial an address on one port for plain traffic and one for TLS. -/
  | forward (addr : String) (httpPort tlsPort : UInt16)
  /-- Hand them to the tunnel that its client opens with this secret. -/
  | reverse (clientSecret : String)
deriving DecidableEq, Repr

/-- An entry of the routing table. -/
structure RoutingEntry where
  owner : String
  route : Route
deriving DecidableEq, Repr

/-- The fields of an entry as they are stored. -/
structure ServiceRecord where
  addr : String
  clientSecret : String
  tlsPort : UInt16
  httpPort : UInt16
  user : String
deriving DecidableEq, Repr

namespace ServiceRecord

/-- The stored fields of an entry; what its kind does not use is left empty. -/
def ofEntry (entry : RoutingEntry) : ServiceRecord :=
  match entry.route with
  | .forward addr httpPort tlsPort => ⟨addr, "", tlsPort, httpPort, entry.owner⟩
  | .reverse secret => ⟨"", secret, 0, 0, entry.owner⟩

/-- The entry of stored fields. -/
def toEntry (r : ServiceRecord) : RoutingEntry :=
  if r.clientSecret = "" then ⟨r.user, .forward r.addr r.httpPort r.tlsPort⟩
  else ⟨r.user, .reverse r.clientSecret⟩

/-- The JSON form of the stored fields. -/
def toValue (r : ServiceRecord) : Json.Value :=
  .object [("addr", .string r.addr), ("clientsecret", .string r.clientSecret),
    ("tlsport", .number (.int r.tlsPort.toNat)), ("httpport", .number (.int r.httpPort.toNat)),
    ("user", .string r.user)]

/-- A text field, empty if absent. -/
def textField? : Option Json.Tree → Option String
  | none => some ""
  | some t => t.text?

/-- A port field, zero if absent. -/
def portField? : Option Json.Tree → Option UInt16
  | none => some 0
  | some t => (t.natBelow? 0x10000).map Nat.toUInt16

/-- The stored fields that a tree spells. -/
def ofTree? (depth : Nat) (t : Json.Tree) : Option ServiceRecord := do
  let (_, fields) ← t.record? ["addr", "clientsecret", "tlsport", "httpport", "user"] depth
  match fields with
  | [addr, secret, tlsPort, httpPort, user] =>
    return ⟨← textField? addr, ← textField? secret, ← portField? tlsPort, ← portField? httpPort,
      ← textField? user⟩
  | _ => none

end ServiceRecord

namespace RoutingEntry

/-- The entry hands connections to a reverse tunnel. -/
def isReverse (entry : RoutingEntry) : Bool :=
  match entry.route with
  | .forward _ _ _ => false
  | .reverse _ => true

/-- The JSON form of an entry. -/
def toValue (entry : RoutingEntry) : Json.Value := (ServiceRecord.ofEntry entry).toValue

/-- The entry that JSON text spells. -/
def read? (bytes : Bytes) : Option RoutingEntry := do
  return (← ServiceRecord.ofTree? Json.maxDepth (← Json.Tree.read? bytes)).toEntry

/-- The stored form of an entry under a store key. -/
def encode (key : String) (entry : RoutingEntry) : Bytes :=
  Json.Value.bytes <| .object
    [("Key", .string key), ("Value", .string (Text.Base64.text entry.toValue.bytes))]

/-- The key and the payload of an envelope. -/
def envelope? (bytes : Bytes) : Option (String × String) := do
  let (_, fields) ← (← Json.Tree.read? bytes).record? ["Key", "Value"] Json.maxDepth
  match fields with
  | [some key, some value] => return (← key.text?, ← value.text?)
  | _ => none

/-- The entry that stored bytes hold. -/
def decode (bytes : Bytes) : Except GatewayError RoutingEntry :=
  match envelope? bytes with
  | none => .error .json
  | some (_, payload) =>
    match Text.Base64.decode (Bytes.ofText payload) with
    | .error fault => .error (.storage (.other ("corrupt routing envelope: " ++ fault.message)))
    | .ok service =>
      match read? service with
      | none => .error .json
      | some entry => .ok entry

end RoutingEntry

end GatewayControl
