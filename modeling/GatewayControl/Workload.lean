import GatewayControl.Dns.Name
import GatewayControl.Json.Diagnosis
import GatewayControl.Json.Shape
import GatewayControl.Json.Tree
import GatewayControl.Key
import GatewayControl.Net.Ip

/-!
# `GatewayControl.Workload` -- what users ask a gateway to provide

A workload names its user, its type and a payload whose shape the type determines. `decode` reads
and checks a payload. Batches are provided in `startupOrder`, so that zones exist before names are
claimed in them; workloads of one type keep their order.
-/

namespace GatewayControl

/-- The types of workloads. -/
inductive WorkloadType where
  | proxy | reverseProxy | subdomain | delegate | fourToSix
deriving DecidableEq, Repr

namespace WorkloadType

/-- All types in the order in which batches are provided. -/
def startupOrder : List WorkloadType := [delegate, subdomain, proxy, reverseProxy, fourToSix]

/-- The name of a type. -/
def text : WorkloadType → String
  | proxy => "gateway-proxy"
  | reverseProxy => "gateway-reverse-proxy"
  | subdomain => "gateway-subdomain"
  | delegate => "gateway-domain-delegate"
  | fourToSix => "gateway-4to6"

/-- The type of a name. -/
def ofText? (name : String) : Option WorkloadType := startupOrder.find? fun t => t.text == name

/-- The place of a type in the startup order. -/
def position (t : WorkloadType) : Nat := startupOrder.idxOf t

end WorkloadType

/-- A request to provide something. -/
structure Workload where
  id : String
  type : WorkloadType
  user : String
  data : Json.Value

/-- A payload of each type. -/
inductive Payload where
  | proxy (domain addr : String) (port portTls : UInt16)
  | reverseProxy (domain secret : String)
  | subdomain (domain : String) (ips : List Ip)
  | delegate (domain : String)
  | fourToSix (publicKey : String)

namespace Workload

/-- The fault of a payload without the shape of its type. -/
def badPayload (w : Workload) (fault : Json.ShapeFault) : GatewayError :=
  .validation ("invalid " ++ w.type.text ++ " payload: " ++ fault.message)

/-- Reads the payload as a record. -/
def record (w : Workload) (name : String) (fields : Json.Fields) : Except GatewayError fields.Record :=
  match Json.Fields.read name fields w.data with
  | .ok record => .ok record
  | .error fault => .error (w.badPayload fault)

/-- Reads addresses; the first that is none is reported. -/
def parseIps : List String → Except GatewayError (List Ip)
  | [] => .ok []
  | s :: rest =>
    match Ip.parse? s with
    | none => .error (.validation ("invalid ip '" ++ s ++ "'"))
    | some ip => (parseIps rest).map (ip :: ·)

/-- The payload of a workload, read and checked. -/
def decode (w : Workload) : Except GatewayError Payload :=
  match w.type with
  | .proxy => do
    let (domain, addr, port, portTls, ()) ← w.record "GatewayProxy"
      [("domain", .text), ("addr", .text), ("port", .port), ("port_tls", .port)]
    let _ ← DomainName.require domain
    if addr = "" then throw (.validation "proxy address cannot be empty")
    return .proxy domain addr port portTls
  | .reverseProxy => do
    let (domain, secret, ()) ← w.record "GatewayReverseProxy" [("domain", .text), ("secret", .text)]
    if domain = "" then throw (.validation "domain cannot be empty")
    let _ ← DomainName.require domain
    if secret = "" then throw (.validation "secret cannot be empty")
    return .reverseProxy domain secret
  | .subdomain => do
    let (domain, ips, ()) ← w.record "GatewaySubdomain" [("domain", .text), ("ips", .texts)]
    let _ ← DomainName.require domain
    return .subdomain domain (← parseIps ips)
  | .delegate => do
    let (domain, ()) ← w.record "GatewayDelegate" [("domain", .text)]
    let _ ← DomainName.require domain
    return .delegate domain
  | .fourToSix => do
    let (publicKey, ()) ← w.record "Gateway4To6" [("public_key", .text)]
    let _ ← Key.parse publicKey
    return .fourToSix publicKey

/-- The workloads in startup order, those of one type in the order in which they stand. -/
def sortForStartup (workloads : List Workload) : List Workload :=
  workloads.mergeSort fun v w => v.type.position ≤ w.type.position

/-! ## Workload files -/

/-- A type read from a tree: its name, or an object whose only key is the name and whose value is
null. -/
def typeOf? : Json.Tree → Option WorkloadType
  | .string pieces => do WorkloadType.ofText? (← Json.pieceText? pieces)
  | .object [(pieces, .null)] => do WorkloadType.ofText? (← Json.pieceText? pieces)
  | _ => none

/-- A workload read from a tree. -/
def ofTree? (depth : Nat) (t : Json.Tree) : Option Workload := do
  let (depth, fields) ← t.record? ["id", "type", "user", "data"] depth
  match fields with
  | [some id, some type, some user, some data] =>
    return ⟨← id.text?, ← typeOf? type, ← user.text?, ← data.value? depth⟩
  | _ => none

/-- The workload that a text spells. -/
def read? (bytes : Bytes) : Option Workload := do
  ofTree? Json.maxDepth (← Json.Tree.read? bytes)

/-- The JSON form of a workload. -/
def toValue (w : Workload) : Json.Value :=
  .object [("id", .string w.id), ("type", .string w.type.text), ("user", .string w.user),
    ("data", w.data)]

/-- A list of workloads read from a tree. -/
def listOf? (t : Json.Tree) : Option (List Workload) := do
  let (depth, items) ← t.items? Json.maxDepth
  items.mapM (ofTree? depth)

/-- The workloads in a file: a list of them, or one. Even what no workload uses has to be proper
JSON. -/
def readAll? (bytes : Bytes) : Option (List Workload) := do
  let t ← Json.Tree.read? bytes
  -- numbers and escapes that no field keeps are read all the same
  let _ ← t.value? Json.maxDepth
  match listOf? t with
  | some workloads => some workloads
  | none => return [← ofTree? Json.maxDepth t]

/-- Why a text is not a workload file: the first place where it stops being JSON, or no workloads in
the value at its start, or more text after that. -/
def fileFault (bytes : Bytes) : String :=
  match Json.scan bytes with
  | .error stop => stop.message bytes
  | .ok rest =>
    if (readAll? (bytes.take (bytes.length - rest.length))).isNone then
      "data did not match any variant of untagged enum WorkloadFile"
    else match Json.checkEnd rest with
      | .error stop => stop.message bytes
      | .ok () => ""

end Workload

end GatewayControl
