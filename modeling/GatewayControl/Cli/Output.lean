import GatewayControl.Cli.Invocation
import GatewayControl.Gateway

/-!
# `GatewayControl.Cli.Output` -- what commands print

Every result has a pretty form, made of lines, and a JSON form. JSON that is put together for the
command line has its keys sorted; a stored entry and a client's configuration keep their own order.
-/

namespace GatewayControl.Cli

/-- Lines, each with its end. -/
def unlines (lines : List String) : String := "".intercalate (lines.map fun line => line ++ "\n")

/-- A label and a value. -/
def field (label value : String) : String :=
  "  " ++ label ++ ":" ++ "".pushn ' ' (11 - label.length) ++ " " ++ value

/-- A JSON value on lines of its own. -/
def printed (v : Json.Value) : String := v.prettyText ++ "\n"

/-- A change that was made. -/
def shownDone (format : OutputFormat) (action target : String) : String :=
  match format with
  | .json => printed (.object [("action", .string action), ("ok", .bool true), ("target", .string target)])
  | .pretty => unlines ["✓ " ++ action ++ " " ++ target]

/-- The addresses that were published. -/
def shownClaim (format : OutputFormat) (verbose : Bool) (domain : String) (ips : List Ip) : String :=
  let added := if format = .pretty ∧ verbose then unlines (ips.map fun ip => "  + " ++ ip.text) else ""
  added ++ shownDone format "claimed" domain

/-- A text, or null. -/
def textOrNull : Option String → Json.Value
  | none => .null
  | some s => .string s

/-- A title and lines under it, unless there are none. -/
def titled (title : String) (lines : List String) : List String :=
  if lines.isEmpty then [] else "" :: title :: lines

/-- What is known of a name: the owner of the zone, its labels, and the records of the name. -/
def shownName (format : OutputFormat) (name : String) (owner : Option String) (labels : List String)
    (records : RecordSet) : String :=
  match format with
  | .json =>
    printed (.object [("labels", .array (labels.map .string)), ("name", .string name),
      ("records", records.toValue.sorted), ("zone_owner", textOrNull owner)])
  | .pretty =>
    unlines <|
      ["Name: " ++ name, field "zone owner" (owner.getD "(not delegated)")] ++
        titled "Labels:" (labels.map fun label => "  " ++ label ++ "." ++ name) ++
        if records.isEmpty then [] else "" :: "Records:" :: records.toList.map fun r => "  " ++ r.text

/-- The part of a secret that tells whose it is. -/
def maskedSecret (secret : String) : String :=
  String.ofList (secret.toList.takeWhile (· ≠ ':')) ++ ":****"

/-- The lines for a route. -/
def routeFields : Route → List String
  | .forward addr httpPort tlsPort =>
    [field "kind" "forward", field "backend" addr, field "http" (toString httpPort.toNat),
      field "tls" (toString tlsPort.toNat)]
  | .reverse secret => [field "kind" "reverse", field "secret" (maskedSecret secret)]

/-- The entry of a domain. -/
def shownEntry (format : OutputFormat) (domain : String) (entry : Option RoutingEntry) : String :=
  match format with
  | .json => printed ((entry.map RoutingEntry.toValue).getD .null)
  | .pretty =>
    unlines <| ("Domain: " ++ domain) ::
      match entry with
      | none => [field "route" "(none)"]
      | some entry => field "owner" entry.owner :: routeFields entry.route

/-- The lines for the peer of a client. -/
def peerLines (peer : TunnelPeer) : List String :=
  ["", "[Peer]", "PublicKey = " ++ peer.publicKey, "Endpoint = " ++ peer.endpoint,
    "AllowedIPs = " ++ ", ".intercalate peer.allowedIps]

/-- The configuration of a client, in the form that WireGuard reads. -/
def shownPeer (format : OutputFormat) (config : PeerConfig) : String :=
  match format with
  | .json => printed config.toValue
  | .pretty =>
    unlines (["[Interface]", "Address = " ++ ", ".intercalate config.ips] ++ config.peers.flatMap peerLines)

/-- The address of a user. -/
def shownAddress (format : OutputFormat) (user : String) (tunnel : TunnelAuthority) : String :=
  let address := (tunnel.address user).text
  let subnet := (Pool.subnet tunnel.seed.bytes).text
  match format with
  | .json =>
    printed (.object [("address", .string address), ("subnet", .string subnet), ("user", .string user)])
  | .pretty => unlines [field "user" user, field "address" address, field "subnet" subnet]

/-- Who a gateway is, and what it serves. -/
def shownGateway (format : OutputFormat) (g : Gateway) : String :=
  let subnet := g.tunnel.map fun tunnel => (Pool.subnet tunnel.seed.bytes).text
  let supported := g.supported.map WorkloadType.text
  match format with
  | .json =>
    printed (.object [("name", .string g.identity.name), ("public_key", .string g.identity.publicKey.hex),
      ("supported", .array (supported.map .string)), ("tunnel_subnet", textOrNull subnet),
      ("wireguard_public_key", .string g.identity.wireguardKey.text)])
  | .pretty =>
    unlines ["Gateway identity", field "name" g.identity.name, field "ed25519" g.identity.publicKey.hex,
      field "wireguard" g.identity.wireguardKey.text, field "subnet" (subnet.getD "(tunnel disabled)"),
      field "workloads" (", ".intercalate supported)]

/-! ## Workloads -/

/-- A workload that went well. -/
def doneLine (w : Workload) : String := "✓ " ++ w.id ++ " (" ++ w.type.text ++ ")"

/-- A workload that failed. -/
def failedLine (w : Workload) (e : GatewayError) : String :=
  "✗ " ++ w.id ++ " (" ++ w.type.text ++ "): " ++ e.message

/-- A workload that failed, as JSON. -/
def failedValue (w : Workload) (e : GatewayError) : Json.Value :=
  .object [("error", .string e.message), ("id", .string w.id), ("ok", .bool false)]

/-- What is shown of the client's configuration that a workload handed back. -/
def addressLine : Option PeerConfig → List String
  | none => []
  | some config => [field "address" (", ".intercalate config.ips)]

/-- A provided workload as JSON. -/
def providedValue : Workload × Except GatewayError (Option PeerConfig) → Json.Value
  | (w, .error e) => failedValue w e
  | (w, .ok config) =>
    .object [("id", .string w.id), ("ok", .bool true),
      ("result", ((config.map PeerConfig.toValue).getD .null).sorted)]

/-- The lines for a provided workload. -/
def providedLines : Workload × Except GatewayError (Option PeerConfig) → List String
  | (w, .error e) => [failedLine w e]
  | (w, .ok config) => doneLine w :: addressLine config

/-- The workloads that were to be provided. -/
def shownProvided (format : OutputFormat)
    (results : List (Workload × Except GatewayError (Option PeerConfig))) : String :=
  match format with
  | .json => printed (.array (results.map providedValue))
  | .pretty => unlines (results.flatMap providedLines)

/-- The text for a removed workload; in JSON only failures are shown. -/
def shownRemoved (format : OutputFormat) : Workload × Except GatewayError Unit → String
  | (w, .error e) =>
    match format with
    | .json => printed (failedValue w e)
    | .pretty => unlines [failedLine w e]
  | (w, .ok ()) =>
    match format with
    | .json => ""
    | .pretty => unlines [doneLine w]

/-- How many workloads were removed, if all were. -/
def shownCount (format : OutputFormat) (count : Nat) : String :=
  match format with
  | .json => printed (.object [("count", .number (.int count)), ("ok", .bool true)])
  | .pretty => ""

end GatewayControl.Cli
