import GatewayControl.Cli.Failure
import GatewayControl.Cli.Output
import GatewayControl.Provision
import GatewayControl.Store.Memory
import GatewayControl.Store.Tables

/-!
# `GatewayControl.Cli.Run` -- running a command line

A run reads its configuration, puts a gateway together and carries out one action. What outlives it
is the `Machine`: files, the stores kept under their paths, what answers requests over the web, and the
host of the tunnel. A store of the kind `memory` is new in every run.
-/

namespace GatewayControl.Cli

/-- What an action printed, and the failure that ended it. -/
structure Transcript where
  output : String
  failure : Option Failure
deriving DecidableEq, Repr

namespace Transcript

/-- An action that only prints or only fails. -/
def ofExcept : Except Failure String → Transcript
  | .ok output => ⟨output, none⟩
  | .error failure => ⟨"", some failure⟩

/-- The failure of some of several workloads. -/
def ofBatch (output : String) (failed count : Nat) : Transcript :=
  ⟨output, if failed = 0 then none
    else some (.plain (toString failed ++ " of " ++ toString count ++ " workloads failed"))⟩

end Transcript

/-- What an action works with. -/
structure Context where
  gateway : Gateway
  user : Option String
  format : OutputFormat
  verbose : Bool

/-- The failure of an action that needs a user. -/
def missingUser : Failure :=
  .plain ("This command acts on behalf of a user.\n\nSet it with one of:\n  1. --user <ID>\n" ++
    "  2. GRIDGATE_USER environment variable")

/-- The failure of an action on tunnels where there are none. -/
def tunnelsDisabled : Failure :=
  .plain "Tunneling is disabled on this node (set tunnel.enabled = true)"

namespace Context

/-- The acting user; the empty one counts as none. -/
def requireUser (c : Context) : Except Failure String :=
  match c.user with
  | none => .error missingUser
  | some user => if user = "" then .error missingUser else .ok user

/-- The authority over tunnels. -/
def requireTunnel (c : Context) : Except Failure TunnelAuthority :=
  match c.gateway.tunnel with
  | none => .error tunnelsDisabled
  | some tunnel => .ok tunnel

end Context

/-- The workloads in a file. -/
def readWorkloads (files : Files) (path : String) : Except Failure (List Workload) :=
  match files.readText path with
  | .error fault => .error ((Failure.plain fault.message).during ("reading " ++ path))
  | .ok text =>
    let contents := Bytes.ofText text
    match Workload.readAll? contents with
    | some workloads => .ok workloads
    | none =>
      .error ((Failure.plain (Workload.fileFault contents)).during ("parsing workloads in " ++ path))

section Actions

variable {σ η : Type} [Backend σ] [Host η]

/-- Runs an operation on the store and shows its result. -/
def onStore {α : Type} (op : Operation α) (shown : α → String) (s : σ) : Transcript × σ :=
  let (result, s) := op.alone s
  (.ofExcept ((result.mapError Failure.ofError).map shown), s)

/-- Runs an operation on the store for the acting user. -/
def forUser {α : Type} (c : Context) (op : String → Operation α) (shown : α → String) (s : σ) :
    Transcript × σ :=
  match c.requireUser with
  | .error failure => (.ofExcept (.error failure), s)
  | .ok user => onStore (op user) shown s

/-- The owner and labels of a zone, and the records of the name itself. Labels are read only if
the zone has an owner. -/
def lookUp (name : String) : Operation (Option String × List String × RecordSet) := do
  let owner ← ZoneAuthority.zoneOwner name
  let labels ← if owner.isSome then ZoneAuthority.labels name else pure []
  return (owner, labels, ← ZoneAuthority.records name)

/-- Sends a request to the device and shows its result. -/
def onDevice {α : Type} (use : PlacedDevice η → Except GatewayError α × PlacedDevice η) (shown : α → String)
    (d : PlacedDevice η) : Transcript × PlacedDevice η :=
  let (result, d) := use d
  (.ofExcept ((result.mapError Failure.ofError).map shown), d)

/-- Provides the workloads in a file. -/
def provisionFile (c : Context) (files : Files) (path : String) (s : σ) (d : PlacedDevice η) :
    Transcript × σ × PlacedDevice η :=
  match readWorkloads files path with
  | .error failure => (.ofExcept (.error failure), s, d)
  | .ok workloads =>
    let (results, s, d) := c.gateway.provisionAll workloads s d
    let failed := results.countP fun (_, result) => !result.isOk
    (.ofBatch (shownProvided c.format results) failed results.length, s, d)

/-- Removes the workloads in a file. -/
def decommissionFile (c : Context) (files : Files) (path : String) (s : σ) (d : PlacedDevice η) :
    Transcript × σ × PlacedDevice η :=
  match readWorkloads files path with
  | .error failure => (.ofExcept (.error failure), s, d)
  | .ok workloads =>
    let (results, s, d) := c.gateway.decommissionAll workloads s d
    let failed := results.countP fun (_, result) => !result.isOk
    let lines := "".intercalate (results.map (shownRemoved c.format))
    let count := if failed = 0 then shownCount c.format results.length else ""
    (.ofBatch (lines ++ count) failed results.length, s, d)

/-- An action on the tunnel device. -/
inductive TunnelAction where
  | setup
  | teardown
  | addPeer (publicKey : String)
  | removePeer (publicKey : String)
  | address (user : Option String)

/-- Carries out an action on the tunnel device. -/
def TunnelAction.perform (c : Context) (a : TunnelAction) (d : PlacedDevice η) :
    Transcript × PlacedDevice η :=
  match c.requireTunnel with
  | .error failure => (.ofExcept (.error failure), d)
  | .ok tunnel =>
    match a with
    | setup =>
      onDevice tunnel.setup
        (fun () => shownDone c.format "set up" (Pool.gateway tunnel.seed.bytes).text) d
    | teardown => onDevice TunnelAuthority.teardown (fun () => shownDone c.format "tore down" "tunnel") d
    | addPeer key =>
      match c.requireUser with
      | .error failure => (.ofExcept (.error failure), d)
      | .ok user => onDevice (tunnel.addPeer user key) (shownPeer c.format) d
    | removePeer key =>
      onDevice (TunnelAuthority.removePeer key) (fun () => shownDone c.format "removed peer" key) d
    | address user =>
      let user : Except Failure String := match user with
        | some user => .ok user
        | none => c.requireUser
      (.ofExcept (user.map fun user => shownAddress c.format user tunnel), d)

/-- Carries out an action. -/
def Context.perform (c : Context) (files : Files) (a : Action) (s : σ) (d : PlacedDevice η) :
    Transcript × σ × PlacedDevice η :=
  let stored : Transcript × σ → Transcript × σ × PlacedDevice η := fun (t, s) => (t, s, d)
  let tunneled (a : TunnelAction) : Transcript × σ × PlacedDevice η :=
    let (t, d) := a.perform c d
    (t, s, d)
  let done (action target : String) : Unit → String := fun () => shownDone c.format action target
  match a with
  | .delegate zone =>
    stored (forUser c (fun user => ZoneAuthority.delegate user zone) (done "delegated" zone) s)
  | .revoke zone => stored (forUser c (fun user => ZoneAuthority.revoke user zone) (done "revoked" zone) s)
  | .claim domain ips =>
    stored (forUser c (fun user => c.gateway.zones.claim user domain ips)
      (fun () => shownClaim c.format c.verbose domain ips) s)
  | .release domain ips =>
    stored (forUser c (fun user => c.gateway.zones.release user domain ips) (done "released" domain) s)
  | .showName name =>
    stored (onStore (lookUp name)
      (fun (owner, labels, records) => shownName c.format name owner labels records) s)
  | .forward domain addr httpPort tlsPort =>
    stored (forUser c (fun user => RouteAuthority.registerForward user domain addr httpPort tlsPort)
      (done "routed" domain) s)
  | .reverse domain secret =>
    stored (forUser c (fun user => c.gateway.routes.registerReverse user domain secret)
      (done "routed" domain) s)
  | .unroute domain =>
    stored (forUser c (fun user => RouteAuthority.deregister user domain) (done "unrouted" domain) s)
  | .showRoute domain => stored (onStore (RouteAuthority.entry domain) (shownEntry c.format domain) s)
  | .setup => tunneled .setup
  | .teardown => tunneled .teardown
  | .addPeer key => tunneled (.addPeer key)
  | .removePeer key => tunneled (.removePeer key)
  | .address user => tunneled (.address user)
  | .provision file => provisionFile c files file s d
  | .decommission file => decommissionFile c files file s d
  | .identity => (.ofExcept (.ok (shownGateway c.format c.gateway)), s, d)

end Actions

/-! ## Runs -/

/-- What runs share. -/
structure Machine (η : Type) where
  files : Files
  /-- The stores that are kept, by the components of their paths. -/
  stores : List (List String × TableStore)
  /-- What answers requests over the web. -/
  client : Http.Client
  host : η

/-- How a run ended. -/
structure Exit where
  code : Nat
  output : String
  errors : String
deriving DecidableEq, Repr

/-- The end of a run whose action has this transcript. -/
def Exit.ofTranscript (t : Transcript) : Exit :=
  match t.failure with
  | none => ⟨0, t.output, ""⟩
  | some failure => ⟨1, t.output, failure.text⟩

/-- The version of the program. -/
def version : String := "0.3.0"

/-- The end of a run whose arguments were not carried out. -/
def Exit.ofUsage (fault : UsageFault) : Exit :=
  match fault with
  | .displayHelp => ⟨0, fault.message, ""⟩
  | .displayVersion path => ⟨0, "-".intercalate path ++ " " ++ version ++ "\n", ""⟩
  | fault => ⟨2, "", fault.message⟩

variable {η : Type} [Host η]

/-- The components of the path of a store; a store without a path is not kept. -/
def storePlace? (path : String) : Option (List String) :=
  if path = "" ∨ path = ":memory:" then none
  else some ((Files.components path).filter (· ≠ "."))

/-- Carries out an action with the store that a configuration names. -/
def Machine.perform (m : Machine η) (c : Context) (store : StoreConfig) (device : Option NamespaceDevice)
    (a : Action) : Transcript × Machine η :=
  match store.kind, storePlace? store.path with
  | .memory, _ =>
    let (t, _, d) := c.perform m.files a MemoryStore.empty ⟨device, m.host⟩
    (t, { m with host := d.host })
  | .sqlite, none =>
    let (t, _, d) := c.perform m.files a TableStore.empty ⟨device, m.host⟩
    (t, { m with host := d.host })
  | .sqlite, some place =>
    let (t, s, d) := c.perform m.files a ((m.stores.lookup place).getD .empty) ⟨device, m.host⟩
    (t, { m with stores := (place, s) :: m.stores.filter fun p => p.1 ≠ place, host := d.host })

/-- The configuration and the gateway of an invocation. -/
def Invocation.open? (i : Invocation) (dirs : BaseDirs) (client : Http.Client) (files : Files) :
    Except Failure (Config × Gateway × Option NamespaceDevice) := do
  let path := i.config.getD dirs.configPath
  let config ← match Config.load dirs files path with
    | .ok config => .ok config
    | .error fault => .error ((Failure.ofError fault.error).during ("loading config from " ++ path))
  let (gateway, device) ← match Gateway.ofConfig client files config with
    | .ok parts => .ok parts
    | .error e => .error ((Failure.ofError e).during "assembling gateway")
  return (config, gateway, device)

/-- Carries out an invocation. -/
def Invocation.run (i : Invocation) (dirs : BaseDirs) (m : Machine η) : Transcript × Machine η :=
  match i.open? dirs m.client m.files with
  | .error failure => (.ofExcept (.error failure), m)
  | .ok (config, gateway, device) =>
    let context : Context := ⟨gateway, i.user, i.output.getD .pretty, i.verbose⟩
    m.perform context config.store device i.action

/-- Runs a command line. -/
def run (dirs : BaseDirs) (environment : List (String × String)) (arguments : List String)
    (m : Machine η) : Exit × Machine η :=
  match Invocation.parse environment arguments with
  | .error fault => (.ofUsage fault, m)
  | .ok invocation =>
    let (t, m) := invocation.run dirs m
    (.ofTranscript t, m)

end GatewayControl.Cli
