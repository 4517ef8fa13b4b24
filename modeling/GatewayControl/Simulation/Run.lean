import GatewayControl.Simulation.World

/-!
# `GatewayControl.Simulation.Run` -- running steps

`respond` carries out one request. Requests that provide or remove workloads have the deadline of
their node; all others wait as long as it takes. `runSteps` runs steps one after the other and
reports what each changed.
-/

namespace GatewayControl.Simulation

variable {σ : Type} [Backend σ]

/-- What a request needs of the world: its node, and the device of the node. -/
def World.nodeAt? (i : Nat) (w : World σ) : Option Gateway := w.nodes[i]?

/-- Changes the device of a node. -/
def World.withDevice {α : Type} (i : Nat) (use : MemoryDevice → α × MemoryDevice) (w : World σ) :
    α × World σ :=
  let (a, d) := use (w.devices.getD i .empty)
  (a, { w with devices := w.devices.set i d })

/-- The response to the result of an operation. -/
def reply {α : Type} (answer : α → Answer) : Except GatewayError α → Response
  | .ok a => .ok (answer a)
  | .error e => .error (.error e)

/-- Runs an operation on the store without a deadline of its own. -/
def runOperation {α : Type} (engine : Engine σ) (limit : Option Nat) (answer : α → Answer)
    (op : Operation α) (w : World σ) : Option Response × World σ :=
  let (result, w) := runProgram engine limit false op.run w
  (result.map (reply answer), w)

/-- The earlier of two deadlines, the first of which may be missing. -/
def earlier (limit : Option Nat) (t : Nat) : Nat :=
  match limit with
  | none => t
  | some l => min l t

/-- Runs an operation under the deadline of a node. -/
def runBounded (engine : Engine σ) (limit : Option Nat) (seconds : Nat) (op : Operation Unit)
    (w : World σ) : Option (Except GatewayError Unit) × World σ :=
  let deadline := w.now + seconds
  match runProgram engine (some (earlier limit deadline)) false op.run w with
  | (some result, w) => (some result, w)
  -- the deadline that cut it off is the node's own, or one further out
  | (none, w) => if deadline ≤ w.now then (some (.error (.timeout seconds)), w) else (none, w)

/-- Runs a job of a node. -/
def runJob (engine : Engine σ) (limit : Option Nat) (node : Nat) (seconds : Nat)
    (job : Except GatewayError Job) (w : World σ) :
    Option (Except GatewayError (Option PeerConfig)) × World σ :=
  match job with
  | .error e => (some (.error e), w)
  | .ok (.store op) =>
    let (result, w) := runBounded engine limit seconds op w
    (result.map fun r => r.map fun () => none, w)
  | .ok (.device request answer) =>
    let (result, w) := w.withDevice node (Gateway.carry request)
    (some (result.map fun () => answer), w)

/-- Provides workloads one after the other. -/
def runBatch (engine : Engine σ) (limit : Option Nat) (node : Nat) (g : Gateway) :
    List Workload → World σ →
      Option (List (Workload × Except GatewayError (Option PeerConfig))) × World σ
  | [], w => (some [], w)
  | v :: rest, w =>
    match runJob engine limit node g.timeoutSecs (g.provisionJob v) w with
    | (none, w) => (none, w)
    | (some result, w) =>
      match runBatch engine limit node g rest w with
      | (none, w) => (none, w)
      | (some results, w) => (some ((v, result) :: results), w)

/-- The answer that hands back the configuration of a client, if there is one. -/
def answerPeer : Option PeerConfig → Answer
  | none => .done
  | some config => .peer config

/-- Carries out a request to the device of a node. -/
def runTunnel {α : Type} (node : Nat) (g : Gateway) (answer : α → Answer)
    (use : TunnelAuthority → MemoryDevice → Except GatewayError α × MemoryDevice) (w : World σ) :
    Option Response × World σ :=
  match g.tunnel with
  | none => (some (.error .noTunnel), w)
  | some tunnel =>
    let (result, w) := w.withDevice node (use tunnel)
    (some (reply answer result), w)

/-- Carries out a pause; no response if it ends after the deadline. -/
def runPause (engine : Engine σ) (limit : Option Nat) (seconds : Nat) (w : World σ) :
    Option Response × World σ :=
  let wake := w.now + seconds
  match limit with
  | none => (some (.ok .done), engine.pass wake w)
  | some t => if t < wake then (none, engine.pass t w) else (some (.ok .done), engine.pass wake w)

/-- Carries out a request to a node. -/
def runRequest (engine : Engine σ) (limit : Option Nat) (node : Nat) (g : Gateway) (r : Request)
    (w : World σ) : Option Response × World σ :=
  let unit := fun () => Answer.done
  match r with
  | .delegate user domain => runOperation engine limit unit (ZoneAuthority.delegate user domain) w
  | .revoke user domain => runOperation engine limit unit (ZoneAuthority.revoke user domain) w
  | .claim user domain ips => runOperation engine limit unit (g.zones.claim user domain ips) w
  | .release user domain ips => runOperation engine limit unit (g.zones.release user domain ips) w
  | .records domain => runOperation engine limit .records (ZoneAuthority.records domain) w
  | .labels domain => runOperation engine limit .names (ZoneAuthority.labels domain) w
  | .zoneOwner domain => runOperation engine limit .text (ZoneAuthority.zoneOwner domain) w
  | .claimant domain => runOperation engine limit .text (ZoneAuthority.claimantOf domain) w
  | .forward user domain addr httpPort tlsPort =>
    runOperation engine limit unit (RouteAuthority.registerForward user domain addr httpPort tlsPort) w
  | .reverse user domain secret =>
    runOperation engine limit unit (g.routes.registerReverse user domain secret) w
  | .deregister user domain =>
    runOperation engine limit unit (RouteAuthority.deregister user domain) w
  | .entry domain => runOperation engine limit .entry (RouteAuthority.entry domain) w
  | .setup => runTunnel node g unit (fun tunnel d => tunnel.setup d) w
  | .teardown => runTunnel node g unit (fun _ d => TunnelAuthority.teardown d) w
  | .addPeer user key => runTunnel node g .peer (fun tunnel d => tunnel.addPeer user key d) w
  | .removePeer key => runTunnel node g unit (fun _ d => TunnelAuthority.removePeer key d) w
  | .address user => runTunnel node g .address (fun tunnel d => (.ok (tunnel.address user), d)) w
  | .info => (some (.ok (.info g)), w)
  | .provision none => (some (.error (.error .json)), w)
  | .provision (some v) =>
    let (result, w) := runJob engine limit node g.timeoutSecs (g.provisionJob v) w
    (result.map (reply answerPeer), w)
  | .decommission none => (some (.error (.error .json)), w)
  | .decommission (some v) =>
    let (result, w) := runJob engine limit node g.timeoutSecs (g.decommissionJob v) w
    (result.map (reply fun _ => .done), w)
  | .provisionAll none => (some (.error (.error .json)), w)
  | .provisionAll (some workloads) =>
    let (results, w) := runBatch engine limit node g (Workload.sortForStartup workloads) w
    (results.map fun rs => .ok (.batch rs), w)
  | .pause seconds => runPause engine limit seconds w
  | .raw call =>
    let (answer, store) := Backend.step call w.store
    let response := match answer with
      | .ok a => .ok (answerOf call a)
      | .error fault => .error (.error (.storage (.store fault)))
    (some response, { w with store })

/-- Carries out a request to the node that it is for. -/
def respond (engine : Engine σ) (limit : Option Nat) (h : Hook) (w : World σ) :
    Option Response × World σ :=
  match w.nodeAt? h.node with
  | none => (none, w)
  | some g => runRequest engine limit h.node g h.request w

/-- Lets time pass up to a moment: what is due proceeds first. -/
def pass (engine : Engine σ) (time : Nat) (w : World σ) : World σ :=
  match w.due? time with
  | none => { w with now := max w.now time }
  | some (s, w) => engine.pass time (resume engine s w)

/-- The engine that lets up to `n` suspended operations proceed. -/
def engine : Nat → Engine σ
  | 0 => ⟨fun time w => { w with now := max w.now time }, fun _ _ w => (none, w)⟩
  | n + 1 => ⟨pass (engine n), respond (engine n)⟩

/-- What a step did. -/
structure Report where
  response : Response
  hooked : List Response
  /-- The names of the store that the step changed, with what they hold now. -/
  changes : List (String × Option Held)
  /-- The last of the devices that the step changed. -/
  device : Option MemoryDevice

/-- Equality of devices. -/
def sameDevice (d e : MemoryDevice) : Bool :=
  d.config == e.config && d.peers.toList == e.peers.toList

/-- Runs a step. A step that never ends has no report. -/
def runStep [Observable σ] (engine : Engine σ) (s : Step) (w : World σ) : Option Report × World σ :=
  let before := w
  let (response, w) := respond engine none s.hook { w with faults := s.faults, called := [], hooked := [] }
  let changed := (before.devices.zip w.devices).filter fun (d, e) => !sameDevice d e
  let report := response.map fun response =>
    ⟨response, w.hooked.reverse, (Observable.view before.store).changes (Observable.view w.store),
      changed.getLast?.map (·.2)⟩
  (report, { w with faults := [], called := [], hooked := [] })

/-- Runs steps one after the other, up to the first that never ends. -/
def runSteps [Observable σ] (engine : Engine σ) : List Step → World σ → List Report
  | [], _ => []
  | s :: rest, w =>
    match runStep engine s w with
    | (none, _) => []
    | (some report, w) => report :: runSteps engine rest w

/-- How many operations a request starts at most. -/
def Request.size : Request → Nat
  | .provisionAll (some workloads) => workloads.length
  | _ => 1

/-- How many operations the steps of a simulation start at most. -/
def operations (steps : List Step) : Nat :=
  steps.foldl (fun n s => n + s.hook.request.size +
    s.faults.foldl (fun k f => k + 1 + f.before.length + f.after.length) 0) 0

/-- Runs a simulation from its start. -/
def simulate [Observable σ] (nodes : List Gateway) (store : σ) (steps : List Step) : List Report :=
  runSteps (engine (16 * operations steps + 16)) steps (World.start nodes store)

end GatewayControl.Simulation
