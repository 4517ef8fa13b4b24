import GatewayControl.Gateway

/-!
# `GatewayControl.Provision` -- workloads as requests to the authorities

A workload that decodes becomes a `Job`: an operation on the store, or a request to the tunnel
device. Decoding and the look for a tunnel come first and touch neither store nor device. A batch
is provided in startup order; a failure does not stop what follows.
-/

namespace GatewayControl

/-- What a workload asks for, once it is decoded. -/
inductive Job where
  | store (op : Operation Unit)
  /-- A request to the device, or the reason to refuse it, and what to hand back on success. -/
  | device (request : Except GatewayError DeviceCall) (answer : Option PeerConfig)

namespace Gateway

/-- The authority over tunnels; without one the type of workload is not supported. -/
def requireTunnel (g : Gateway) : Except GatewayError TunnelAuthority :=
  match g.tunnel with
  | some tunnel => .ok tunnel
  | none => .error (.unsupported WorkloadType.fourToSix.text)

/-- The job that provides a workload. -/
def provisionJob (g : Gateway) (w : Workload) : Except GatewayError Job := do
  -- without a tunnel the payload is not looked at
  if w.type = .fourToSix then
    let _ ← g.requireTunnel
  match ← w.decode with
  | .proxy domain addr port portTls =>
    return .store (RouteAuthority.registerForward w.user domain addr port portTls)
  | .reverseProxy domain secret =>
    return .store (g.routes.registerReverse w.user domain (.encrypted secret))
  | .subdomain domain ips => return .store (g.zones.claim w.user domain ips)
  | .delegate domain => return .store (ZoneAuthority.delegate w.user domain)
  | .fourToSix key => do
    let tunnel ← g.requireTunnel
    return .device (tunnel.addRequest w.user key) (some (tunnel.clientConfig w.user))

/-- The job that removes a workload. -/
def decommissionJob (g : Gateway) (w : Workload) : Except GatewayError Job := do
  if w.type = .fourToSix then
    let _ ← g.requireTunnel
  match ← w.decode with
  | .proxy domain _ _ _ => return .store (RouteAuthority.deregister w.user domain)
  | .reverseProxy domain _ => return .store (RouteAuthority.deregister w.user domain)
  | .subdomain domain ips => return .store (g.zones.release w.user domain ips)
  | .delegate domain => return .store (ZoneAuthority.revoke w.user domain)
  | .fourToSix key => return .device (do return .remove (← Key.parse key)) none

variable {σ δ : Type} [Backend σ] [TunnelDevice δ]

/-- Carries a request to a device. -/
def carry (request : Except GatewayError DeviceCall) (d : δ) : Except GatewayError Unit × δ :=
  match request with
  | .error e => (.error e, d)
  | .ok call => TunnelDevice.step call d

/-- Runs a job alone on a store and a device. -/
def runJob (job : Except GatewayError Job) (s : σ) (d : δ) :
    Except GatewayError (Option PeerConfig) × σ × δ :=
  match job with
  | .error e => (.error e, s, d)
  | .ok (.store op) =>
    let (result, s) := op.alone s
    (result.map fun () => none, s, d)
  | .ok (.device request answer) =>
    let (result, d) := carry request d
    (result.map fun () => answer, s, d)

/-- Provides a workload. -/
def provision (g : Gateway) (w : Workload) (s : σ) (d : δ) :
    Except GatewayError (Option PeerConfig) × σ × δ :=
  runJob (g.provisionJob w) s d

/-- Removes a workload; one that is gone is no fault. -/
def decommission (g : Gateway) (w : Workload) (s : σ) (d : δ) : Except GatewayError Unit × σ × δ :=
  let (result, s, d) := runJob (g.decommissionJob w) s d
  (result.map fun _ => (), s, d)

/-- Provides workloads one after the other. -/
def provisionEach (g : Gateway) :
    List Workload → σ → δ → List (Workload × Except GatewayError (Option PeerConfig)) × σ × δ
  | [], s, d => ([], s, d)
  | w :: rest, s, d =>
    let (result, s, d) := g.provision w s d
    let (results, s, d) := g.provisionEach rest s d
    ((w, result) :: results, s, d)

/-- Provides a batch in startup order. -/
def provisionAll (g : Gateway) (workloads : List Workload) (s : σ) (d : δ) :
    List (Workload × Except GatewayError (Option PeerConfig)) × σ × δ :=
  g.provisionEach (Workload.sortForStartup workloads) s d

/-- Removes workloads one after the other. -/
def decommissionEach (g : Gateway) :
    List Workload → σ → δ → List (Workload × Except GatewayError Unit) × σ × δ
  | [], s, d => ([], s, d)
  | w :: rest, s, d =>
    let (result, s, d) := g.decommission w s d
    let (results, s, d) := g.decommissionEach rest s d
    ((w, result) :: results, s, d)

/-- Removes a batch, subdomains before their zones. -/
def decommissionAll (g : Gateway) (workloads : List Workload) (s : σ) (d : δ) :
    List (Workload × Except GatewayError Unit) × σ × δ :=
  g.decommissionEach (Workload.sortForStartup workloads).reverse s d

end Gateway

end GatewayControl
