import GatewayControl.Provision

/-!
# `GatewayControl.Simulation.Step` -- what nodes on one store are asked to do

A step is one request to one node, or a raw call of the shared store, or a pause. Faults disturb
the calls that the operations of a step make: other steps run before or after such a call, the call
is held up, never returns, or fails without reaching the store.
-/

namespace GatewayControl.Simulation

/-- A request. -/
inductive Request where
  | delegate (user domain : String)
  | revoke (user domain : String)
  | claim (user domain : String) (ips : List Ip)
  | release (user domain : String) (ips : List Ip)
  | records (domain : String)
  | labels (domain : String)
  | zoneOwner (domain : String)
  | claimant (domain : String)
  | forward (user domain addr : String) (httpPort tlsPort : UInt16)
  | reverse (user domain : String) (secret : ReverseSecret)
  | deregister (user domain : String)
  | entry (domain : String)
  | setup
  | teardown
  | addPeer (user key : String)
  | removePeer (key : String)
  | address (user : String)
  | info
  /-- Provide a workload; one that cannot be read fails the request. -/
  | provision (workload : Option Workload)
  | decommission (workload : Option Workload)
  | provisionAll (workloads : Option (List Workload))
  | pause (seconds : Nat)
  /-- A call of the store that no fault disturbs. -/
  | raw (call : Call)

/-- What a request answers. -/
inductive Answer where
  | done
  | names (names : List String)
  | text (text : Option String)
  | records (records : RecordSet)
  | entry (entry : Option RoutingEntry)
  | peer (config : PeerConfig)
  | address (address : Ipv6)
  | info (gateway : Gateway)
  | batch (results : List (Workload × Except GatewayError (Option PeerConfig)))
  | bytes (bytes : Option Bytes)
  | flag (flag : Bool)

/-- Why a request was not carried out. -/
inductive Refusal where
  | error (error : GatewayError)
  /-- The node has no tunnel. -/
  | noTunnel

/-- How a request ended. -/
abbrev Response := Except Refusal Answer

/-- A request to a node. -/
structure Hook where
  node : Nat
  request : Request

/-- A disturbance of the calls of one method. -/
structure Fault where
  method : Call.Method
  /-- The call that is disturbed, counted from one; zero stands for every call. -/
  nth : Nat
  before : List Hook
  /-- Seconds by which the call is held up. -/
  delay : Nat
  /-- The call never returns. -/
  stalls : Bool
  /-- The call fails for this reason, without reaching the store. -/
  failure : Option String
  after : List Hook

/-- A request to a node, with the faults that disturb it. -/
structure Step where
  hook : Hook
  faults : List Fault

/-- The answer to a raw call. -/
def answerOf : (c : Call) → c.Answer → Answer
  | .get _, bytes => .bytes bytes
  | .set _ _, () => .done
  | .delete _, b => .flag b
  | .compareAndSet _ _ _, b => .flag b
  | .hget _ _, bytes => .bytes bytes
  | .hset _ _ _, () => .done
  | .hsetIfAbsent _ _ _, b => .flag b
  | .hdel _ _, b => .flag b
  | .hkeys _, names => .names names

end GatewayControl.Simulation
