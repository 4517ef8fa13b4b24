import GatewayControl.Simulation.Step
import GatewayControl.Store.View

/-!
# `GatewayControl.Simulation.World` -- nodes on one store, and a clock

Time passes only in pauses, while a call is held up, and while a caller waits for a deadline. An
operation that its caller gave up on is dropped where it stands, unless it goes on by itself: then
it is kept until its call comes through, and time that passes beyond that moment lets it proceed.
-/

namespace GatewayControl.Simulation

/-- An operation that goes on without a caller once its call comes through. -/
structure Suspended where
  /-- The second at which the call comes through. -/
  wake : Nat
  fault : Fault
  call : Call
  next : call.Reply → Program Unit

/-- The state of a simulation. -/
structure World (σ : Type) where
  nodes : List Gateway
  store : σ
  /-- The devices of the nodes, in their order. -/
  devices : List MemoryDevice
  now : Nat
  suspended : List Suspended
  /-- The faults of the current step. -/
  faults : List Fault
  /-- The methods called in the current step. -/
  called : List Call.Method
  /-- The responses to hooks, the last one first. -/
  hooked : List Response

namespace World

variable {σ : Type}

/-- The nodes at the start, with devices that are not set up. -/
def start (nodes : List Gateway) (store : σ) : World σ :=
  ⟨nodes, store, nodes.map fun _ => .empty, 0, [], [], [], []⟩

/-- Counts a call, and finds the first fault that disturbs it. -/
def meet (m : Call.Method) (w : World σ) : Option Fault × World σ :=
  let w := { w with called := m :: w.called }
  let n := w.called.count m
  (w.faults.find? fun f => f.method = m ∧ (f.nth = 0 ∨ f.nth = n), w)

/-- The suspended operation that proceeds first, if any does by a given time, and the others. -/
def due? (time : Nat) (w : World σ) : Option (Suspended × World σ) :=
  match w.suspended.filter (·.wake ≤ time) with
  | [] => none
  | s :: rest =>
    -- of those that wake together the one suspended first goes first
    let first := rest.foldl (fun (a b : Suspended) => if b.wake < a.wake then b else a) s
    let i := w.suspended.findIdx fun (s : Suspended) => s.wake = first.wake
    (w.suspended[i]?).map fun s => (s, { w with suspended := w.suspended.eraseIdx i, now := max w.now s.wake })

end World

/-- What a run needs to let time pass and to carry out hooks. -/
structure Engine (σ : Type) where
  /-- Lets time pass up to a moment, with all that proceeds until then. -/
  pass : Nat → World σ → World σ
  /-- Carries out a hook under a deadline; no response if the deadline cut it off. -/
  respond : Option Nat → Hook → World σ → Option Response × World σ

variable {σ : Type} [Backend σ]

/-- Carries out hooks without faults and without counting their calls; `false` if the deadline cut
one off. -/
def runHooks (engine : Engine σ) (limit : Option Nat) : List Hook → World σ → Bool × World σ
  | [], w => (true, w)
  | h :: rest, w =>
    let faults := w.faults
    let called := w.called
    match engine.respond limit h { w with faults := [] } with
    | (none, w) => (false, { w with faults, called })
    | (some r, w) => runHooks engine limit rest { w with faults, called, hooked := r :: w.hooked }

/-- The call that a fault disturbs, once it comes through: it fails or reaches the store, and the
hooks after it run. -/
def comeThrough (engine : Engine σ) (limit : Option Nat) (f : Fault) (c : Call) (w : World σ) :
    Option c.Reply × World σ :=
  let (reply, w) : c.Reply × World σ := match f.failure with
    | some reason => (.error (.task reason), w)
    | none =>
      let (reply, store) := Backend.step c w.store
      (reply, { w with store })
  match runHooks engine limit f.after w with
  | (true, w) => (some reply, w)
  | (false, w) => (none, w)

/-- The moment at which a call comes through is too late for the caller. An operation that goes on
by itself reports to its caller only after the moment. -/
def tooLate (limit : Option Nat) (detached : Bool) (f : Fault) (wake : Nat) : Bool :=
  match limit with
  | none => f.stalls
  | some t => f.stalls || (0 < f.delay && (t < wake || (detached && t == wake)))

/-- Lets time pass up to a deadline. -/
def passTo (engine : Engine σ) (limit : Option Nat) (w : World σ) : World σ :=
  match limit with
  | some t => engine.pass t w
  | none => w

/-- Runs a program under a deadline; no result if its caller gave up. -/
def runProgram {α : Type} (engine : Engine σ) (limit : Option Nat) (detached : Bool) :
    Program α → World σ → Option α × World σ
  | .done a, w => (some a, w)
  | .detach rest, w => runProgram engine limit true rest w
  | .call c next, w =>
    match w.meet c.method with
    | (none, w) =>
      let (reply, store) := Backend.step c w.store
      runProgram engine limit detached (next reply) { w with store }
    | (some f, w) =>
      match runHooks engine limit f.before w with
      | (false, w) => (none, w)
      | (true, w) =>
        let wake := w.now + f.delay
        if tooLate limit detached f wake then
          -- the caller is gone; what goes on by itself waits for its call
          let left : List Suspended :=
            if detached && !f.stalls then [⟨wake, f, c, fun reply => (next reply).bind fun _ => .done ()⟩]
            else []
          (none, passTo engine limit { w with suspended := w.suspended ++ left })
        else
          let w := if f.delay = 0 then w else engine.pass wake w
          match comeThrough engine limit f c w with
          | (none, w) => (none, w)
          | (some reply, w) => runProgram engine limit detached (next reply) w

/-- Lets a suspended operation proceed at the present moment, up to the next call that is held up. -/
def resume (engine : Engine σ) (s : Suspended) (w : World σ) : World σ :=
  match comeThrough engine (some w.now) s.fault s.call w with
  | (none, w) => w
  | (some reply, w) => (runProgram engine (some w.now) true (s.next reply) w).2

end GatewayControl.Simulation
