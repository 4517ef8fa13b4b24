import GatewayControl.Key
import GatewayControl.Text.CharTable
import GatewayControl.Tunnel.Device

/-!
# `GatewayControl.Tunnel.Namespace` -- a device in a network namespace

The interface of the device lives in a namespace of its own and is driven by commands. What the
commands do is up to a `Host`: it tells what exists and carries commands out. Setting the device up
removes what an interrupted setup left behind, then runs seven commands; if one of them fails the
namespace is deleted again, and the failure of that command is reported whatever the deletion does.
-/

namespace GatewayControl

/-- A command with its arguments and what it reads. -/
structure Command where
  program : String
  args : List String
  input : Option String
deriving DecidableEq, Repr

namespace Command

/-- The arguments with a blank between each two. -/
def argText (c : Command) : String := " ".intercalate c.args

/-- A command as it is written in a shell. -/
def text (c : Command) : String := c.program ++ " " ++ c.argText

/-- A command of the network tool that reads nothing. -/
def ip (args : List String) : Command := ⟨"ip", args, none⟩

end Command

/-- How a command ended. -/
inductive Outcome where
  | exited (status : Nat) (errors : String)
  | killed (signal : Nat) (errors : String)
  /-- There is no such program. -/
  | notFound
deriving DecidableEq, Repr

/-- The name of a signal. -/
def signalName (n : Nat) : String :=
  match n with
  | 1 => " (SIGHUP)"
  | 2 => " (SIGINT)"
  | 3 => " (SIGQUIT)"
  | 4 => " (SIGILL)"
  | 5 => " (SIGTRAP)"
  | 6 => " (SIGABRT)"
  | 7 => " (SIGBUS)"
  | 8 => " (SIGFPE)"
  | 9 => " (SIGKILL)"
  | 10 => " (SIGUSR1)"
  | 11 => " (SIGSEGV)"
  | 12 => " (SIGUSR2)"
  | 13 => " (SIGPIPE)"
  | 14 => " (SIGALRM)"
  | 15 => " (SIGTERM)"
  | _ => ""

/-- The result of a command that ended this way. -/
def Outcome.result (c : Command) : Outcome → Except GatewayError Unit
  | exited 0 _ => .ok ()
  | exited status errors =>
    .error (.device ("\x60" ++ c.text ++ "\x60 failed (exit status: " ++ toString status ++ "): " ++
      Text.trim errors))
  | killed signal errors =>
    .error (.device ("\x60" ++ c.text ++ "\x60 failed (signal: " ++ toString signal ++
      signalName signal ++ "): " ++ Text.trim errors))
  | notFound =>
    .error (.device ("failed to spawn " ++ c.program ++ ": " ++ FileFault.missing.message))

/-- A machine: what exists on it, and what commands do. -/
class Host (η : Type) where
  /-- A network namespace of this name exists. -/
  hasNamespace : String → η → Bool
  /-- A link of this name exists outside all namespaces. -/
  hasLink : String → η → Bool
  /-- Carries out a command. -/
  run : Command → η → Outcome × η

/-- What an interrupted setup may have left behind. -/
structure Leftovers where
  isNamespace : Bool
  isLink : Bool
deriving DecidableEq, Repr

/-- The names of the namespace and of the interface in it. -/
structure NamespaceDevice where
  namespaceName : String
  interface : String
deriving DecidableEq, Repr

namespace NamespaceDevice

/-- A name of letters, digits, `-`, `_` and `.`. -/
def isName (s : String) : Bool :=
  !s.isEmpty && s.toList.all fun c => c.isAlphanum || c == '-' || c == '_' || c == '.'

/-- The longest name that an interface can have. -/
def maxInterface : Nat := 15

/-- The device with these names, if they are proper names. -/
def named (namespaceName interface : String) : Except GatewayError NamespaceDevice :=
  if !isName namespaceName then
    .error (.config ("invalid namespace name '" ++ namespaceName ++ "'"))
  else if !isName interface ∨ maxInterface < interface.utf8ByteSize then
    .error (.config ("invalid interface name '" ++ interface ++ "'"))
  else .ok ⟨namespaceName, interface⟩

variable (d : NamespaceDevice)

/-! ## Commands -/

/-- Deletes the namespace, and with it the interface. -/
def deleteCommand : Command := .ip ["netns", "delete", d.namespaceName]

/-- Remove what is left of an earlier setup. -/
def cleanupCommands (left : Leftovers) : List Command :=
  (if left.isLink then [.ip ["link", "del", "dev", d.interface]] else []) ++
    if left.isNamespace then [d.deleteCommand] else []

/-- Create the namespace and the interface, which never exists outside of it. -/
def setupCommands (config : DeviceSetup) : List Command :=
  let ns := d.namespaceName
  [.ip ["netns", "add", ns],
    .ip ["-n", ns, "link", "add", "dev", d.interface, "type", "wireguard"],
    .ip ["netns", "exec", ns, "sysctl", "-w", "net.ipv6.conf.all.forwarding=1"],
    .ip ["-n", ns, "link", "set", "dev", "lo", "up"],
    .ip ["-n", ns, "addr", "add", config.address.text, "dev", d.interface],
    { Command.ip ["netns", "exec", ns, "wg", "set", d.interface, "private-key", "/dev/stdin",
        "listen-port", toString config.listenPort] with
      input := some config.privateKey.text },
    .ip ["-n", ns, "link", "set", "dev", d.interface, "up"]]

/-- Adds a peer, or updates it. -/
def upsertCommand (peer : PeerUpdate) : Command :=
  .ip ["netns", "exec", d.namespaceName, "wg", "set", d.interface, "peer", peer.publicKey.text,
    "allowed-ips", peer.allowedIp.text ++ "/128", "persistent-keepalive", toString peer.keepaliveSecs]

/-- Removes a peer. -/
def removeCommand (key : Key) : Command :=
  .ip ["netns", "exec", d.namespaceName, "wg", "set", d.interface, "peer", key.text, "remove"]

/-! ## Requests -/

variable {η : Type} [Host η]

/-- Runs one command. -/
def run (c : Command) (h : η) : Except GatewayError Unit × η :=
  let (outcome, h) := Host.run c h
  (outcome.result c, h)

/-- Runs commands up to the first that fails. -/
def runAll : List Command → η → Except GatewayError Unit × η
  | [], h => (.ok (), h)
  | c :: rest, h =>
    match run c h with
    | (.ok (), h) => runAll rest h
    | (.error e, h) => (.error e, h)

/-- What an earlier setup left on a machine. -/
def leftovers (h : η) : Leftovers :=
  ⟨Host.hasNamespace d.namespaceName h, Host.hasLink d.interface h⟩

/-- Deletes the namespace if it exists. -/
def teardown (h : η) : Except GatewayError Unit × η :=
  if Host.hasNamespace d.namespaceName h then run d.deleteCommand h else (.ok (), h)

/-- Removes leftovers, then creates the namespace; a failed creation is rolled back. -/
def setup (config : DeviceSetup) (h : η) : Except GatewayError Unit × η :=
  match runAll (d.cleanupCommands (d.leftovers h)) h with
  | (.error e, h) => (.error e, h)
  | (.ok (), h) =>
    match runAll (d.setupCommands config) h with
    | (.ok (), h) => (.ok (), h)
    | (.error e, h) => (.error e, (d.teardown h).2)

/-- Answers one request. -/
def step (call : DeviceCall) (h : η) : Except GatewayError Unit × η :=
  match call with
  | .setup config => d.setup config h
  | .upsert peer => run (d.upsertCommand peer) h
  | .remove key => run (d.removeCommand key) h
  | .teardown => d.teardown h

end NamespaceDevice

/-- A device in a network namespace of a machine; a node without tunnels has none. -/
structure PlacedDevice (η : Type) where
  device : Option NamespaceDevice
  host : η

/-- The refusal of a node without a device. -/
def noDevice : GatewayError := .device "there is no tunnel device"

instance {η : Type} [Host η] : TunnelDevice (PlacedDevice η) where
  step call p :=
    match p.device with
    | none => (.error noDevice, p)
    | some device =>
      let (result, host) := device.step call p.host
      (result, { p with host })

end GatewayControl
