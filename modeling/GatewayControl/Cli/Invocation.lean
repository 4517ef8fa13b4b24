import GatewayControl.Authority.Route
import GatewayControl.Cli.Arguments
import GatewayControl.Config.Basic

/-!
# `GatewayControl.Cli.Invocation` -- what a command line asks for

`commandLine` is the description of the command line: its options, commands and arguments.
`Invocation.parse` reads arguments by it; what comes out names one `Action` with its operands.
-/

namespace GatewayControl.Cli

/-- How results are written. -/
inductive OutputFormat where
  | pretty | json
deriving DecidableEq, Repr

namespace OutputFormat

/-- The name of a format. -/
def text : OutputFormat → String
  | pretty => "pretty"
  | json => "json"

/-- The format of one of the names that the command line offers. -/
def ofText? (name : String) : Option OutputFormat := [pretty, json].find? fun f => f.text = name

/-- The format of a name in either case; `text` is another name for `pretty`. On failure, the
reason. -/
def parse (s : String) : Except String OutputFormat :=
  let name := s.map Char.toLower
  if name = "text" then .ok .pretty
  else match ofText? name with
    | some format => .ok format
    | none => .error ("Unknown output format: " ++ s ++ "\nValid formats: pretty, json")

end OutputFormat

/-- What to do. -/
inductive Action where
  | delegate (zone : String)
  | revoke (zone : String)
  | claim (domain : String) (ips : List Ip)
  | release (domain : String) (ips : List Ip)
  /-- Show the owner and labels of a zone, or the records of a name. -/
  | showName (name : String)
  | forward (domain addr : String) (httpPort tlsPort : UInt16)
  | reverse (domain : String) (secret : ReverseSecret)
  | unroute (domain : String)
  | showRoute (domain : String)
  | setup
  | teardown
  | addPeer (publicKey : String)
  | removePeer (publicKey : String)
  /-- Show the address of a user, by default of the acting user. -/
  | address (user : Option String)
  | provision (file : String)
  | decommission (file : String)
  | identity
deriving DecidableEq

/-- A command line that has been read. -/
structure Invocation where
  config : Option String
  user : Option String
  output : Option OutputFormat
  verbose : Bool
  action : Action
deriving DecidableEq

/-! ## The description of the command line -/

/-- A port in decimal, with a sign or without one. -/
def port? (s : String) : Option UInt16 :=
  match s.toList with
  | '-' :: digits => if digits ≠ [] ∧ digits.all (· == '0') then some 0 else none
  | cs => Config.port? cs

/-- The text is a port. -/
def portContent : Content := .checked fun s => (port? s).isSome

/-- The text is an address. -/
def ipContent : Content := .checked fun s => (Ip.parse? s).isSome

/-- An argument that has to be given once. -/
def argument (name : String) (content : Content) : ArgumentSpec := ⟨name, content, true, false⟩

/-- One address or more. -/
def ipArguments : ArgumentSpec := ⟨"ips", ipContent, true, true⟩

/-- An option that is known by its long name only. -/
def longOption (long : String) (kind : OptionKind) : OptionSpec := ⟨long, none, kind, none⟩

/-- The commands on zones and subdomains. -/
def domainCommand : CommandSpec :=
  .mk "domain" [] []
    [.mk "delegate" [] [argument "zone" .text] [],
      .mk "revoke" [] [argument "zone" .text] [],
      .mk "claim" [] [argument "domain" .text, ipArguments] [],
      .mk "release" [] [argument "domain" .text, ipArguments] [],
      .mk "show" [] [argument "name" .text] []]

/-- The commands on routes. -/
def routeCommand : CommandSpec :=
  .mk "route" [] []
    [.mk "forward" [longOption "http-port" (.value portContent), longOption "tls-port" (.value portContent)]
        [argument "domain" .text, argument "addr" .text] [],
      .mk "reverse" [longOption "encrypted" .flag] [argument "domain" .text, argument "secret" .text] [],
      .mk "remove" [] [argument "domain" .text] [],
      .mk "show" [] [argument "domain" .text] []]

/-- The commands on tunnels. -/
def tunnelCommand : CommandSpec :=
  .mk "tunnel" [] []
    [.mk "setup" [] [] [],
      .mk "teardown" [] [] [],
      .mk "add-peer" [] [argument "public_key" .text] [],
      .mk "remove-peer" [] [argument "public_key" .text] [],
      .mk "address" [] [⟨"user", .text, false, false⟩] []]

/-- The commands on workload files. -/
def workloadCommand : CommandSpec :=
  .mk "workload" [] []
    [.mk "provision" [] [argument "file" .path] [],
      .mk "decommission" [] [argument "file" .path] []]

/-- The options that every command has. -/
def globalOptions : List OptionSpec :=
  [⟨"config", some 'c', .value .path, some "GRIDGATE_CONFIG"⟩,
    ⟨"user", some 'u', .value .text, some "GRIDGATE_USER"⟩,
    ⟨"output", some 'o', .value (.oneOf [OutputFormat.text .pretty, OutputFormat.text .json]), none⟩,
    ⟨"verbose", some 'v', .flag, none⟩]

/-- The whole command line. -/
def commandLine : CommandSpec :=
  .mk "gridgate" globalOptions []
    [domainCommand, routeCommand, tunnelCommand, workloadCommand, .mk "identity" [] [] []]

/-! ## Reading -/

/-- The port that an option names, or its default. -/
def Level.port? (l : Level) (name : String) (default : UInt16) : Option UInt16 :=
  match l.find? name with
  | none => some default
  | some g => do Cli.port? (← g.values.head?)

/-- The value of an argument. -/
def Level.value? (l : Level) (name : String) : Option String := do (← l.find? name).values.head?

/-- The addresses that were given. -/
def Level.ips? (l : Level) : Option (List Ip) := do (← l.find? "ips").values.mapM Ip.parse?

/-- What to do, according to the innermost level; `path` names the levels, the outermost first. -/
def action? (path : List String) (l : Level) (user : Option String) : Option Action :=
  match path with
  | ["domain", "delegate"] => do return .delegate (← l.value? "zone")
  | ["domain", "revoke"] => do return .revoke (← l.value? "zone")
  | ["domain", "claim"] => do return .claim (← l.value? "domain") (← l.ips?)
  | ["domain", "release"] => do return .release (← l.value? "domain") (← l.ips?)
  | ["domain", "show"] => do return .showName (← l.value? "name")
  | ["route", "forward"] => do
    return .forward (← l.value? "domain") (← l.value? "addr") (← l.port? "http-port" 80)
      (← l.port? "tls-port" 443)
  | ["route", "reverse"] => do
    let secret ← l.value? "secret"
    return .reverse (← l.value? "domain")
      (if (l.find? "encrypted").isSome then .encrypted secret else .plain secret)
  | ["route", "remove"] => do return .unroute (← l.value? "domain")
  | ["route", "show"] => do return .showRoute (← l.value? "domain")
  | ["tunnel", "setup"] => some .setup
  | ["tunnel", "teardown"] => some .teardown
  | ["tunnel", "add-peer"] => do return .addPeer (← l.value? "public_key")
  | ["tunnel", "remove-peer"] => do return .removePeer (← l.value? "public_key")
  | ["tunnel", "address"] => some (.address user)
  | ["workload", "provision"] => do return .provision (← l.value? "file")
  | ["workload", "decommission"] => do return .decommission (← l.value? "file")
  | ["identity"] => some .identity
  | _ => none

namespace Invocation

/-- The value of a global option. -/
def optionValue? (name : String) (levels : List Level) : Option String := do
  (← globalValue? name levels).values.head?

/-- The invocation that levels amount to, the innermost level first. -/
def ofLevels? (levels : List Level) : Option Invocation := do
  let path := (levels.map (·.command.name)).reverse.drop 1
  let user := optionValue? "user" levels
  let action ← action? path (← levels.head?) user
  return ⟨optionValue? "config" levels, user, (optionValue? "output" levels).bind OutputFormat.ofText?,
    (globalValue? "verbose" levels).isSome, action⟩

/-- Reads arguments, with environment variables standing in for options that are not given. -/
def parse (environment : List (String × String)) (arguments : List String) :
    Except UsageFault Invocation := do
  match ofLevels? (← scan commandLine environment arguments) with
  | some invocation => return invocation
  | none => throw .missingArgument

end Invocation

end GatewayControl.Cli
