import GatewayControl.Tunnel.Namespace

/-!
# `GatewayControl.Tunnel.Script` -- a machine whose commands follow a script

A script lists rules. The first rule whose text occurs in the arguments of a command says how the
command ends, and the command then has no effect. Without a rule, adding a namespace makes it
exist, deleting it makes it vanish, and every other command succeeds. Commands are logged.
-/

namespace GatewayControl

/-- A rule of a script. -/
structure ScriptRule where
  /-- The rule is for commands with this text among their arguments. -/
  on : String
  outcome : Outcome
deriving Repr

/-- A machine that follows a script. -/
structure ScriptedHost where
  /-- The network tool is there. -/
  installed : Bool
  rules : List ScriptRule
  namespaces : List String
  links : List String
  /-- The arguments and the input of each command, the last command first. -/
  log : List (String × String)

namespace ScriptedHost

/-- A list occurs in another. -/
def occurs (part : List Char) : List Char → Bool
  | [] => part.isEmpty
  | c :: cs => part.isPrefixOf (c :: cs) || occurs part cs

/-- What a command without a rule does. -/
def effect (args : List String) (h : ScriptedHost) : Outcome × ScriptedHost :=
  match args with
  | "netns" :: "add" :: name :: _ =>
    (.exited 0 "", { h with namespaces := name :: h.namespaces.filter (· ≠ name) })
  | "netns" :: "delete" :: name :: _ =>
    if h.namespaces.contains name then
      (.exited 0 "", { h with namespaces := h.namespaces.filter (· ≠ name) })
    else (.exited 1 "", h)
  | _ => (.exited 0 "", h)

/-- Carries out a command. -/
def run (c : Command) (h : ScriptedHost) : Outcome × ScriptedHost :=
  if !h.installed then (.notFound, h)
  else
    let input := if occurs "/dev/stdin".toList c.argText.toList then c.input.getD "" else ""
    let h := { h with log := (c.argText, input) :: h.log }
    match h.rules.find? fun r => occurs r.on.toList c.argText.toList with
    | some r => (r.outcome, h)
    | none => effect c.args h

instance : Host ScriptedHost where
  hasNamespace name h := h.namespaces.contains name
  hasLink name h := h.links.contains name
  run := run

end ScriptedHost

end GatewayControl
