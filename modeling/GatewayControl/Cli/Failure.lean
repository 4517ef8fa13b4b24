import GatewayControl.Error

/-!
# `GatewayControl.Cli.Failure` -- why a command failed, as its user reads it

A failure says what was attempted, and then its causes, each with the next one behind it. A single
cause stands on a line of its own; several are numbered.
-/

namespace GatewayControl.Cli

/-- What failed, and why. -/
structure Failure where
  message : String
  causes : List String
deriving DecidableEq, Repr

namespace Failure

/-- A failure without a cause behind it. -/
def plain (message : String) : Failure := ⟨message, []⟩

/-- The failure that an error amounts to. -/
def ofError (e : GatewayError) : Failure :=
  match e with
  | .io fault => ⟨e.message, [fault.message]⟩
  | e => ⟨e.message, []⟩

/-- The failure of what was attempted, with a failure as its cause. -/
def during (attempt : String) (f : Failure) : Failure := ⟨attempt, f.message :: f.causes⟩

/-- A text whose lines after the first start with blanks. -/
def hanging (width : Nat) (text : String) : String :=
  ("\n" ++ "".pushn ' ' width).intercalate ((text.toList.splitOn '\n').map String.ofList)

/-- Causes with their numbers, which take up seven columns. -/
def numbered (n : Nat) : List String → List String
  | [] => []
  | cause :: rest =>
    ("".pushn ' ' (5 - (toString n).length) ++ toString n ++ ": " ++ hanging 7 cause) ::
      numbered (n + 1) rest

/-- The lines of the causes. -/
def causeLines : List String → List String
  | [] => []
  | [cause] => ["    " ++ hanging 4 cause]
  | causes => numbered 0 causes

/-- A failure as it is reported. -/
def text (f : Failure) : String :=
  let causes := match causeLines f.causes with
    | [] => ""
    | lines => "\n\nCaused by:\n" ++ "\n".intercalate lines
  "Error: " ++ f.message ++ causes ++ "\n"

end Failure

end GatewayControl.Cli
