/-!
# `GatewayControl.Cli.Arguments` -- the grammar of a command line

A command has options, positional arguments and subcommands. Options that are global hold for every
command below the one they belong to, unless an argument there has their name. `scan` goes through
the arguments once and leaves the values given at each level, from the command to its innermost
subcommand; `complete` fills in the environment and looks for what is missing.
-/

namespace GatewayControl.Cli

/-- Why a command line is not carried out. -/
inductive UsageFault where
  | displayHelp
  /-- The version is asked for, of a command or of one of its subcommands. -/
  | displayVersion (path : List String)
  | displayHelpOnMissing
  | unknownSubcommand
  | missingSubcommand
  | unknownArgument
  | conflict
  | unexpectedValue
  | badValue
  | refusedValue
  | missingArgument
deriving DecidableEq, Repr

/-- The wording of a fault. -/
def UsageFault.message : UsageFault → String
  | displayHelp => "usage: gridgate [options] <command> <subcommand> [arguments]\n"
  | displayVersion _ => ""
  | displayHelpOnMissing => "error: a command is required\n"
  | unknownSubcommand => "error: there is no such subcommand\n"
  | missingSubcommand => "error: a subcommand is required\n"
  | unknownArgument => "error: there is an argument too many\n"
  | conflict => "error: an option is given more than once\n"
  | unexpectedValue => "error: an option that takes no value is given one\n"
  | badValue => "error: a value is missing or not among those that are possible\n"
  | refusedValue => "error: a value is not of the right form\n"
  | missingArgument => "error: a required argument is missing\n"

/-- What an option or an argument holds. -/
inductive Content where
  | text
  /-- A path, which is not empty. -/
  | path
  | oneOf (choices : List String)
  /-- A text that has to pass a check. -/
  | checked (isOk : String → Bool)

/-- The fault of a text as a content. -/
def Content.fault? : Content → String → Option UsageFault
  | text, _ => none
  | path, s => if s = "" then some .badValue else none
  | oneOf choices, s => if choices.contains s then none else some .badValue
  | checked isOk, s => if isOk s then none else some .refusedValue

/-- What an option does. -/
inductive OptionKind where
  | flag
  | value (content : Content)
  | help
  | version

/-- An option. -/
structure OptionSpec where
  long : String
  short : Option Char
  kind : OptionKind
  /-- The environment variable that stands in for the option. -/
  environment : Option String

/-- A positional argument. -/
structure ArgumentSpec where
  name : String
  content : Content
  isRequired : Bool
  /-- The argument takes all values that follow. -/
  isRepeated : Bool

/-- A command. -/
inductive CommandSpec where
  | mk (name : String) (options : List OptionSpec) (arguments : List ArgumentSpec)
    (subcommands : List CommandSpec)

namespace CommandSpec

/-- The name of a command. -/
def name : CommandSpec → String
  | mk name _ _ _ => name

/-- The options of a command itself. -/
def options : CommandSpec → List OptionSpec
  | mk _ options _ _ => options

/-- The positional arguments of a command. -/
def arguments : CommandSpec → List ArgumentSpec
  | mk _ _ arguments _ => arguments

/-- The subcommands of a command. -/
def subcommands : CommandSpec → List CommandSpec
  | mk _ _ _ subcommands => subcommands

/-- The subcommand of a name. -/
def find? (c : CommandSpec) (name : String) : Option CommandSpec :=
  c.subcommands.find? fun s => s.name = name

end CommandSpec

/-- Options that every command has. -/
def commonOptions : List OptionSpec :=
  [⟨"help", some 'h', .help, none⟩, ⟨"version", some 'V', .version, none⟩]

/-- Where a value comes from; later sources count more. -/
inductive Source where
  | default | environment | commandLine
deriving DecidableEq, Repr

/-- The rank of a source. -/
def Source.rank : Source → Nat
  | default => 0
  | environment => 1
  | commandLine => 2

/-- The values of an option or an argument. -/
structure Given where
  name : String
  source : Source
  values : List String
deriving Repr

/-- A command with the options that hold for it and the values that were given. -/
structure Level where
  command : CommandSpec
  options : List OptionSpec
  given : List Given

namespace Level

/-- The values of a name. -/
def find? (l : Level) (name : String) : Option Given := l.given.find? fun g => g.name = name

/-- Enters a command: global options hold for it unless an argument has their name. -/
def enter (globals : List OptionSpec) (c : CommandSpec) : Level :=
  let inherited := globals.filter fun o =>
    !(c.arguments.any fun a => a.name = o.long) && !(c.options.any fun p => p.long = o.long)
  ⟨c, c.options ++ inherited ++ commonOptions, []⟩

/-- Records the values of an option, which is given once at most. -/
def record (l : Level) (name : String) (content : Content) (values : List String) :
    Except UsageFault Level :=
  if values.isEmpty then .error .badValue
  else if (l.find? name).isSome then .error .conflict
  else match values.findSome? content.fault? with
    | some fault => .error fault
    | none => .ok { l with given := l.given ++ [⟨name, .commandLine, values⟩] }

/-- Adds values to a positional argument. -/
def append (l : Level) (a : ArgumentSpec) (values : List String) : Except UsageFault Level :=
  match values.findSome? a.content.fault? with
  | some fault => .error fault
  | none =>
    match l.find? a.name with
    | none => .ok { l with given := l.given ++ [⟨a.name, .commandLine, values⟩] }
    | some _ =>
      .ok { l with
        given := l.given.map fun g => if g.name = a.name then { g with values := g.values ++ values } else g }

end Level

/-- Values that have been read but not recorded yet. -/
inductive Pending where
  | none
  | option (name : String) (content : Content) (value : Option String)
  | argument (a : ArgumentSpec) (values : List String)

/-- Records what is pending. -/
def Pending.settle (l : Level) : Pending → Except UsageFault Level
  | none => .ok l
  | option name content value => l.record name content value.toList
  | argument a values => l.append a values

/-- The state of a scan. -/
structure Scan where
  /-- The levels above the present one, the innermost first. -/
  above : List Level
  level : Level
  pending : Pending
  /-- Only positional arguments follow. -/
  isTrailing : Bool
  /-- How many positional arguments have been passed. -/
  position : Nat

namespace Scan

/-- An option waits for its value. -/
def awaitsValue (s : Scan) : Bool :=
  match s.pending with
  | .option _ _ none => true
  | _ => false

/-- Records what is pending. -/
def settle (s : Scan) : Except UsageFault Scan := do
  return { s with level := ← s.pending.settle s.level, pending := .none }

/-- Takes an option without a value. -/
def takeFlag (s : Scan) (o : OptionSpec) : Except UsageFault Scan := do
  let s ← s.settle
  match o.kind with
  | .help => throw .displayHelp
  | .version => throw (.displayVersion ((s.level :: s.above).map (·.command.name)).reverse)
  | .flag =>
    return { s with level := ← s.level.record o.long .text ["true"] }
  | .value _ => throw .badValue

/-- Takes an option with a value, or one that waits for it. -/
def takeOption (s : Scan) (o : OptionSpec) (content : Content) (attached : Option String) :
    Except UsageFault Scan := do
  let s ← s.settle
  match attached with
  | some v => return { s with level := ← s.level.record o.long content [v] }
  | none => return { s with pending := .option o.long content none }

/-- Takes an option by its long name, with the text after `=` if there is any. -/
def takeLong (s : Scan) (name : String) (attached : Option String) : Except UsageFault Scan :=
  match s.level.options.find? fun o => o.long = name with
  | none => .error .unknownArgument
  | some o =>
    match o.kind, attached with
    | .value content, _ => s.takeOption o content attached
    | _, some _ => .error .unexpectedValue
    | _, none => s.takeFlag o

/-- Takes options by their short names; what follows one with a value is its value. -/
def takeShort (s : Scan) : List Char → Except UsageFault Scan
  | [] => .ok s
  | c :: rest =>
    match s.level.options.find? fun o => o.short = some c with
    | none => .error .unknownArgument
    | some o =>
      match o.kind with
      | .value content =>
        let attached := match rest with
          | [] => none
          | '=' :: v => some (String.ofList v)
          | v => some (String.ofList v)
        s.takeOption o content attached
      | _ =>
        match s.takeFlag o with
        | .error fault => .error fault
        | .ok s => s.takeShort rest

/-- The fault of a value that no positional argument takes. -/
def misplaced (s : Scan) (v : String) : UsageFault :=
  if s.isTrailing && (v = "help" || (s.level.command.find? v).isSome) &&
      !s.level.command.subcommands.isEmpty then .unknownArgument
  else if !s.level.command.subcommands.isEmpty && s.level.command.arguments.isEmpty then
    .unknownSubcommand
  else .unknownArgument

/-- Takes a positional value. -/
def takeValue (s : Scan) (v : String) : Except UsageFault Scan :=
  match s.level.command.arguments[s.position]? with
  | none => .error (s.misplaced v)
  | some a =>
    match a.isRepeated, s.pending with
    | true, .argument b values => do
      if b.name = a.name then return { s with pending := .argument a (values ++ [v]) }
      let s ← s.settle
      return { s with pending := .argument a [v] }
    | isRepeated, _ => do
      let s ← s.settle
      return { s with
        pending := .argument a [v], position := if isRepeated then s.position else s.position + 1 }

/-- Enters a subcommand. -/
def descend (globals : List OptionSpec) (s : Scan) (c : CommandSpec) : Except UsageFault Scan := do
  let s ← s.settle
  return ⟨s.level :: s.above, .enter globals c, .none, false, 0⟩

/-- The fault of asking for the help of a subcommand, which every command with subcommands offers. -/
def helpFault (c : CommandSpec) : List String → UsageFault
  | [] => .displayHelp
  | v :: rest =>
    match c.find? v with
    | some sub => helpFault sub rest
    | none =>
      if v = "help" && !c.subcommands.isEmpty && rest.isEmpty then .displayHelp else .unknownSubcommand

/-- Goes through the arguments. -/
def run (globals : List OptionSpec) (s : Scan) : List String → Except UsageFault Scan
  | [] => s.settle
  | v :: rest =>
    if s.isTrailing then do run globals (← s.takeValue v) rest
    else
      -- an option that waits for its value takes even the name of a subcommand
      let sub := if s.awaitsValue then none else s.level.command.find? v
      match sub with
      | some c => do run globals (← s.descend globals c) rest
      | none =>
        if !s.awaitsValue && v = "help" && !s.level.command.subcommands.isEmpty then
          .error (helpFault s.level.command rest)
        else match v.toList with
          | ['-', '-'] => run globals { s with isTrailing := true } rest
          | '-' :: '-' :: long => do
            let name := String.ofList (long.takeWhile (· ≠ '='))
            let attached := match long.dropWhile (· ≠ '=') with
              | _ :: text => some (String.ofList text)
              | [] => none
            run globals (← s.takeLong name attached) rest
          | '-' :: c :: short => do run globals (← s.takeShort (c :: short)) rest
          | _ =>
            match s.pending with
            | .option name content none =>
              run globals { s with pending := .option name content (some v) } rest
            | _ => do run globals (← s.takeValue v) rest

end Scan

/-- The value that the environment gives an option. -/
def fromEnvironment (environment : List (String × String)) (l : Level) (o : OptionSpec) :
    Except UsageFault (List Given) :=
  match o.kind, o.environment.bind fun key => environment.lookup key with
  | .value content, some v =>
    if (l.find? o.long).isSome then .ok []
    else match content.fault? v with
      | some fault => .error fault
      | none => .ok [⟨o.long, .environment, [v]⟩]
  | _, _ => .ok []

/-- Fills in the environment, and looks for a missing subcommand or argument. -/
def Level.complete (environment : List (String × String)) (isInnermost : Bool) (l : Level) :
    Except UsageFault Level := do
  let added ← l.options.mapM (fromEnvironment environment l)
  let l := { l with given := l.given ++ added.flatten }
  if isInnermost && !l.command.subcommands.isEmpty then
    -- nothing at all was said
    if l.given.isEmpty then throw .displayHelpOnMissing
    throw .missingSubcommand
  if l.command.arguments.any fun a => a.isRequired && (l.find? a.name).isNone then
    throw .missingArgument
  return l

/-- Completes the levels, the innermost first. -/
def completeAll (environment : List (String × String)) (isInnermost : Bool) :
    List Level → Except UsageFault (List Level)
  | [] => .ok []
  | l :: above => do
    let l ← l.complete environment isInnermost
    return l :: (← completeAll environment false above)

/-- The levels of a command line, the innermost first. -/
def scan (command : CommandSpec) (environment : List (String × String)) (arguments : List String) :
    Except UsageFault (List Level) := do
  let s ← Scan.run command.options ⟨[], .enter [] command, .none, false, 0⟩ arguments
  completeAll environment true (s.level :: s.above)

/-- The value of a global name: the innermost level that gives it counts, unless one above gives it
from a better source. -/
def globalValue? (name : String) : List Level → Option Given
  | [] => none
  | l :: above =>
    match globalValue? name above, l.find? name with
    | none, own => own
    | some outer, none => some outer
    | some outer, some own => if own.source.rank < outer.source.rank then some outer else some own

end GatewayControl.Cli
