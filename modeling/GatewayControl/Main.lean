import GatewayControl.Cli.Run
import GatewayControl.Store.Saved
import GatewayControl.Tunnel.Script

/-!
# `GatewayControl.Main` -- the program on its command line

The outer layer of the command line: it reads the files that a run needs and the store, runs, saves
the store and prints. There is no network tool and no network here, so requests to the tunnel device and
to an explorer fail as they do on a machine without them.
-/

namespace GatewayControl.Cli

/-- Adds the file at a path; one that cannot be read is left out. -/
def addFile (files : Files) (path : String) : IO Files := do
  try return files.add path (← IO.FS.readBinFile path).data.toList
  catch _ => return files

/-- The file that an action reads. -/
def Action.file? : Action → Option String
  | .provision file => some file
  | .decommission file => some file
  | _ => none

/-- The variables that stand in for options. -/
def optionVariables : List String := globalOptions.filterMap (·.environment)

/-- The directory that a variable names, if its path is absolute. -/
def absolute? : Option String → Option String
  | some path => if "/".toList.isPrefixOf path.toList then some path else none
  | none => none

/-- A directory of the user: the one that a variable names, or the usual one in the home directory. -/
def userDirectory (name usual : String) : IO String := do
  match absolute? (← IO.getEnv name), ← IO.getEnv "HOME" with
  | some path, _ => return path
  | none, some home => return home ++ "/" ++ usual
  | none, none => return "."

/-- The store that is saved at a path. -/
def loadStore (path : String) : IO TableStore := do
  let files ← addFile .empty path
  match files.read path with
  | .error _ => return .empty
  | .ok bytes => return ((Json.Value.read? bytes).bind TableStore.ofValue?).getD .empty

/-- Carries out arguments in the environment of the process. -/
def runProcess (args : List String) : IO UInt32 := do
  let dirs : BaseDirs :=
    ⟨← userDirectory "XDG_DATA_HOME" ".local/share", ← userDirectory "XDG_CONFIG_HOME" ".config"⟩
  let environment ← optionVariables.filterMapM fun name => do
    return (← IO.getEnv name).map fun value => (name, value)
  let host : ScriptedHost := ⟨false, [], [], [], []⟩
  let mut files := Files.empty
  let mut stores := []
  let mut saved := none
  if let .ok invocation := Invocation.parse environment args then
    let configPath := invocation.config.getD dirs.configPath
    files ← addFile files configPath
    if let some path := invocation.action.file? then files ← addFile files path
    if let .ok config := Config.load dirs files configPath then
      if let some path := config.identity.seedPath then files ← addFile files path
      if config.store.kind = .sqlite then
        if let some place := storePlace? config.store.path then
          stores := [(place, ← loadStore config.store.path)]
          saved := some (config.store.path, place)
  let (exit, machine) := run dirs environment args ⟨files, stores, Http.unreachable, host⟩
  if let some (path, place) := saved then
    if let some store := machine.stores.lookup place then
      if stores.lookup place ≠ some store then IO.FS.writeFile path store.toValue.text
  IO.print exit.output
  IO.eprint exit.errors
  return exit.code.toUInt32

end GatewayControl.Cli

/-- Runs the command line. -/
def main (args : List String) : IO UInt32 := GatewayControl.Cli.runProcess args
