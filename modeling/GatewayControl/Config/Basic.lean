import GatewayControl.Config.Setting
import GatewayControl.Files

/-!
# `GatewayControl.Config.Basic` -- the configuration of a node

Every setting has a default, so that an absent file configures a node too. `decode?` reads settings
of either dialect, `load` a file. A loaded configuration has a positive deadline.
-/

namespace GatewayControl

/-- Where the seed of a node comes from, and its name. -/
structure IdentityConfig where
  seed : Option String
  seedPath : Option String
  name : Option String
deriving DecidableEq, Repr

/-- The kinds of stores. -/
inductive StoreKind where
  | sqlite | memory
deriving DecidableEq, Repr

/-- The name of a kind. -/
def StoreKind.text : StoreKind → String
  | sqlite => "sqlite"
  | memory => "memory"

/-- The kind of a name. -/
def StoreKind.ofText? (name : String) : Option StoreKind :=
  if name = "sqlite" then some .sqlite else if name = "memory" then some .memory else none

/-- Where the store of a node is. -/
structure StoreConfig where
  kind : StoreKind
  path : String
deriving DecidableEq, Repr

/-- The tunnel of a node. -/
structure TunnelConfig where
  enabled : Bool
  namespaceName : String
  interface : String
  endpoint : Option String
  keepaliveSecs : UInt16
deriving DecidableEq, Repr

/-- Where the public keys of users are. -/
structure DirectoryConfig where
  explorerUrl : Option String
  keys : List (String × String)
deriving DecidableEq, Repr

/-- The configuration of a node. -/
structure Config where
  timeoutSecs : Nat
  identity : IdentityConfig
  store : StoreConfig
  recordTtl : UInt32
  tunnel : TunnelConfig
  directory : DirectoryConfig
  logLevel : String
deriving DecidableEq, Repr

/-- The directories of a user that defaults refer to. -/
structure BaseDirs where
  data : String
  config : String

/-- Where the configuration of a node is looked for. -/
def BaseDirs.configPath (dirs : BaseDirs) : String := dirs.config ++ "/gridgate/config.toml"

/-- Where the store of a node is kept. -/
def BaseDirs.storePath (dirs : BaseDirs) : String := dirs.data ++ "/gridgate/store.db"

namespace Config

/-- No seed and no name. -/
def noIdentity : IdentityConfig := ⟨none, none, none⟩

/-- The store of a node that says nothing of it. -/
def defaultStore (dirs : BaseDirs) : StoreConfig := ⟨.sqlite, dirs.storePath⟩

/-- How long published records live unless a node says otherwise. -/
def defaultTtl : UInt32 := 3600

/-- The tunnel of a node that says nothing of it. -/
def defaultTunnel : TunnelConfig := ⟨false, "gridgate", "wg-gridgate", none, 25⟩

/-- No explorer and no keys. -/
def noDirectory : DirectoryConfig := ⟨none, []⟩

/-- The configuration of a node that says nothing. -/
def default (dirs : BaseDirs) : Config :=
  ⟨10, noIdentity, defaultStore dirs, defaultTtl, defaultTunnel, noDirectory, "info"⟩

/-! ## Reading settings -/

open Setting

/-- The identity of a node. As a list it has to be complete. -/
def identity? (d : Dialect) (s : Setting) : Option IdentityConfig := do
  match ← s.fields? d ["seed", "seed_path", "name"] 3 with
  | [seed, seedPath, name] =>
    return ⟨← orElse? none optionalText? seed, ← orElse? none optionalText? seedPath,
      ← orElse? none optionalText? name⟩
  | _ => none

/-- The store of a node. -/
def store? (d : Dialect) (dirs : BaseDirs) (s : Setting) : Option StoreConfig := do
  match ← s.fields? d ["backend", "path"] 0 with
  | [kind, path] =>
    return ⟨← orElse? .sqlite (choice? d StoreKind.ofText?) kind, ← orElse? dirs.storePath text? path⟩
  | _ => none

/-- How long published records live. -/
def recordTtl? (d : Dialect) (s : Setting) : Option UInt32 := do
  match ← s.fields? d ["record_ttl"] 0 with
  | [ttl] => orElse? defaultTtl (fun s => (s.natBelow? 0x100000000).map Nat.toUInt32) ttl
  | _ => none

/-- The tunnel of a node. As a list it has to reach the endpoint. -/
def tunnel? (d : Dialect) (s : Setting) : Option TunnelConfig := do
  match ← s.fields? d ["enabled", "namespace", "interface", "endpoint", "keepalive_secs"] 4 with
  | [enabled, namespaceName, interface, endpoint, keepalive] =>
    return ⟨← orElse? defaultTunnel.enabled bool? enabled,
      ← orElse? defaultTunnel.namespaceName text? namespaceName,
      ← orElse? defaultTunnel.interface text? interface,
      ← orElse? none optionalText? endpoint,
      ← orElse? defaultTunnel.keepaliveSecs (fun s => (s.natBelow? 0x10000).map Nat.toUInt16) keepalive⟩
  | _ => none

/-- The directory of a node. As a list it has to reach the explorer. -/
def directory? (d : Dialect) (s : Setting) : Option DirectoryConfig := do
  match ← s.fields? d ["explorer_url", "keys"] 1 with
  | [url, keys] => return ⟨← orElse? none optionalText? url, ← orElse? [] textMap? keys⟩
  | _ => none

/-- The level of logging. -/
def logLevel? (d : Dialect) (s : Setting) : Option String := do
  match ← s.fields? d ["log_level"] 0 with
  | [level] => orElse? "info" text? level
  | _ => none

/-- The configuration that settings describe. -/
def decode? (d : Dialect) (dirs : BaseDirs) (s : Setting) : Option Config := do
  match ← s.fields? d ["operation_timeout_secs", "identity", "store", "dns", "tunnel", "directory",
      "telemetry"] 0 with
  | [timeout, identity, store, dns, tunnel, directory, telemetry] =>
    return ⟨← orElse? 10 (natBelow? 0x10000000000000000) timeout, ← orElse? noIdentity (identity? d) identity,
      ← orElse? (defaultStore dirs) (store? d dirs) store, ← orElse? defaultTtl (recordTtl? d) dns,
      ← orElse? defaultTunnel (tunnel? d) tunnel, ← orElse? noDirectory (directory? d) directory,
      ← orElse? "info" (logLevel? d) telemetry⟩
  | _ => none

/-- The configuration that a JSON value describes. -/
def ofJson? (dirs : BaseDirs) (v : Json.Value) : Option Config :=
  decode? .json dirs (Setting.ofJson v)

/-- The configuration that a TOML text describes. -/
def ofToml? (dirs : BaseDirs) (text : String) : Option Config := do
  decode? .toml dirs (.group (ofTomlMembers (← Toml.read? text)))

/-! ## Loading -/

/-- Refuses a deadline of zero. -/
def validate (config : Config) : Except GatewayError Unit :=
  if config.timeoutSecs = 0 then .error (.config "operation_timeout_secs must be at least 1")
  else .ok ()

/-- Why a configuration could not be loaded. -/
inductive LoadFault where
  | unreadable (fault : FileFault)
  /-- The text is no TOML, or its settings are of other types. -/
  | malformed
  | refused (error : GatewayError)
deriving DecidableEq, Repr

/-- The error that a fault amounts to. -/
def LoadFault.error : LoadFault → GatewayError
  | unreadable fault => .io fault
  | malformed => .config "malformed TOML"
  | refused e => e

/-- Loads the configuration at a path; an absent file leaves every setting at its default. -/
def load (dirs : BaseDirs) (files : Files) (path : String) : Except LoadFault Config :=
  if files.has path then
    match files.readText path with
    | .error fault => .error (.unreadable fault)
    | .ok contents =>
      match ofToml? dirs contents with
      | none => .error .malformed
      | some config =>
        match config.validate with
        | .error e => .error (.refused e)
        | .ok () => .ok config
  else .ok (default dirs)

/-! ## The port of the tunnel -/

/-- A port in decimal; a plus sign and leading zeros are accepted. -/
def port? (cs : List Char) : Option UInt16 :=
  let digits := match cs with
    | '+' :: rest => rest
    | cs => cs
  if digits.isEmpty ∨ !digits.all Char.isDigit then none
  else
    let port : Nat := digits.foldl (fun n c => n * 10 + (c.toNat - 48)) 0
    if port < 0x10000 then some port.toUInt16 else none

/-- The port of an endpoint, which is also the port that the device listens on. -/
def listenPort (tunnel : TunnelConfig) : Except GatewayError UInt16 :=
  match tunnel.endpoint with
  | none => .error (.config "tunnel.endpoint is not set")
  | some endpoint =>
    let cs := endpoint.toList
    if !cs.contains ':' then .error (.config ("tunnel endpoint '" ++ endpoint ++ "' has no port"))
    else match port? (cs.reverse.takeWhile (· ≠ ':')).reverse with
      | some port => .ok port
      | none => .error (.config ("tunnel endpoint '" ++ endpoint ++ "' has an invalid port"))

end Config

end GatewayControl
