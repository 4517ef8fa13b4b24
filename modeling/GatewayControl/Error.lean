/-!
# `GatewayControl.Error` -- why a request to the gateway fails

An error keeps its cause; `kind`, `message` and the three classifications are read off it. Of the
causes, a storage fault tells a refusal by the store (`wrongType`, `task`) from an operation that
gave up on a contended key and from a stored value that cannot be read.
-/

namespace GatewayControl

/-- How often an operation reads, checks and conditionally writes before it gives up on a key that
others keep changing. -/
def claimAttempts : Nat := 3

/-- A store call that did not answer. -/
inductive StoreFault where
  /-- The key holds a hash where a plain value was expected, or the other way round. -/
  | wrongType (key : String)
  /-- The task that carried out the call failed. -/
  | task (reason : String)
deriving DecidableEq, Repr

/-- The wording of a store fault. -/
def StoreFault.message : StoreFault → String
  | wrongType key => "WRONGTYPE operation against key '" ++ key ++ "' holding the wrong kind of value"
  | task reason => "store task failed: " ++ reason

/-- Why a file could not be read. -/
inductive FileFault where
  | missing
  | notDirectory
  | isDirectory
  | notText
deriving DecidableEq, Repr

/-- The wording of a file fault. -/
def FileFault.message : FileFault → String
  | missing => "No such file or directory (os error 2)"
  | notDirectory => "Not a directory (os error 20)"
  | isDirectory => "Is a directory (os error 21)"
  | notText => "stream did not contain valid UTF-8"

/-- What can go wrong between an operation and the store. -/
inductive StorageFault where
  | store (fault : StoreFault)
  | contended (key : String)
  | other (reason : String)
deriving DecidableEq, Repr

/-- The wording of a storage fault. -/
def StorageFault.message : StorageFault → String
  | store fault => fault.message
  | contended key =>
    "gave up on '" ++ key ++ "' after " ++ toString claimAttempts ++ " concurrent updates"
  | other reason => reason

/-- The classes of failure that callers tell apart. -/
inductive ErrorKind where
  | validation | unauthorized | notFound | storage | device | timeout | directory | unsupported
  | config | json | io
deriving DecidableEq, Repr

/-- Why a request failed. -/
inductive GatewayError where
  /-- The request itself is malformed. -/
  | validation (reason : String)
  /-- Somebody else owns the zone, label or domain. -/
  | unauthorized (action resource : String)
  | notFound (resource : String)
  | storage (fault : StorageFault)
  /-- The tunnel device or its namespace refused. -/
  | device (reason : String)
  | timeout (seconds : Nat)
  /-- The directory of public keys failed. -/
  | directory (reason : String)
  /-- This node does not serve the workload type. -/
  | unsupported (type : String)
  | config (reason : String)
  /-- A text is not the JSON form of the value it should hold. -/
  | json
  | io (fault : FileFault)
deriving DecidableEq, Repr

namespace GatewayError

/-- The class of an error. -/
def kind : GatewayError → ErrorKind
  | validation _ => .validation
  | unauthorized _ _ => .unauthorized
  | notFound _ => .notFound
  | storage _ => .storage
  | device _ => .device
  | timeout _ => .timeout
  | directory _ => .directory
  | unsupported _ => .unsupported
  | config _ => .config
  | json => .json
  | io _ => .io

/-- The wording of an error. -/
def message : GatewayError → String
  | validation reason => "validation failed: " ++ reason
  | unauthorized action resource => "unauthorized: cannot " ++ action ++ " " ++ resource
  | notFound resource => "resource not found: " ++ resource
  | storage fault => "storage error: " ++ fault.message
  | device reason => "device error: " ++ reason
  | timeout seconds => "operation timed out after " ++ toString seconds ++ " seconds"
  | directory reason => "identity directory error: " ++ reason
  | unsupported type => "unsupported workload type: " ++ type
  | config reason => "configuration error: " ++ reason
  | json => "JSON error"
  | io fault => "I/O error: " ++ fault.message

/-- The same request may succeed later. -/
def isRetryable (e : GatewayError) : Bool :=
  match e.kind with
  | .storage | .device | .timeout | .directory | .io => true
  | _ => false

/-- The error is a conflict of ownership. -/
def isAuth (e : GatewayError) : Bool := e.kind == .unauthorized

/-- The request itself was malformed. -/
def isValidation (e : GatewayError) : Bool := e.kind == .validation

end GatewayError

/-- The wording of a request without a user. -/
def emptyUser : GatewayError := .validation "user cannot be empty"

/-- Refuses the empty user. -/
def requireUser (user : String) : Except GatewayError Unit :=
  if user = "" then .error emptyUser else .ok ()

end GatewayControl
