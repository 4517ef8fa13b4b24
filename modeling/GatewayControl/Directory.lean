import GatewayControl.Json.Tree
import GatewayControl.Key
import GatewayControl.Net.Http

/-!
# `GatewayControl.Directory` -- where the public keys of users come from

A fixed directory lists the keys. An explorer is a web service with one address per user, asked over
HTTP: a user whom it does not know is not found, and every other answer without a record of the user is a
fault of the directory.
-/

namespace GatewayControl

/-- A source of public keys. -/
inductive Directory where
  /-- Keys by user. -/
  | fixed (keys : List (String × Key))
  /-- An explorer at a base URL, and the client that reaches it. -/
  | explorer (base : Url) (client : Http.Client)

namespace Directory

/-- The fixed directory of users with their keys in hexadecimal. -/
def ofHex (entries : List (String × String)) : Except GatewayError Directory := do
  let keys ← entries.mapM fun (user, hex) => do
    return (user, ← Key.parseHex hex)
  return .fixed keys

/-- The explorer at a base URL, reached by a client. -/
def ofUrl (client : Http.Client) (url : String) : Except GatewayError Directory :=
  match Url.parse url with
  | .ok base => .ok (.explorer base client)
  | .error fault =>
    .error (.config ("invalid explorer url '" ++ url ++ "': " ++ fault.message))

/-- The address of a user: the base path without an empty last segment, then the segment `users`
and one segment for the user. -/
def userUrl (base : Url) (user : String) : Except GatewayError Url :=
  match base.segments? with
  | none => .error (.config ("explorer url '" ++ base.text ++ "' cannot be a base"))
  | some segments =>
    let kind := SchemeKind.of base.scheme
    let push := Url.pushSegment kind
    .ok { base with path := .segments (push (push (Url.popIfEmpty segments) "users") user) }

/-- The key in the record of a user. -/
def recordKey? (bytes : Bytes) : Option String := do
  let (_, fields) ← (← Json.Tree.read? bytes).record? ["pkey"] Json.maxDepth
  match fields with
  | [some key] => key.text?
  | _ => none

/-- The public key in the answer of an explorer about a user. -/
def readResponse (user : String) (response : Http.Response) : Except GatewayError Key :=
  if response.status = 404 then .error (.notFound ("user " ++ user))
  else if !response.isSuccess then
    .error (.directory ("explorer returned " ++ response.statusText ++ " for user " ++ user))
  else
    match response.decode recordKey? with
    | .ok key => Key.parseHex key
    | .error reason => .error (.directory ("invalid user record: " ++ reason))

/-- The public key of a user. -/
def fetch (directory : Directory) (user : String) : Except GatewayError Key :=
  match directory with
  | fixed keys =>
    match keys.lookup user with
    | some key => .ok key
    | none => .error (.notFound ("public key of user " ++ user))
  | explorer base client => do
    let url ← userUrl base user
    match Http.get client url with
    | .ok response => readResponse user response
    | .error reason => .error (.directory reason)

end Directory

end GatewayControl
