import GatewayControl.Net.Url

/-!
# `GatewayControl.Net.Http` -- requests over the web

What answers a request stands outside: it is a function of the URL (`Client`), which gives a response or
the reason why there is none. A URL whose scheme is neither `http` nor `https` is refused before the client
is asked.
-/

namespace GatewayControl.Http

/-- An answer to a request. -/
structure Response where
  status : UInt16
  /-- What the status is called. -/
  reason : String
  /-- The body, or why it broke off. -/
  body : Except String Bytes

namespace Response

/-- The status with its name. -/
def statusText (r : Response) : String := toString r.status ++ " " ++ r.reason

/-- The status tells of success. -/
def isSuccess (r : Response) : Bool := 200 ≤ r.status && r.status < 300

/-- The body as a decoder reads it. -/
def decode {α : Type} (r : Response) (read? : Bytes → Option α) : Except String α := do
  match read? (← r.body) with
  | some a => .ok a
  | none => .error "error decoding response body"

end Response

/-- What answers requests: a response for each URL, or the reason why there is none. -/
abbrev Client := Url → Except String Response

/-- The URL as it is requested: credentials that are text are sent apart from it. -/
def requestUrl (url : Url) : Url :=
  match url.authority with
  | none => url
  | some a =>
    if (Bytes.toText? (Percent.decode a.username)).isSome then
      { url with authority := some { a with username := [], password := none } }
    else url

/-- A reason together with the URL that was requested. -/
def withUrl (reason : String) (url : Url) : String :=
  reason ++ " for url (" ++ (requestUrl url).text ++ ")"

/-- The answer of a client to a request. -/
def get (client : Client) (url : Url) : Except String Response :=
  if url.scheme = "http" ∨ url.scheme = "https" then client url
  else .error (withUrl "builder error" url)

/-- The client of a machine that reaches no server. -/
def unreachable : Client := fun url => .error (withUrl "error sending request" url)

end GatewayControl.Http
