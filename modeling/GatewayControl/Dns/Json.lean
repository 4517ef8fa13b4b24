import GatewayControl.Dns.Name
import GatewayControl.Json.Tree

/-!
# `GatewayControl.Dns.Json` -- domain names in JSON

A name is written as a string. Reading accepts every spelling that `parse` accepts.
-/

namespace GatewayControl.DomainName

/-- The JSON form of a name. -/
def toValue (name : DomainName) : Json.Value := .string name.text

/-- The name that a JSON value spells. -/
def ofValue? : Json.Value → Option DomainName
  | .string s => (parse s).toOption
  | _ => none

/-- The name that JSON text spells. -/
def read? (bytes : Bytes) : Option DomainName := do ofValue? (← Json.Value.read? bytes)

end GatewayControl.DomainName
