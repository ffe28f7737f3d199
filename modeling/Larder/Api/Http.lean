import Larder.Api.Request
import Larder.Endpoint.Basic
import Larder.Text.Base64

/-!
# Requests over HTTP

A request is posted as JSON to the endpoint of the service. Who asks is told by a token, or by the
user and the password in the address, which win over the token.
-/

namespace Larder.Api

/-- A request as it is posted. -/
structure Post where
  /-- What is asked for on the host. -/
  path : String
  /-- Who asks. -/
  authorization : Option String
  /-- What the body is. -/
  contentType : String := "application/json"
  /-- The body. -/
  body : Json

/-- Whether a character may stand in a header: no control character but the tab. -/
def isHeaderChar (c : Char) : Bool := c = '\t' || (c.toNat ≥ 0x20 && c.toNat ≠ 0x7f)

/-- The authorization by a token; a token that cannot stand in a header is left out. -/
def tokenAuthorization (token : Option String) : Option String :=
  token.bind fun t => if t.toList.all isHeaderChar then some ("Bearer " ++ t) else none

/-- The authorization by the user and the password in an address. A part that is not UTF-8 does not
count. -/
def userAuthorization (e : Endpoint) : Option String := do
  let user ← Endpoint.decode? e.user
  let password := if e.password.isEmpty then none else Endpoint.decode? e.password
  if user.isEmpty && password.isNone then none
  else
    let bytes := (user ++ ":" ++ password.getD "").toUTF8.toList
    some ("Basic " ++ String.ofList (Text.base64 bytes))

/-- The request as it is posted to an endpoint. -/
def Request.post (r : Request) (e : Endpoint) (token : Option String) : Post where
  path := e.target
  authorization := (userAuthorization e).or (tokenAuthorization token)
  body := r.body

end Larder.Api
