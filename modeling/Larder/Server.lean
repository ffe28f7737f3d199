import Larder.Api.Records
import Larder.Api.Request
import Larder.Resource

/-!
# The server's own resources

The session with the server and the settings of the product are single values, each loaded by one
request.
-/

namespace Larder.Server

/-- The session, not loaded yet. -/
def session : Resource Sole Api.SessionInfo where
  name := "session"
  isSingle := true

/-- The request that loads the session. -/
def sessionRequest : Api.Request where
  operation := "getSessionState"
  document := Api.Documents.getSessionState
  inputs := .obj []

/-- The entry an answer to it holds. -/
def sessionEntries (answer : Except Api.ServiceError Json) :
    Except Api.ServiceError (List (Sole × Api.SessionInfo)) :=
  (Api.decoded "getSessionState" Api.sessionAnswer answer).map fun s => [(.only, s)]

/-- Whether the loaded session may be used. -/
def isValid (r : Resource Sole Api.SessionInfo) : Bool :=
  match r.cache.data.get? .only with
  | some s => s.valid
  | none => false

/-- The settings, not loaded yet. -/
def settings : Resource Sole Api.ProductSettings where
  name := "server-settings"
  isSingle := true

/-- The request that loads the settings. -/
def settingsRequest : Api.Request where
  operation := "getProductSettings"
  document := Api.Documents.getProductSettings
  inputs := .obj []

/-- The entry an answer to it holds. -/
def settingsEntries (answer : Except Api.ServiceError Json) :
    Except Api.ServiceError (List (Sole × Api.ProductSettings)) :=
  (Api.decoded "getProductSettings" Api.settingsAnswer answer).map fun s => [(.only, s)]

/-- The value of a loaded setting. -/
def setting? (r : Resource Sole Api.ProductSettings) (key : String) : Option Json :=
  (r.cache.data.get? .only).bind fun s => s.valueOf? key

end Larder.Server
