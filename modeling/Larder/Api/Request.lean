import Larder.Api.Documents
import Larder.Json.Basic

/-!
# Requests

A request to the service names an operation, carries the document that defines it and the values of
its variables.
-/

namespace Larder.Api

/-- A request to the service. -/
structure Request where
  /-- The operation. -/
  operation : String
  /-- The document that defines it. -/
  document : String
  /-- The values of its variables. -/
  inputs : Json

/-- The body of a request: its members in ascending order of their names. -/
def Request.body (r : Request) : Json := .obj [
  ("operationName", .str r.operation),
  ("query", .str r.document),
  ("variables", r.inputs)]

end Larder.Api
