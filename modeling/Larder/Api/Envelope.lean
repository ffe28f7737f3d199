import Larder.Api.Decode
import Larder.Json.Reader

/-!
# Envelopes

An answer of the service comes in an envelope: the data, and the errors the service reports. Errors
win over data that came with them; an envelope with neither holds no answer.

An exchange with the service fails at the first stage that fails: the transport, the status, the
errors of the service, the absence of data, the shape of the data.
-/

namespace Larder.Api

/-- Why the service gave no usable answer. -/
inductive ServiceError where
  /-- The exchange itself failed. -/
  | transport (detail : String)
  /-- The answer has a status other than success. -/
  | http (operation : String) (status : Nat)
  /-- The service reported errors. -/
  | server (operation : String) (messages : List String)
  /-- The data has another shape than expected. -/
  | decode (operation : String) (fault : DecodeError)
  /-- There is no data. -/
  | missingData (operation : String)

/-- The wording of an error. -/
def ServiceError.message : ServiceError → String
  | .transport detail => "GraphQL transport error: " ++ detail
  | .http operation status => operation ++ " returned HTTP " ++ toString status
  | .server operation messages => operation ++ " failed: " ++ String.intercalate "; " messages
  | .decode operation fault => "failed to decode " ++ operation ++ " response: " ++ fault.message
  | .missingData operation => operation ++ " response has no data"

/-- An envelope. -/
structure Envelope where
  /-- The data, if there is any. -/
  data : Option Json
  /-- The messages of the reported errors. -/
  errors : List String

namespace Envelope

/-- An error entry: an object with a message. -/
def errorEntry : Decoder String := fun j => do
  let ms ← members "GraphQlErrorEntry" [field "message" .required string] j
  required ms "message" string

/-- The fields of an envelope. -/
def fields : List Field := [
  field "data" .optional (nullable any),
  field "errors" .defaulted (list errorEntry)]

/-- An envelope given as a value. -/
def decode : Decoder Envelope := fun j => do
  let ms ← members "GraphQlResponse" fields j
  return {
    data := ← optional ms "data" any
    errors := ← defaulted ms "errors" (list errorEntry) [] }

/-- The data of an envelope. Errors win over data. -/
def extract (operation : String) (e : Envelope) : Except ServiceError Json :=
  if e.errors.isEmpty then
    match e.data with
    | none | some .null => .error (.missingData operation)
    | some data => .ok data
  else .error (.server operation e.errors)

/-! ## Envelopes in text

In text, an envelope is read member by member: names may not be repeated, and members that belong to
no field are passed over without a look at what their numbers and strings stand for. -/

/-- The members of an object with a name. -/
def named (name : String) (ms : List (Option String × Json.Written)) : List Json.Written :=
  (ms.filter fun m => m.1 = some name).map Prod.snd

/-- The message of an error entry in text, `depth` levels deep at most. -/
def writtenMessage? (depth : Nat) : Json.Written → Option String
  | .obj ms =>
    if depth = 0 ∨ ms.any (fun m => m.1.isNone) then none
    else match named "message" ms with
      | [.str s] => s
      | _ => none
  | .arr [.str s] => if depth = 0 then none else s
  | _ => none

/-- The messages of the error entries in text. -/
def writtenErrors? (depth : Nat) : Json.Written → Option (List String)
  | .arr items => if depth = 0 then none else items.mapM (writtenMessage? (depth - 1))
  | _ => none

/-- The data member in text. -/
def writtenData? (depth : Nat) : Json.Written → Option (Option Json)
  | .null => some none
  | w => (w.toJson? depth).map some

/-- The envelope that is written in a text. -/
def ofWritten? : Json.Written → Option Envelope
  | .obj ms =>
    let depth := Json.depthLimit - 1
    if ms.any (fun m => m.1.isNone) then none
    else do
      let data ← match named "data" ms with
        | [] => some none
        | [w] => writtenData? depth w
        | _ => none
      let errors ← match named "errors" ms with
        | [] => some []
        | [w] => writtenErrors? depth w
        | _ => none
      return ⟨data, errors⟩
  | .arr [data] => do
    return ⟨← writtenData? (Json.depthLimit - 1) data, []⟩
  | .arr [data, errors] => do
    return ⟨← writtenData? (Json.depthLimit - 1) data,
      ← writtenErrors? (Json.depthLimit - 1) errors⟩
  | _ => none

/-- The envelope a text holds. -/
def parse? (s : String) : Option Envelope := (Json.writtenIn? s).bind ofWritten?

end Envelope

/-! ## Exchanges -/

/-- An answer as it comes from the server. -/
structure HttpAnswer where
  /-- The status. -/
  status : Nat
  /-- The body. -/
  body : String

/-- The data of an answer: the status counts first, then the body, then what the envelope says. -/
def HttpAnswer.data (a : HttpAnswer) (operation : String) : Except ServiceError Json :=
  if a.status < 200 ∨ a.status > 299 then .error (.http operation a.status)
  else match Envelope.parse? a.body with
    | none => .error (.transport "error decoding response body")
    | some e => e.extract operation

/-- Data that was answered, in the shape asked for. -/
def decoded {α : Type} (operation : String) (d : Decoder α) (answer : Except ServiceError Json) :
    Except ServiceError α :=
  match answer with
  | .error e => .error e
  | .ok j =>
    match d j with
    | .error fault => .error (.decode operation fault)
    | .ok x => .ok x

end Larder.Api
