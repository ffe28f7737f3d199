import Larder.Api.Envelope
import Larder.Api.Request
import Larder.Table

/-!
# The service as the world sees it

Every request gets a ticket. What becomes of it is decided when the request is sent: prepared
answers are handed out in order, operation by operation, the last one again and again; one may come
with a gate, at which the request waits until it is released. A request nobody prepared for gets the
service's usual answer, or waits for one from outside.
-/

namespace Larder.World

/-- What an exchange with the service comes to. -/
abbrev Answer := Except Api.ServiceError Json

/-- An answer prepared for an operation. -/
structure Prepared where
  /-- What is answered. -/
  answer : Answer
  /-- Where the request waits, if it does. -/
  gate : Option String := none

/-- The service: prepared answers, and what happens to all other requests. -/
structure Service where
  /-- For each operation the answers still to be given. -/
  prepared : Table String (List Prepared) := .empty
  /-- The answer to a request nobody prepared for; without one the request waits. -/
  otherwise : String → Option Answer := fun operation => some (.error (.missingData operation))

/-- What becomes of a request that is sent. -/
inductive Fate where
  /-- It is answered at once. -/
  | answered (a : Answer)
  /-- It waits at a gate with its answer. -/
  | gated (gate : String) (a : Answer)
  /-- It waits for an answer from outside. -/
  | unanswered

/-- Send a request for an operation. -/
def Service.send (s : Service) (operation : String) : Service × Fate :=
  let fate (p : Prepared) : Fate :=
    match p.gate with
    | some g => .gated g p.answer
    | none => .answered p.answer
  match s.prepared.get? operation with
  | none | some [] =>
    (s, match s.otherwise operation with
      | some a => .answered a
      | none => .unanswered)
  | some [p] => (s, fate p)
  | some (p :: rest) => ({ s with prepared := s.prepared.set operation rest }, fate p)

/-- Prepare other answers for some operations. -/
def Service.prepare (s : Service) (answers : List (String × List Prepared)) : Service :=
  { s with prepared := answers.foldl (fun t a => t.set a.1 a.2) s.prepared }

end Larder.World
