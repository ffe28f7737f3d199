import Larder.Api.Envelope
import Larder.Api.Http
import Larder.Json.Writer

/-!
# Exchanges on the wire

A post is written as an HTTP/1.1 message, one per connection, and the answer is read from all the
bytes that come back. The head of a message is lines of ASCII up to an empty one; the body is as long
as the head says, or comes in chunks that each say how long they are, or goes on to the end.
-/

namespace Larder.Api

/-! ## Writing -/

/-- The lines of a message's head, each with its line end, and the empty line behind them. -/
def headText (lines : List String) : String := String.join (lines.map (· ++ "\r\n")) ++ "\r\n"

/-- A post to a host as it goes over the wire. -/
def Post.wire (p : Post) (host : String) : String :=
  let body := p.body.text
  headText (["POST " ++ p.path ++ " HTTP/1.1", "host: " ++ host, "connection: close", "accept: */*",
      "content-type: " ++ p.contentType, "content-length: " ++ toString body.utf8ByteSize]
    ++ (p.authorization.map ("authorization: " ++ ·)).toList) ++ body

/-! ## Reading -/

/-- The byte that ends a line. -/
def lineFeed : UInt8 := 10

/-- The byte that may stand before the end of a line. -/
def carriageReturn : UInt8 := 13

/-- The first line and what is behind it; nothing if no line ends. -/
def splitLine? (bytes : List UInt8) : Option (String × List UInt8) :=
  match bytes.dropWhile (· ≠ lineFeed) with
  | [] => none
  | _ :: rest =>
    let line := (bytes.takeWhile (· ≠ lineFeed)).filter (· ≠ carriageReturn)
    some (String.ofList (line.map fun b => Char.ofNat b.toNat), rest)

theorem splitLine?_shorter {bytes rest : List UInt8} {line : String}
    (h : splitLine? bytes = some (line, rest)) : rest.length < bytes.length := by
  have whole := (List.dropWhile_sublist (· ≠ lineFeed) (l := bytes)).length_le
  simp only [splitLine?] at h
  split at h
  · cases h
  next tail eq =>
    simp only [Option.some.injEq, Prod.mk.injEq] at h
    rw [eq, h.2] at whole
    simp only [List.length_cons] at whole
    omega

/-- The fields of a head, their names in small letters, and what is behind the head. -/
def splitFields? (bytes : List UInt8) : Option (List (String × String) × List UInt8) :=
  match h : splitLine? bytes with
  | none => none
  | some (line, rest) =>
    have := splitLine?_shorter h
    if line.isEmpty then some ([], rest)
    else
      let name := line.toList.takeWhile (· ≠ ':')
      let value := (line.toList.dropWhile (· ≠ ':')).drop 1
      let field := (String.ofList (name.map Char.toLower), (String.ofList value).trimAscii.toString)
      (splitFields? rest).map fun r => (field :: r.1, r.2)
termination_by bytes.length

/-- The number that hexadecimal digits at the start of a line write. -/
def chunkSize (line : String) : Nat :=
  (line.toList.takeWhile fun c => (Endpoint.hexValue? c).isSome).foldl
    (fun n c => n * 16 + (Endpoint.hexValue? c).getD 0) 0

/-- The bytes of a body in chunks, up to the empty chunk; nothing if a chunk is not complete. -/
def unchunk? (bytes : List UInt8) : Option (List UInt8) :=
  match h : splitLine? bytes with
  | none => none
  | some (line, rest) =>
    have := splitLine?_shorter h
    let size := chunkSize line
    if size = 0 then some []
    else if rest.length < size then none
    else
      match h' : splitLine? (rest.drop size) with
      | none => none
      | some (_, rest') =>
        have := List.length_drop ▸ splitLine?_shorter h'
        (unchunk? rest').map (rest.take size ++ ·)
termination_by bytes.length

/-- The bytes of a body, as the fields of its head say. -/
def bodyOf? (fields : List (String × String)) (bytes : List UInt8) : Option (List UInt8) :=
  let field? (name : String) := (fields.find? (·.1 = name)).map Prod.snd
  if field? "transfer-encoding" = some "chunked" then unchunk? bytes
  else
    match (field? "content-length").bind String.toNat? with
    | some n => if bytes.length < n then none else some (bytes.take n)
    | none => some bytes

/-- The answer that came over the wire; nothing if it is not complete. A body that is no text reads
as an empty one, and is as little use. -/
def HttpAnswer.ofWire? (bytes : List UInt8) : Option HttpAnswer := do
  let (line, rest) ← splitLine? bytes
  let status ← (line.splitOn " ")[1]?.bind String.toNat?
  let (fields, rest) ← splitFields? rest
  let body ← bodyOf? fields rest
  return { status := status, body := (Endpoint.textOfBytes? body).getD "" }

end Larder.Api
