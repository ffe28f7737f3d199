import Larder.Endpoint.Domain

/-!
# Hosts

A host is a domain or an address of version 4 or 6. A domain whose last label is a number is read as
an address of version 4, in any of the forms such addresses have had: one to four numbers, each
decimal, octal or hexadecimal.
-/

namespace Larder.Endpoint

/-- Why an address is malformed. -/
inductive Fault where
  /-- There is no scheme. -/
  | relative
  /-- The host is empty. -/
  | emptyHost
  /-- The port is no number or too large. -/
  | invalidPort
  /-- The domain is no international domain name. -/
  | invalidDomain
  /-- The host holds a character that no host may hold. -/
  | invalidCharacter
  /-- The host is no address of version 4 though it looks like one. -/
  | invalidVersion4
  /-- The host is no address of version 6 though it looks like one. -/
  | invalidVersion6
deriving DecidableEq, Repr

/-- The wording of a fault. -/
def Fault.message : Fault → String
  | .relative => "relative URL without a base"
  | .emptyHost => "empty host"
  | .invalidPort => "invalid port number"
  | .invalidDomain => "invalid international domain name"
  | .invalidCharacter => "invalid domain character"
  | .invalidVersion4 => "invalid IPv4 address"
  | .invalidVersion6 => "invalid IPv6 address"

/-- A host. -/
inductive Host where
  /-- A domain in its ASCII form. -/
  | domain (name : String)
  /-- An address of version 4. -/
  | version4 (address : Nat)
  /-- An address of version 6: eight numbers of 16 bits. -/
  | version6 (pieces : List Nat)
deriving DecidableEq, Repr

/-- The parts of a text between dots; as many as there are dots, and one more. -/
def dotParts (cs : List Char) : List (List Char) := cs.splitOn '.'

/-! ## Version 4 -/

/-- One number of an address of version 4: nothing if it is none. A number may be too large for any
address. -/
def number4? (cs : List Char) : Option Nat :=
  let value (base : Nat) (ds : List Char) : Option Nat :=
    ds.foldlM (fun n d =>
      match hexValue? d with
      | some v => if v < base then some (n * base + v) else none
      | none => none) 0
  match cs with
  | [] => none
  | '0' :: 'x' :: ds | '0' :: 'X' :: ds => value 16 ds
  | '0' :: d :: ds => value 8 (d :: ds)
  | ds => value 10 ds

/-- Whether a domain is to be read as an address: its last label, apart from an empty one at the
end, is a number. -/
def endsInNumber (cs : List Char) : Bool :=
  let last := match (dotParts cs).reverse with
    | [] :: l :: _ => l
    | l :: _ => l
    | [] => []
  (!last.isEmpty && last.all Char.isDigit) || (number4? last).isSome

/-- The address its numbers make: the last one fills all the bytes that are left. -/
def join4? (numbers : List Nat) : Option Nat :=
  match numbers.reverse with
  | [] => none
  | last :: firsts =>
    let firsts := firsts.reverse
    if firsts.length > 3 ∨ last ≥ Nat.pow 256 (4 - firsts.length) ∨ firsts.any (· > 255) then none
    else
      some (firsts.zipIdx.foldl (fun total n => total + n.1 * Nat.pow 256 (3 - n.2)) last)

/-- An address of version 4. -/
def address4? (cs : List Char) : Option Nat :=
  let parts := dotParts cs
  let parts := if parts.getLast? = some [] then parts.dropLast else parts
  (parts.mapM number4?).bind join4?

/-- The address as four decimal numbers. -/
def text4 (a : Nat) : String :=
  String.intercalate "." ([Nat.pow 256 3, Nat.pow 256 2, 256, 1].map fun d => toString (a / d % 256))

/-! ## Version 6 -/

/-- One decimal number of the version 4 part of an address, up to 255 and without leading zeros. -/
def byte4? (ds : List Char) : Option Nat :=
  match ds with
  | [] => none
  | '0' :: _ :: _ => none
  | ds =>
    if ds.all Char.isDigit then
      let n := ds.foldl (fun n d => n * 10 + (d.toNat - '0'.toNat)) 0
      if n ≤ 255 then some n else none
    else none

/-- The two pieces that a version 4 part stands for. -/
def tail4? (cs : List Char) : Option (List Nat) :=
  match (dotParts cs).mapM byte4? with
  | some [a, b, c, d] => some [a * 256 + b, c * 256 + d]
  | _ => none

/-- One piece: one to four hexadecimal digits. -/
def piece6? (ds : List Char) : Option Nat :=
  if ds.isEmpty ∨ ds.length > 4 then none
  else ds.foldlM (fun n d => (hexValue? d).map fun v => n * 16 + v) 0

/-- The pieces of one side of an address, separated by colons; the last part may be of version 4 if
`atEnd` holds. An empty side has no pieces. -/
def side6? (atEnd : Bool) (cs : List Char) : Option (List Nat) :=
  if cs.isEmpty then some []
  else
    let parts := cs.splitOn ':'
    match parts.reverse with
    | [] => some []
    | last :: firsts => do
      let firsts ← firsts.reverse.mapM piece6?
      let last ← if atEnd && last.contains '.' then tail4? last else (piece6? last).map ([·])
      return firsts ++ last

/-- The first place where two colons stand together: what is before and what is behind. -/
def splitDouble : List Char → Option (List Char × List Char)
  | ':' :: ':' :: rest => some ([], rest)
  | c :: rest => (splitDouble rest).map fun p => (c :: p.1, p.2)
  | [] => none

/-- An address of version 6. Two colons stand for at least one piece of zeros. -/
def address6? (cs : List Char) : Option (List Nat) :=
  match splitDouble cs with
  | none => do
    let pieces ← side6? true cs
    if pieces.length = 8 then some pieces else none
  | some (before, behind) => do
    let left ← side6? false before
    let right ← side6? true behind
    let zeros := 8 - (left.length + right.length)
    if zeros = 0 then none else some (left ++ List.replicate zeros 0 ++ right)

/-- How many zeros a list begins with. -/
def leadingZeroCount (pieces : List Nat) : Nat := (pieces.takeWhile (· = 0)).length

/-- Where the first of the longest runs of two or more zeros begins, and how long it is. -/
def longestZeros (pieces : List Nat) : Option (Nat × Nat) :=
  let runs := (List.range pieces.length).map fun i => (i, leadingZeroCount (pieces.drop i))
  let best := runs.foldl (fun (b : Nat × Nat) r => if r.2 > b.2 then r else b) (0, 0)
  if best.2 ≥ 2 then some best else none

/-- Pieces in hexadecimal, with colons between them. -/
def pieces6 (pieces : List Nat) : String :=
  String.intercalate ":" (pieces.map fun p => String.ofList (Text.hexDigits p))

/-- The address with its longest run of zeros left out. -/
def text6 (pieces : List Nat) : String :=
  match longestZeros pieces with
  | none => pieces6 pieces
  | some (start, length) =>
    pieces6 (pieces.take start) ++ "::" ++ pieces6 (pieces.drop (start + length))

/-! ## Hosts in text -/

/-- The text of a host. -/
def Host.text : Host → String
  | .domain name => name
  | .version4 a => text4 a
  | .version6 pieces => "[" ++ text6 pieces ++ "]"

/-- A host in square brackets, given with its opening bracket taken off. -/
def bracketed (cs : List Char) : Except Fault Host :=
  match cs.reverse with
  | ']' :: inner =>
    match address6? inner.reverse with
    | some pieces => .ok (.version6 pieces)
    | none => .error .invalidVersion6
  | _ => .error .invalidVersion6

/-- The host of an address with one of the schemes of the web. -/
def Host.parse (cs : List Char) : Except Fault Host :=
  match cs with
  | '[' :: rest => bracketed rest
  | _ =>
    match (textOfBytes? (decodeBytes cs)).bind domainToAscii? with
    | none => .error .invalidDomain
    | some name =>
      if name.isEmpty then .error .emptyHost
      else if endsInNumber name.toList then
        match address4? name.toList with
        | some a => .ok (.version4 a)
        | none => .error .invalidVersion4
      else .ok (.domain name)

/-- Characters no host may hold. -/
def forbiddenInHost (c : Char) : Bool :=
  c.toNat = 0 || ['\t', '\n', '\r', ' ', '#', '/', ':', '<', '>', '?', '@', '[', '\\', ']', '^',
    '|'].contains c

/-- The host of an address with any other scheme: its text stays as it is. -/
def Host.parseOpaque (cs : List Char) : Except Fault Host :=
  match cs with
  | '[' :: rest => bracketed rest
  | _ =>
    if cs.any forbiddenInHost then .error .invalidCharacter
    else .ok (.domain (String.ofList (encode escapedAnywhere cs)))

end Larder.Endpoint
