import Larder.Json.Basic

/-!
# Reading JSON text

Text is read in two stages. The first follows the grammar and keeps what is *written*: members in
their order, repeated names included, numbers as their digits, strings that hold half a surrogate
pair marked as unreadable. The second turns what is written into a value and refuses what no value
stands for: nesting beyond the limit, numbers beyond the doubles, unreadable strings. A reader that
skips a member therefore only asks that it follow the grammar.
-/

namespace Larder.Json

/-- A number as its digits. -/
structure Numeral where
  /-- Whether a minus stands in front. -/
  negative : Bool
  /-- The digits before the point. -/
  whole : List Char
  /-- The digits after the point, empty without one. -/
  fraction : List Char
  /-- Whether the exponent is negative, and its digits; nothing without an exponent. -/
  exponent : Option (Bool × List Char)

/-- What stands in a text, before it is taken for a value. -/
inductive Written where
  /-- `null` -/
  | null
  /-- `true` or `false` -/
  | bool (b : Bool)
  /-- A number. -/
  | num (n : Numeral)
  /-- A string; nothing if it holds half a surrogate pair. -/
  | str (s : Option String)
  /-- An array. -/
  | arr (items : List Written)
  /-- An object, its members as they follow each other. -/
  | obj (members : List (Option String × Written))

/-! ## The grammar -/

/-- The text behind its blanks. -/
def skipBlanks : List Char → List Char
  | c :: rest => if c = ' ' ∨ c = '\n' ∨ c = '\t' ∨ c = '\r' then skipBlanks rest else c :: rest
  | [] => []

/-- The digits at the start of a text, and the rest. -/
def spanDigits (cs : List Char) : List Char × List Char := cs.span Char.isDigit

/-- The part of a number behind its point, if there is one. -/
def readFraction : List Char → Option (List Char × List Char)
  | '.' :: rest =>
    match spanDigits rest with
    | ([], _) => none
    | (ds, rest) => some (ds, rest)
  | cs => some ([], cs)

/-- The exponent of a number, if there is one. -/
def readExponent : List Char → Option (Option (Bool × List Char) × List Char)
  | c :: rest =>
    if c = 'e' ∨ c = 'E' then
      let (negative, rest) := match rest with
        | '+' :: rest => (false, rest)
        | '-' :: rest => (true, rest)
        | rest => (false, rest)
      match spanDigits rest with
      | ([], _) => none
      | (ds, rest) => some (some (negative, ds), rest)
    else some (none, c :: rest)
  | [] => some (none, [])

/-- A number: no leading zeros, digits on both sides of a point. -/
def readNumeral (cs : List Char) : Option (Numeral × List Char) :=
  let (negative, cs) := match cs with
    | '-' :: rest => (true, rest)
    | cs => (false, cs)
  match spanDigits cs with
  | ([], _) => none
  | (whole, rest) =>
    if whole.head? = some '0' ∧ whole.length > 1 then none
    else do
      let (fraction, rest) ← readFraction rest
      let (exponent, rest) ← readExponent rest
      return (⟨negative, whole, fraction, exponent⟩, rest)

/-- The value of a hexadecimal digit. -/
def hexValue? (c : Char) : Option Nat :=
  if c.isDigit then some (c.toNat - '0'.toNat)
  else if 'a' ≤ c ∧ c ≤ 'f' then some (c.toNat - 'a'.toNat + 10)
  else if 'A' ≤ c ∧ c ≤ 'F' then some (c.toNat - 'A'.toNat + 10)
  else none

/-- A character of a string: as it is, or a sixteen-bit unit given by its number. -/
inductive StringPart where
  /-- A character. -/
  | char (c : Char)
  /-- A unit written as four hexadecimal digits. -/
  | unit (n : Nat)

/-- The characters of a string up to its closing quote. -/
def readStringParts : List Char → Option (List StringPart × List Char)
  | '"' :: rest => some ([], rest)
  | '\\' :: 'u' :: a :: b :: c :: d :: rest => do
    let n := (((← hexValue? a) * 16 + (← hexValue? b)) * 16 + (← hexValue? c)) * 16
      + (← hexValue? d)
    let (parts, rest) ← readStringParts rest
    return (.unit n :: parts, rest)
  | '\\' :: e :: rest => do
    let c ← match e with
      | '"' => some '"'
      | '\\' => some '\\'
      | '/' => some '/'
      | 'b' => some '\x08'
      | 'f' => some '\x0c'
      | 'n' => some '\n'
      | 'r' => some '\r'
      | 't' => some '\t'
      | _ => none
    let (parts, rest) ← readStringParts rest
    return (.char c :: parts, rest)
  | c :: rest =>
    if c.toNat < 0x20 then none
    else do
      let (parts, rest) ← readStringParts rest
      return (.char c :: parts, rest)
  | [] => none

/-- Join units into characters; a high unit needs a low one right behind it. -/
def joinParts : List StringPart → Option (List Char)
  | [] => some []
  | .char c :: rest => (joinParts rest).map (c :: ·)
  | .unit h :: .unit l :: rest =>
    if 0xD800 ≤ h ∧ h < 0xDC00 then
      if 0xDC00 ≤ l ∧ l < 0xE000 then
        (joinParts rest).map (Char.ofNat (0x10000 + (h - 0xD800) * 0x400 + (l - 0xDC00)) :: ·)
      else none
    else if 0xDC00 ≤ h ∧ h < 0xE000 then none
    else (joinParts (.unit l :: rest)).map (Char.ofNat h :: ·)
  | .unit h :: rest =>
    if 0xD800 ≤ h ∧ h < 0xE000 then none else (joinParts rest).map (Char.ofNat h :: ·)

/-- A string behind its opening quote. -/
def readString (cs : List Char) : Option (Option String × List Char) := do
  let (parts, rest) ← readStringParts cs
  return ((joinParts parts).map String.ofList, rest)

mutual

/-- A value at the start of a text; `fuel` bounds how far the grammar is followed. -/
def readWritten : Nat → List Char → Option (Written × List Char)
  | 0, _ => none
  | fuel + 1, cs =>
    match skipBlanks cs with
    | 'n' :: 'u' :: 'l' :: 'l' :: rest => some (.null, rest)
    | 't' :: 'r' :: 'u' :: 'e' :: rest => some (.bool true, rest)
    | 'f' :: 'a' :: 'l' :: 's' :: 'e' :: rest => some (.bool false, rest)
    | '"' :: rest => (readString rest).map fun (s, rest) => (.str s, rest)
    | '[' :: rest =>
      match skipBlanks rest with
      | ']' :: rest => some (.arr [], rest)
      | rest => (readItems fuel rest).map fun (items, rest) => (.arr items, rest)
    | '\x7b' :: rest =>
      match skipBlanks rest with
      | '\x7d' :: rest => some (.obj [], rest)
      | rest => (readMembers fuel rest).map fun (members, rest) => (.obj members, rest)
    | cs => (readNumeral cs).map fun (n, rest) => (.num n, rest)

/-- One or more items up to the closing bracket. -/
def readItems : Nat → List Char → Option (List Written × List Char)
  | 0, _ => none
  | fuel + 1, cs => do
    let (item, rest) ← readWritten fuel cs
    match skipBlanks rest with
    | ',' :: rest =>
      let (items, rest) ← readItems fuel rest
      return (item :: items, rest)
    | ']' :: rest => return ([item], rest)
    | _ => none

/-- One or more members up to the closing brace. -/
def readMembers : Nat → List Char → Option (List (Option String × Written) × List Char)
  | 0, _ => none
  | fuel + 1, cs =>
    match skipBlanks cs with
    | '"' :: rest => do
      let (name, rest) ← readString rest
      match skipBlanks rest with
      | ':' :: rest =>
        let (value, rest) ← readWritten fuel rest
        match skipBlanks rest with
        | ',' :: rest =>
          let (members, rest) ← readMembers fuel rest
          return ((name, value) :: members, rest)
        | '\x7d' :: rest => return ([(name, value)], rest)
        | _ => none
      | _ => none
    | _ => none

end

/-- What a whole text has written in it, if it is JSON by its grammar. -/
def writtenIn? (s : String) : Option Written :=
  let cs := s.toList
  match readWritten (2 * cs.length + 2) cs with
  | some (w, rest) => if (skipBlanks rest).isEmpty then some w else none
  | none => none

/-! ## Numbers

A number is read as a significand of at most 64 bits, of which digits that do not fit are dropped,
times a power of ten in double arithmetic. -/

/-- A significand with the power of ten behind it. -/
structure Significand where
  /-- At most `2^64 - 1`. -/
  value : Nat
  /-- The power of ten. -/
  exponent : Int

/-- Whether another digit fits. -/
def fitsDigit (value : Nat) (digit : Nat) : Bool := value * 10 + digit < Nat.pow 2 64

/-- Take in digits before the point; from the first that does not fit on, they only count. -/
def takeWhole : Significand → List Char → Significand
  | s, [] => s
  | s, c :: rest =>
    let d := c.toNat - '0'.toNat
    if fitsDigit s.value d then takeWhole ⟨s.value * 10 + d, s.exponent⟩ rest
    else ⟨s.value, s.exponent + (rest.length + 1)⟩

/-- Take in digits behind the point; from the first that does not fit on, they are dropped. -/
def takeFraction : Significand → List Char → Significand
  | s, [] => s
  | s, c :: rest =>
    let d := c.toNat - '0'.toNat
    if fitsDigit s.value d then takeFraction ⟨s.value * 10 + d, s.exponent - 1⟩ rest else s

/-- A power of ten as a double. -/
def powerOfTen (n : Nat) : Float := Float.ofScientific 1 false n

/-- The magnitude `value * 10 ^ exponent`, rounded as double arithmetic rounds it; nothing beyond
the doubles. Far negative exponents are divided out in steps. -/
def scaleFloat : Nat → Float → Int → Option Float
  | 0, x, _ => some x
  | fuel + 1, x, e =>
    if e.natAbs ≤ 308 then
      if e ≥ 0 then
        let y := x * powerOfTen e.toNat
        if y.isInf then none else some y
      else some (x / powerOfTen e.natAbs)
    else if x == 0 then some x
    else if e ≥ 0 then none
    else scaleFloat fuel (x / powerOfTen 308) (e + 308)

/-- The number that digits stand for, as far as they are decimal digits. -/
def digitsValue (ds : List Char) : Nat :=
  ds.foldl (fun n c => n * 10 + (c.toNat - '0'.toNat)) 0

/-- The limit of an exponent that is still computed with. -/
def exponentLimit : Nat := Nat.pow 2 31 - 1

/-- The value of a number, if it is not beyond the doubles. -/
def Numeral.value? (n : Numeral) : Option Json :=
  let signed (x : Float) : Json := .float (Decimal.Double.ofFloat (if n.negative then -x else x))
  let whole := takeWhole ⟨0, 0⟩ n.whole
  if n.fraction.isEmpty ∧ n.exponent.isNone ∧ whole.exponent = 0 then
    -- a whole number, unless it is minus zero or too far below zero
    if n.negative then
      if whole.value = 0 ∨ whole.value > Nat.pow 2 63 then some (signed (Float.ofNat whole.value))
      else some (.int (-(whole.value : Int)))
    else some (.int whole.value)
  else
    let s := takeFraction whole n.fraction
    match n.exponent with
    | none => (scaleFloat 8 (Float.ofNat s.value) s.exponent).map signed
    | some (down, ds) =>
      let e := digitsValue ds
      if e > exponentLimit then
        if s.value ≠ 0 ∧ !down then none else some (signed 0)
      else
        let total := if down then s.exponent - e else s.exponent + e
        (scaleFloat 8 (Float.ofNat s.value) total).map signed

/-! ## From what is written to values -/

/-- How deep arrays and objects may be nested. -/
def depthLimit : Nat := 127

mutual

/-- The value of what is written, with `depth` levels of nesting left. -/
def Written.toJson? (depth : Nat) : Written → Option Json
  | .null => some .null
  | .bool b => some (.bool b)
  | .num n => n.value?
  | .str s => s.map .str
  | .arr items => if depth = 0 then none else (itemsToJson? (depth - 1) items).map .arr
  | .obj members => if depth = 0 then none else (membersToJson? (depth - 1) members).map .ofMembers

/-- The values of items. -/
def itemsToJson? (depth : Nat) : List Written → Option (List Json)
  | [] => some []
  | w :: rest => do
    let j ← w.toJson? depth
    let js ← itemsToJson? depth rest
    return j :: js

/-- The values of members, in their order. -/
def membersToJson? (depth : Nat) : List (Option String × Written) → Option (List (String × Json))
  | [] => some []
  | (name, w) :: rest => do
    let n ← name
    let j ← w.toJson? depth
    let ms ← membersToJson? depth rest
    return (n, j) :: ms

end

/-- The value a whole text stands for. -/
def parse? (s : String) : Option Json :=
  (writtenIn? s).bind (Written.toJson? depthLimit)

end Larder.Json
