import Larder.Json.Basic
import Larder.Text.Blank
import Larder.Text.Quoted
import Larder.Yaml.Core
import Larder.Yaml.Scalar

/-!
# Writing YAML

Values are written in block style: one entry or item on a line, nested ones indented by two, a
sequence under a key as deep as the key. Only empty collections are in brackets. A string is written
plain where it reads back as the same string, else between single quotes; with line breaks as a
literal block; and between double quotes where nothing else can hold it.
-/

namespace Larder.Yaml

/-! ## How a string can be written -/

/-- Whether a character can be written as it is. -/
def isPrintable (c : Char) : Bool :=
  let n := c.toNat
  n = 0x0a || (0x20 ≤ n && n ≤ 0x7e) || (0xa0 ≤ n && n ≤ 0xfffd && n ≠ 0xfeff) || 0x10000 ≤ n

/-- Whether a string holds two characters in a row, the first of one kind and the second of
another. -/
def hasPair (p q : Char → Bool) : List Char → Bool
  | a :: b :: rest => (p a && q b) || hasPair p q (b :: rest)
  | _ => false

/-- Whether nothing, a blank or a line break is next. -/
def blankNext : List Char → Bool
  | [] => true
  | c :: _ => isGap c || isBreak c

/-- Whether a colon or a number sign inside a string would read as an indicator: the colon in front
of a blank, the sign behind one. `afterBlank` tells of the character before. -/
def hasIndicator (afterBlank : Bool) : List Char → Bool
  | [] => false
  | c :: rest =>
    (c = ':' && blankNext rest) || (c = '#' && afterBlank)
      || hasIndicator (isGap c || isBreak c) rest

/-- Whether a string begins with an indicator. -/
def beginsWithIndicator (cs : List Char) : Bool :=
  match cs with
  | [] => false
  | c :: rest =>
    ['#', ',', '[', ']', '\x7b', '\x7d', '&', '*', '!', '|', '>', '\'', '"', '%', '@', '`'].contains c
      || ((c = '?' || c = ':' || c = '-') && blankNext rest)
      || cs.take 3 = ['-', '-', '-'] || cs.take 3 = ['.', '.', '.']

/-- Whether a string holds a line break. -/
def isMultiline (cs : List Char) : Bool := cs.any isBreak

/-- Whether a string begins or ends with a space. -/
def hasOuterSpace (cs : List Char) : Bool := cs.head? = some ' ' || cs.getLast? = some ' '

/-- Whether a string needs double quotes in any case: a character that cannot be written as it is,
or a space before a line break. -/
def needsDouble (cs : List Char) : Bool :=
  !cs.all isPrintable || hasPair (· = ' ') isBreak cs

/-- Whether a string can be written plain. -/
def allowsPlain (cs : List Char) : Bool :=
  !(needsDouble cs || isMultiline cs || hasOuterSpace cs || beginsWithIndicator cs
    || hasIndicator true cs)

/-- Whether a string can be written between single quotes. -/
def allowsSingle (cs : List Char) : Bool := !(needsDouble cs || hasPair isBreak (· = ' ') cs)

/-- Whether a string can be written as a block. -/
def allowsBlock (cs : List Char) : Bool := !(needsDouble cs || cs.getLast? = some ' ')

/-- The style in which a string is written; `inKey` says that it has to fit in front of a colon. -/
def styleOf (inKey : Bool) (s : String) : Style :=
  let cs := s.toList
  if cs.contains '\n' then
    if allowsBlock cs && !inKey then .literal else .doubleQuoted
  else if inKey && isMultiline cs then .doubleQuoted
  else if isText s && allowsPlain cs then .plain
  else if allowsSingle cs then .singleQuoted
  else .doubleQuoted

/-! ## The page -/

/-- What is written so far, and what matters for what follows. -/
structure Page where
  /-- The text. -/
  text : String := ""
  /-- How many characters the last line has. -/
  column : Nat := 0
  /-- Whether a blank would be one too many. -/
  spaced : Bool := true
  /-- Whether the line holds nothing but indentation and marks of items, keys and values. -/
  fresh : Bool := true

namespace Page

/-- Begin a new line. -/
def newLine (p : Page) : Page := { p with text := p.text.push '\n', column := 0 }

/-- Write a character. -/
def put (p : Page) (c : Char) : Page := { p with text := p.text.push c, column := p.column + 1 }

/-- Write characters. -/
def putAll (p : Page) (cs : List Char) : Page := cs.foldl put p

/-- Write a line break of a string. -/
def putBreak (p : Page) (c : Char) : Page :=
  if c = '\n' then p.newLine else { p with text := p.text.push c, column := 0 }

/-- Go to a column, on a new line if this one is taken. -/
def indent (p : Page) (column : Nat) : Page :=
  let p := if !p.fresh || p.column > column || (p.column = column && !p.spaced) then p.newLine else p
  let p := p.putAll (List.replicate (column - p.column) ' ')
  { p with spaced := true, fresh := true }

/-- Write a mark, with a blank in front of it if `apart` holds and none is there. `keepsFresh` says
that more may follow as if the line began there. -/
def mark (p : Page) (m : String) (apart spaced keepsFresh : Bool) : Page :=
  let p := if apart && !p.spaced then p.put ' ' else p
  let p := p.putAll m.toList
  { p with spaced := spaced, fresh := p.fresh && keepsFresh }

/-- Write a plain scalar. -/
def plain (p : Page) (s : String) : Page :=
  let p := if p.spaced || s.isEmpty then p else p.put ' '
  { p.putAll s.toList with spaced := false, fresh := false }

/-- Write the characters of a scalar between single quotes; `broken` says that a line was just
ended. -/
def singleChars (column : Nat) : Bool → List Char → Page → Page
  | broken, [], p => if broken then p.indent column else p
  | broken, c :: rest, p =>
    if isBreak c then
      let p := if !broken && c = '\n' then p.newLine else p
      singleChars column true rest { p.putBreak c with fresh := true }
    else if c = ' ' then singleChars column broken rest (p.put c)
    else
      let p := if broken then p.indent column else p
      let p := if c = '\'' then p.put c else p
      singleChars column false rest { p.put c with fresh := false }

/-- Write a scalar between single quotes. -/
def single (p : Page) (column : Nat) (s : String) : Page :=
  let p := p.mark "'" true false false
  let p := (singleChars column false s.toList p).mark "'" false false false
  { p with spaced := false, fresh := false }

/-- A character between double quotes. -/
def escaped (c : Char) : List Char :=
  let hex (letter : Char) (width : Nat) : List Char :=
    let ds := (Text.hexDigits c.toNat).map Char.toUpper
    '\\' :: letter :: List.replicate (width - ds.length) '0' ++ ds
  if isPrintable c && !isBreak c && c ≠ '"' && c ≠ '\\' then [c]
  else match c with
    | '\x00' => ['\\', '0']
    | '\x07' => ['\\', 'a']
    | '\x08' => ['\\', 'b']
    | '\t' => ['\\', 't']
    | '\n' => ['\\', 'n']
    | '\x0b' => ['\\', 'v']
    | '\x0c' => ['\\', 'f']
    | '\r' => ['\\', 'r']
    | '\x1b' => ['\\', 'e']
    | '"' => ['\\', '"']
    | '\\' => ['\\', '\\']
    | '\x85' => ['\\', 'N']
    | '\u2028' => ['\\', 'L']
    | '\u2029' => ['\\', 'P']
    | c => if c.toNat ≤ 0xff then hex 'x' 2 else if c.toNat ≤ 0xffff then hex 'u' 4 else hex 'U' 8

/-- Write a scalar between double quotes. -/
def double (p : Page) (s : String) : Page :=
  let p := p.mark "\"" true false false
  let p := (p.putAll (s.toList.flatMap escaped)).mark "\"" false false false
  { p with spaced := false, fresh := false }

/-- What tells how a block ends: a hyphen if no line break is to be kept, a plus sign if more than
one is. -/
def chompingMark (cs : List Char) : String :=
  match cs.reverse with
  | [] => "-"
  | c :: rest =>
    if !isBreak c then "-"
    else match rest with
      | [] => "+"
      | d :: _ => if isBreak d then "+" else ""

/-- Write the lines of a block. -/
def blockChars (column : Nat) : Bool → List Char → Page → Page
  | _, [], p => p
  | broken, c :: rest, p =>
    if isBreak c then blockChars column true rest { p.putBreak c with fresh := true }
    else
      let p := if broken then p.indent column else p
      blockChars column false rest { p.put c with fresh := false }

/-- Write a literal block. A string that begins with a blank or a break needs the depth of the
indentation. -/
def block (p : Page) (column : Nat) (s : String) : Page :=
  let cs := s.toList
  let p := p.mark "|" true false false
  let p := match cs with
    | c :: _ => if c = ' ' || isBreak c then p.mark "2" false false false else p
    | [] => p
  let p := p.mark (chompingMark cs) false false false
  blockChars column true cs { p.newLine with spaced := true, fresh := true }

/-- Write a string; `depth` is the column of the lines of a block. -/
def string (p : Page) (depth : Nat) (inKey : Bool) (s : String) : Page :=
  match styleOf inKey s with
  | .plain => p.plain s
  | .singleQuoted => p.single depth s
  | .literal | .folded => p.block depth s
  | .doubleQuoted => p.double s

end Page

/-! ## Values -/

/-- How doubles are written in YAML. -/
def numberLayout : Decimal.Layout := ⟨false⟩

/-- Whether a key fits in front of its colon: on one line, and at most 128 bytes long. -/
def fitsAsKey (s : String) : Bool := !isMultiline s.toList && s.utf8ByteSize ≤ 128

/-- The column of a collection inside another one; the outermost has none around it. -/
def inner : Option Nat → Nat
  | none => 0
  | some n => n + 2

/-- The column of the lines of a scalar in a collection. -/
def scalarColumn : Option Nat → Nat
  | none => 2
  | some n => n + 2

mutual

/-- Write a value in a collection at a column; `asValue` says that it stands behind a key. -/
def writeValue (around : Option Nat) (asValue : Bool) (p : Page) : Json → Page
  | .null => p.plain "null"
  | .bool b => p.plain (if b then "true" else "false")
  | .int n => p.plain (toString n)
  | .float x => p.plain (numberLayout.double x)
  | .str s => p.string (scalarColumn around) false s
  | .arr [] => (p.mark "[" true true false).mark "]" false false false
  | .arr (j :: rest) =>
    let column := if asValue && !p.fresh then around.getD 0 else inner around
    writeItems column p (j :: rest)
  | .obj [] => (p.mark "\x7b" true true false).mark "\x7d" false false false
  | .obj (m :: rest) => writeEntries (inner around) p (m :: rest)

/-- Write the items of a sequence. -/
def writeItems (column : Nat) (p : Page) : List Json → Page
  | [] => p
  | j :: rest =>
    let p := (p.indent column).mark "-" true false true
    writeItems column (writeValue (some column) false p j) rest

/-- Write the entries of a mapping. -/
def writeEntries (column : Nat) (p : Page) : List (String × Json) → Page
  | [] => p
  | (k, v) :: rest =>
    let p := p.indent column
    let p :=
      if fitsAsKey k then (p.string (column + 2) true k).mark ":" false false false
      else
        let p := (p.mark "?" true false true).string (column + 2) false k
        (p.indent column).mark ":" true false true
    writeEntries column (writeValue (some column) true p v) rest

end

/-- A value as YAML, ending in one line break. -/
def text (j : Json) : String := Text.trimEnd (writeValue none false {} j).text ++ "\n"

end Larder.Yaml
