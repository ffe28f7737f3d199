/-!
# Places in a YAML text

A cursor stands in front of a character and knows its line and column. Indentation decides much in
YAML, so every step keeps count of them.
-/

namespace Larder.Yaml

/-- A place in a text. -/
structure Cursor where
  /-- What is ahead. -/
  rest : List Char
  /-- How many characters are behind. -/
  index : Nat := 0
  /-- How many lines are behind. -/
  line : Nat := 0
  /-- How many characters of the line are behind. -/
  column : Nat := 0

/-- Whether a character breaks a line. -/
def isBreak (c : Char) : Bool :=
  c = '\n' || c = '\r' || c = '\x85' || c = '\u2028' || c = '\u2029'

/-- Whether a character is a space or a tab. -/
def isGap (c : Char) : Bool := c = ' ' || c = '\t'

/-- Whether a character may stand in a name: a letter or digit of ASCII, a hyphen or an
underscore. -/
def isNameChar (c : Char) : Bool := c.isAlphanum || c = '_' || c = '-'

namespace Cursor

/-- The character `n` places ahead. -/
def look (c : Cursor) (n : Nat) : Option Char := (c.rest.drop n).head?

/-- The next character. -/
def next? (c : Cursor) : Option Char := c.rest.head?

/-- Whether the next character is a given one. -/
def sees (c : Cursor) (ch : Char) : Bool := c.next? = some ch

/-- Whether the text is at its end. -/
def atEnd (c : Cursor) : Bool := c.rest.isEmpty

/-- Whether the character `n` places ahead breaks the line or is missing. -/
def endsLineAt (c : Cursor) (n : Nat) : Bool :=
  match c.look n with
  | some ch => isBreak ch
  | none => true

/-- Whether the character `n` places ahead is a space, a tab or a line break, or is missing. -/
def endsWordAt (c : Cursor) (n : Nat) : Bool :=
  match c.look n with
  | some ch => isBreak ch || isGap ch
  | none => true

/-- Whether the next character is a space or a tab. -/
def seesGap (c : Cursor) : Bool :=
  match c.next? with
  | some ch => isGap ch
  | none => false

/-- Whether the next character breaks the line. -/
def seesBreak (c : Cursor) : Bool :=
  match c.next? with
  | some ch => isBreak ch
  | none => false

/-- One character ahead, on the same line. -/
def skip (c : Cursor) : Cursor :=
  match c.rest with
  | [] => c
  | _ :: rest => { c with rest := rest, index := c.index + 1, column := c.column + 1 }

/-- Some characters ahead, on the same line. -/
def skipMany (c : Cursor) : Nat → Cursor
  | 0 => c
  | n + 1 => c.skip.skipMany n

/-- Behind the line break that is next. -/
def skipLine (c : Cursor) : Cursor :=
  match c.rest with
  | '\r' :: '\n' :: rest => ⟨rest, c.index + 2, c.line + 1, 0⟩
  | ch :: rest => if isBreak ch then ⟨rest, c.index + 1, c.line + 1, 0⟩ else c
  | [] => c

/-- What the line break that is next stands for in a scalar: a line feed, or itself if it separates
lines or paragraphs. -/
def lineBreak (c : Cursor) : List Char :=
  match c.next? with
  | some ch => if !isBreak ch then [] else if ch = '\u2028' || ch = '\u2029' then [ch] else ['\n']
  | none => []

/-- Ahead over characters of a kind, on the same line, and what they were. -/
def takeWhile (c : Cursor) (p : Char → Bool) : List Char × Cursor :=
  let taken := c.rest.takeWhile p
  (taken, { c with
    rest := c.rest.drop taken.length
    index := c.index + taken.length
    column := c.column + taken.length })

/-- Ahead over characters of a kind, on the same line. -/
def skipWhile (c : Cursor) (p : Char → Bool) : Cursor := (c.takeWhile p).2

/-- To the end of the line. -/
def skipToBreak (c : Cursor) : Cursor := c.skipWhile fun ch => !isBreak ch

/-- Behind the rest of a line that may hold nothing but blanks and a comment. -/
def finishLine? (c : Cursor) : Option Cursor :=
  let c := c.skipWhile isGap
  let c := if c.sees '#' then c.skipToBreak else c
  if c.endsLineAt 0 then some c.skipLine else none

/-- Whether a mark of three characters stands here, at the start of a line. -/
def seesMark (c : Cursor) (ch : Char) : Bool :=
  c.column = 0 && c.look 0 = some ch && c.look 1 = some ch && c.look 2 = some ch && c.endsWordAt 3

/-- Whether the start or the end of a document is marked here. -/
def seesDocumentMark (c : Cursor) : Bool := c.seesMark '-' || c.seesMark '.'

end Cursor

end Larder.Yaml
