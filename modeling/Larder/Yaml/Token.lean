import Larder.Yaml.Scalar

/-!
# Tokens of YAML

A YAML text is a sequence of tokens: scalars, indicators, and the starts and ends of collections.
Outside of brackets the indentation decides where collections start and end. A key needs no mark of
its own, so that something may turn out to be one only when the colon behind it is read; until then
it is a *candidate*, and the tokens that open it are put in front of it later. A candidate has to be
on one line and no longer than 1024 characters.
-/

namespace Larder.Yaml

/-- A token. -/
inductive Token where
  /-- The version a document is written for. -/
  | version (major minor : Nat)
  /-- A shorthand for tags. -/
  | shorthand (handle lead : String)
  /-- `---` -/
  | documentStart
  /-- `...` -/
  | documentEnd
  /-- A sequence begins by its indentation. -/
  | blockSequence
  /-- A mapping begins by its indentation. -/
  | blockMapping
  /-- A collection ends by its indentation. -/
  | blockEnd
  /-- An opening square bracket. -/
  | flowSequence
  /-- A closing square bracket. -/
  | flowSequenceEnd
  /-- An opening brace. -/
  | flowMapping
  /-- A closing brace. -/
  | flowMappingEnd
  /-- A hyphen in front of an item. -/
  | item
  /-- A comma. -/
  | comma
  /-- A key follows. -/
  | key
  /-- A value follows. -/
  | value
  /-- A reference to an anchored node. -/
  | reference (name : String)
  /-- The name of the node that follows. -/
  | anchor (name : String)
  /-- The tag of the node that follows. -/
  | tag (handle suffix : String)
  /-- A scalar. -/
  | scalar (style : Style) (text : String)
deriving DecidableEq, Repr

/-- Something that may turn out to be a key. -/
structure Candidate where
  /-- How many tokens are in front of it. -/
  token : Nat
  /-- Whether nothing but a key can stand there. -/
  required : Bool
  /-- Where it begins. -/
  start : Cursor

/-- The state of reading tokens. -/
structure Scanner where
  /-- Where the text is read. -/
  cursor : Cursor
  /-- The tokens so far. -/
  tokens : List Token := []
  /-- For each open bracket, innermost first, and for the text around them, what may be a key. -/
  candidates : List (Option Candidate) := [none]
  /-- The column of the innermost collection made by indentation; -1 without one. -/
  indent : Int := -1
  /-- The columns around it. -/
  indents : List Int := []
  /-- Whether a key without a mark may start here. -/
  keyAllowed : Bool := true

namespace Scanner

/-- Whether a bracket is open. -/
def inFlow (s : Scanner) : Bool := s.candidates.length > 1

/-- Put a token at the end. -/
def emit (s : Scanner) (t : Token) : Scanner := { s with tokens := s.tokens ++ [t] }

/-- Put a token in front of the one with a number. -/
def insertAt (s : Scanner) (n : Nat) (t : Token) : Scanner :=
  { s with tokens := s.tokens.take n ++ t :: s.tokens.drop n }

/-- Forget the candidate, unless it has to be a key. -/
def dropCandidate? (s : Scanner) : Option Scanner :=
  match s.candidates with
  | some k :: rest => if k.required then none else some { s with candidates := none :: rest }
  | _ => some s

/-- Remember that a key may start here. -/
def markCandidate? (s : Scanner) : Option Scanner :=
  if !s.keyAllowed then some s
  else do
    let s ← s.dropCandidate?
    let required := !s.inFlow && s.indent = s.cursor.column
    return { s with candidates := some ⟨s.tokens.length, required, s.cursor⟩ :: s.candidates.drop 1 }

/-- Forget candidates that became too long. One that has to be a key may not. -/
def dropStale? (s : Scanner) : Option Scanner := do
  let stale (k : Candidate) : Bool :=
    k.start.line < s.cursor.line || k.start.index + 1024 < s.cursor.index
  if s.candidates.any fun k => k.any fun k => stale k && k.required then none
  else
    return { s with candidates := s.candidates.map fun k => k.filter fun k => !stale k }

/-- Close the collections that are indented further than a column. -/
def unroll (column : Int) : List Int → Scanner → Scanner
  | [], s => s
  | outer :: rest, s =>
    if s.indent > column then
      unroll column rest { s.emit .blockEnd with indent := outer, indents := rest }
    else s

/-- Close collections by the indentation, which counts outside of brackets only. -/
def closeTo (s : Scanner) (column : Int) : Scanner :=
  if s.inFlow then s else unroll column s.indents s

/-- Open a collection at a column if it is indented further than the one around it; its token stands
in front of the token with a number, or at the end. -/
def openAt (s : Scanner) (column : Int) (place : Option Nat) (t : Token) : Scanner :=
  if s.inFlow || !(s.indent < column) then s
  else
    let s := { s with indent := column, indents := s.indent :: s.indents }
    match place with
    | some n => s.insertAt n t
    | none => s.emit t

/-- The scanner further on. -/
def moveTo (s : Scanner) (c : Cursor) : Scanner := { s with cursor := c }

/-- Over blanks, comments and line breaks to the next token. -/
def skipToToken : Nat → Scanner → Scanner
  | 0, s => s
  | fuel + 1, s =>
    let tabs := s.inFlow || !s.keyAllowed
    let c := s.cursor.skipWhile fun ch => ch = ' ' || (tabs && ch = '\t')
    let c := if c.sees '#' then c.skipToBreak else c
    if c.seesBreak then
      skipToToken fuel { s with cursor := c.skipLine, keyAllowed := s.keyAllowed || !s.inFlow }
    else s.moveTo c

/-! ## Names and tags -/

/-- A name behind an anchor or a reference. -/
def anchorName? (c : Cursor) : Option (String × Cursor) :=
  let (name, c) := c.takeWhile isNameChar
  let ends := c.endsWordAt 0 || match c.next? with
    | some ch => ['?', ':', ',', ']', '\x7d', '%', '@', '`'].contains ch
    | none => false
  if name.isEmpty || !ends then none else some (String.ofList name, c)

/-- The handle of a tag: an exclamation mark, and maybe a name and another one. -/
def tagHandle (c : Cursor) : List Char × Cursor :=
  let (name, d) := c.skip.takeWhile isNameChar
  if d.sees '!' then ('!' :: name ++ ['!'], d.skip) else ('!' :: name, d)

/-- The byte of an escape: a percent sign and two hexadecimal digits. -/
def tagByte? (c : Cursor) : Option (Nat × Cursor) :=
  if !c.sees '%' then none
  else match c.look 1, c.look 2 with
    | some a, some b => (hexNumber? [a, b]).map fun n => (n, c.skipMany 3)
    | _, _ => none

/-- The bytes that continue a character, each an escape. -/
def tagTail? : Nat → Nat → Cursor → Option (Nat × Cursor)
  | 0, n, c => some (n, c)
  | count + 1, n, c =>
    match tagByte? c with
    | some (b, c) => if b / 64 = 2 then tagTail? count (n * 64 + b % 64) c else none
    | none => none

/-- The character of one escape or more. -/
def tagEscape? (c : Cursor) : Option (Char × Cursor) := do
  let (b, c) ← tagByte? c
  let (n, c) ←
    if b < 0x80 then some (b, c)
    else if b / 32 = 6 then tagTail? 1 (b % 32) c
    else if b / 16 = 14 then tagTail? 2 (b % 16) c
    else if b / 8 = 30 then tagTail? 3 (b % 8) c
    else none
  return (Char.ofNat n, c)

/-- Characters that may stand in a tag; some of them only where the tag is given in full. -/
def isTagChar (full : Bool) (c : Char) : Bool :=
  isNameChar c || [';', '/', '?', ':', '@', '&', '=', '+', '$', '.', '!', '~', '*', '\'', '(', ')',
    '%'].contains c || (full && [',', '[', ']'].contains c)

/-- The text of a tag as far as it goes. -/
def tagText? (full : Bool) : Nat → Cursor → List Char → Option (List Char × Cursor)
  | 0, c, acc => some (acc.reverse, c)
  | fuel + 1, c, acc =>
    match c.next? with
    | none => some (acc.reverse, c)
    | some ch =>
      if !isTagChar full ch then some (acc.reverse, c)
      else if ch = '%' then
        match tagEscape? c with
        | some (e, c) => tagText? full fuel c (e :: acc)
        | none => none
      else tagText? full fuel c.skip (ch :: acc)

/-- A tag, in full or by its handle. -/
def tag? (inFlow : Bool) (c : Cursor) : Option (Token × Cursor) := do
  let fuel := c.rest.length
  let (t, c) ← if c.look 1 = some '<' then do
      let (text, c) ← tagText? true fuel (c.skipMany 2) []
      if text.isEmpty || !c.sees '>' then none
      else some (Token.tag "" (String.ofList text), c.skip)
    else do
      let (handle, c) := tagHandle c
      if handle.length > 1 && handle.getLast? = some '!' then
        let (text, c) ← tagText? false fuel c []
        if text.isEmpty then none
        else some (Token.tag (String.ofList handle) (String.ofList text), c)
      else
        let (text, c) ← tagText? false fuel c []
        let suffix := handle.drop 1 ++ text
        some (if suffix.isEmpty then Token.tag "" "!" else Token.tag "!" (String.ofList suffix), c)
  if c.endsWordAt 0 || (inFlow && c.sees ',') then some (t, c) else none

/-! ## Directives -/

/-- A number of a version. -/
def versionNumber? (c : Cursor) : Option (Nat × Cursor) :=
  let (ds, c) := c.takeWhile Char.isDigit
  if ds.isEmpty || ds.length > 9 then none
  else some (ds.foldl (fun n d => n * 10 + (d.toNat - '0'.toNat)) 0, c)

/-- A directive behind its percent sign, up to the end of its line. -/
def directive? (c : Cursor) : Option (Token × Cursor) := do
  let (name, c) := c.takeWhile isNameChar
  if name.isEmpty || !c.endsWordAt 0 then none
  else
    let (t, c) ←
      if name = "YAML".toList then do
        let (major, c) ← versionNumber? (c.skipWhile isGap)
        if !c.sees '.' then none
        else
          let (minor, c) ← versionNumber? c.skip
          some (Token.version major minor, c)
      else if name = "TAG".toList then do
        let c := c.skipWhile isGap
        if !c.sees '!' then none
        else
          let (handle, c) := tagHandle c
          if (handle.length > 1 && handle.getLast? ≠ some '!') || !c.seesGap then none
          else
            let (lead, c) ← tagText? true c.rest.length (c.skipWhile isGap) []
            if lead.isEmpty || !c.endsWordAt 0 then none
            else some (Token.shorthand (String.ofList handle) (String.ofList lead), c)
      else none
    return (t, ← c.finishLine?)

/-! ## Tokens one by one -/

/-- An indicator of so many characters. -/
def indicator (s : Scanner) (t : Token) (length : Nat) (keyAllowed : Bool) : Scanner :=
  { s.emit t with cursor := s.cursor.skipMany length, keyAllowed := keyAllowed }

/-- A directive, or a mark of a document: everything before it is closed. -/
def atDocumentEdge? (s : Scanner) : Option Scanner :=
  ({ s.closeTo (-1) with keyAllowed := false }).dropCandidate?

/-- An opening bracket. -/
def openBracket? (s : Scanner) (t : Token) : Option Scanner := do
  let s ← s.markCandidate?
  return { s with candidates := none :: s.candidates }.indicator t 1 true

/-- A closing bracket. -/
def closeBracket? (s : Scanner) (t : Token) : Option Scanner := do
  let s ← s.dropCandidate?
  let s := if s.inFlow then { s with candidates := s.candidates.drop 1 } else s
  return s.indicator t 1 false

/-- A hyphen in front of an item. -/
def itemMark? (s : Scanner) : Option Scanner := do
  if !s.inFlow && !s.keyAllowed then none
  else
    let s ← (s.openAt s.cursor.column none .blockSequence).dropCandidate?
    return s.indicator .item 1 true

/-- A question mark in front of a key. -/
def keyMark? (s : Scanner) : Option Scanner := do
  if !s.inFlow && !s.keyAllowed then none
  else
    let s ← (s.openAt s.cursor.column none .blockMapping).dropCandidate?
    return s.indicator .key 1 !s.inFlow

/-- A colon in front of a value. If there is a candidate, it is a key. -/
def valueMark? (s : Scanner) : Option Scanner :=
  match s.candidates with
  | some k :: rest =>
    let s := ({ s with candidates := none :: rest }.insertAt k.token .key).openAt k.start.column
      (some k.token) .blockMapping
    some (s.indicator .value 1 false)
  | _ =>
    if !s.inFlow && !s.keyAllowed then none
    else
      some ((s.openAt s.cursor.column none .blockMapping).indicator .value 1 !s.inFlow)

/-- A token that may be, or begin, a key. -/
def nodeToken? (s : Scanner) (read : Cursor → Option (Token × Cursor)) : Option Scanner := do
  let s ← s.markCandidate?
  let (t, c) ← read s.cursor
  return { s.emit t with cursor := c, keyAllowed := false }

/-- A block scalar. -/
def blockToken? (s : Scanner) (literal : Bool) : Option Scanner := do
  let s ← s.dropCandidate?
  let (text, c) ← blockScalar? literal s.indent s.cursor.skip
  let style : Style := if literal then .literal else .folded
  return { s.emit (.scalar style (String.ofList text)) with cursor := c, keyAllowed := true }

/-- A plain scalar. -/
def plainToken? (s : Scanner) : Option Scanner := do
  let s ← s.markCandidate?
  let fuel := s.cursor.rest.length + 1
  let (text, c, broken) ← plainScalar? (s.indent + 1) s.inFlow fuel s.cursor [] (.blanks [])
  return { s.emit (.scalar .plain (String.ofList text)) with cursor := c, keyAllowed := broken }

/-- Characters that begin no plain scalar, though three of them may in front of others. -/
def isIndicator (c : Char) : Bool :=
  ['-', '?', ':', ',', '[', ']', '\x7b', '\x7d', '#', '&', '*', '!', '|', '>', '\'', '"', '%', '@',
    '`'].contains c

/-- Whether a plain scalar may begin here. -/
def beginsPlain (s : Scanner) (ch : Char) : Bool :=
  let c := s.cursor
  let second := match c.look 1 with
    | some d => isGap d
    | none => false
  !(isGap ch || isBreak ch || isIndicator ch)
    || (ch = '-' && !second)
    || (!s.inFlow && (ch = '?' || ch = ':') && !c.endsWordAt 1)

/-- Read the next token. -/
def nextToken? (s : Scanner) (ch : Char) : Option Scanner :=
  let c := s.cursor
  if c.column = 0 && ch = '%' then do
    let s ← s.atDocumentEdge?
    let (t, c) ← directive? s.cursor.skip
    return (s.emit t).moveTo c
  else if c.seesMark '-' then do
    return (← s.atDocumentEdge?).indicator .documentStart 3 false
  else if c.seesMark '.' then do
    return (← s.atDocumentEdge?).indicator .documentEnd 3 false
  else match ch with
    | '[' => s.openBracket? .flowSequence
    | '\x7b' => s.openBracket? .flowMapping
    | ']' => s.closeBracket? .flowSequenceEnd
    | '\x7d' => s.closeBracket? .flowMappingEnd
    | ',' => do return (← s.dropCandidate?).indicator .comma 1 true
    | '*' => s.nodeToken? fun c => (anchorName? c.skip).map fun p => (.reference p.1, p.2)
    | '&' => s.nodeToken? fun c => (anchorName? c.skip).map fun p => (.anchor p.1, p.2)
    | '!' => s.nodeToken? (tag? s.inFlow)
    | '\'' => s.nodeToken? fun c =>
        (quotedScalar? true (c.rest.length + 1) c.skip []).map fun p =>
          (.scalar .singleQuoted (String.ofList p.1), p.2)
    | '"' => s.nodeToken? fun c =>
        (quotedScalar? false (c.rest.length + 1) c.skip []).map fun p =>
          (.scalar .doubleQuoted (String.ofList p.1), p.2)
    | ch =>
      if ch = '-' && c.endsWordAt 1 then s.itemMark?
      else if ch = '?' && (s.inFlow || c.endsWordAt 1) then s.keyMark?
      else if ch = ':' && (s.inFlow || c.endsWordAt 1) then s.valueMark?
      else if ch = '|' && !s.inFlow then s.blockToken? true
      else if ch = '>' && !s.inFlow then s.blockToken? false
      else if s.beginsPlain ch then s.plainToken?
      else none

/-- Read all tokens. -/
def scan? : Nat → Scanner → Option (List Token)
  | 0, _ => none
  | fuel + 1, s => do
    let s ← (skipToToken (s.cursor.rest.length + 1) s).dropStale?
    let s := s.closeTo s.cursor.column
    match s.cursor.next? with
    | none => do
      let s ← (s.closeTo (-1)).dropCandidate?
      return s.tokens
    | some ch => scan? fuel (← s.nextToken? ch)

end Scanner

/-- Characters that may stand in a YAML text. -/
def isAllowed (c : Char) : Bool :=
  let n := c.toNat
  n = 0x09 || n = 0x0a || n = 0x0d || (0x20 ≤ n && n ≤ 0x7e) || n = 0x85
    || (0xa0 ≤ n && n ≤ 0xfffd && n ≠ 0xfeff) || 0x10000 ≤ n

/-- The tokens of a YAML text. A byte order mark at its start is passed over. -/
def Token.scan? (s : String) : Option (List Token) :=
  let cs := match s.toList with
    | '\ufeff' :: rest => rest
    | cs => cs
  if cs.all isAllowed then
    Scanner.scan? (cs.length + 2) { cursor := { rest := cs } }
  else none

end Larder.Yaml
