import Larder.Yaml.Cursor

/-!
# Scalars in YAML

A scalar is a piece of text, plain, between quotes, or as an indented block. Where it runs over
several lines the breaks are folded: one break becomes a space, further ones stay.
-/

namespace Larder.Yaml

/-- How a scalar is written. -/
inductive Style where
  /-- Without any mark. -/
  | plain
  /-- Between single quotes. -/
  | singleQuoted
  /-- Between double quotes. -/
  | doubleQuoted
  /-- As a block whose lines stay. -/
  | literal
  /-- As a block whose lines are folded. -/
  | folded
deriving DecidableEq, Repr

/-! ## Gaps between words -/

/-- What separates the words of a scalar. -/
inductive Gap where
  /-- Spaces and tabs, maybe none. -/
  | blanks (cs : List Char)
  /-- Line breaks: the first one, if it counts, and the others. -/
  | breaks (first more : List Char)

/-- Whether a line ended. -/
def Gap.isBroken : Gap → Bool
  | .blanks _ => false
  | .breaks _ _ => true

/-- What a gap stands for: a single break becomes a space. -/
def Gap.text : Gap → List Char
  | .blanks cs => cs
  | .breaks first more =>
    if first = ['\n'] then (if more.isEmpty then [' '] else more) else first ++ more

/-- Read a gap. Tabs before column `margin` of a new line are not allowed. -/
def readGap? (margin : Int) : Nat → Cursor → Gap → Option (Gap × Cursor)
  | 0, c, gap => some (gap, c)
  | fuel + 1, c, gap =>
    match c.next? with
    | none => some (gap, c)
    | some ch =>
      if isGap ch then
        if gap.isBroken && c.column < margin && ch = '\t' then none
        else
          readGap? margin fuel c.skip <| match gap with
            | .blanks cs => .blanks (cs ++ [ch])
            | gap => gap
      else if isBreak ch then
        readGap? margin fuel c.skipLine <| match gap with
          | .blanks _ => .breaks c.lineBreak []
          | .breaks first more => .breaks first (more ++ c.lineBreak)
      else some (gap, c)

/-! ## Plain scalars -/

/-- Characters that end a plain scalar inside brackets. -/
def isFlowIndicator (c : Char) : Bool := [',', '[', ']', '\x7b', '\x7d'].contains c

/-- One word of a plain scalar. In brackets a colon may not stand before another indicator. -/
def plainWord? (inFlow : Bool) : Nat → Cursor → List Char → Option (List Char × Cursor)
  | 0, c, acc => some (acc.reverse, c)
  | fuel + 1, c, acc =>
    match c.next? with
    | none => some (acc.reverse, c)
    | some ch =>
      let followed := match c.look 1 with
        | some d => isFlowIndicator d || d = '?'
        | none => false
      if isGap ch || isBreak ch then some (acc.reverse, c)
      else if inFlow && ch = ':' && followed then none
      else if (ch = ':' && c.endsWordAt 1) || (inFlow && isFlowIndicator ch) then
        some (acc.reverse, c)
      else plainWord? inFlow fuel c.skip (ch :: acc)

/-- A plain scalar whose lines are indented to `margin`: its text, the place behind it, and whether
a line ended there. -/
def plainScalar? (margin : Int) (inFlow : Bool) :
    Nat → Cursor → List Char → Gap → Option (List Char × Cursor × Bool)
  | 0, c, text, gap => some (text, c, gap.isBroken)
  | fuel + 1, c, text, gap =>
    let done : Option (List Char × Cursor × Bool) := some (text, c, gap.isBroken)
    if c.seesDocumentMark || c.sees '#' then done
    else
      match plainWord? inFlow (c.rest.length + 1) c [] with
      | none => none
      | some ([], _) => done
      | some (word, c) =>
        let text := text ++ gap.text ++ word
        if !(c.seesGap || c.seesBreak) then some (text, c, false)
        else
          match readGap? margin (c.rest.length + 1) c (.blanks []) with
          | none => none
          | some (gap, c) =>
            if !inFlow && c.column < margin then some (text, c, gap.isBroken)
            else plainScalar? margin inFlow fuel c text gap

/-! ## Quoted scalars -/

/-- The number that some hexadecimal digits write. -/
def hexNumber? (ds : List Char) : Option Nat :=
  ds.foldlM
    (fun n d =>
      if d.isDigit then some (n * 16 + (d.toNat - '0'.toNat))
      else if 'a' ≤ d ∧ d ≤ 'f' then some (n * 16 + (d.toNat - 'a'.toNat + 10))
      else if 'A' ≤ d ∧ d ≤ 'F' then some (n * 16 + (d.toNat - 'A'.toNat + 10))
      else none)
    0

/-- The character of an escape by number: so many digits behind the backslash and the letter. -/
def numberedEscape? (c : Cursor) (count : Nat) : Option (Char × Cursor) :=
  let c := c.skipMany 2
  let ds := c.rest.take count
  if ds.length < count then none
  else match hexNumber? ds with
    | none => none
    | some n => if n.isValidChar then some (Char.ofNat n, c.skipMany count) else none

/-- The character of an escape. -/
def escape? (c : Cursor) : Option (Char × Cursor) :=
  let short (ch : Char) : Option (Char × Cursor) := some (ch, c.skipMany 2)
  match c.look 1 with
  | some '0' => short '\x00'
  | some 'a' => short '\x07'
  | some 'b' => short '\x08'
  | some 't' | some '\t' => short '\t'
  | some 'n' => short '\n'
  | some 'v' => short '\x0b'
  | some 'f' => short '\x0c'
  | some 'r' => short '\r'
  | some 'e' => short '\x1b'
  | some ' ' => short ' '
  | some '"' => short '"'
  | some '/' => short '/'
  | some '\\' => short '\\'
  | some 'N' => short '\x85'
  | some '_' => short '\xa0'
  | some 'L' => short '\u2028'
  | some 'P' => short '\u2029'
  | some 'x' => numberedEscape? c 2
  | some 'u' => numberedEscape? c 4
  | some 'U' => numberedEscape? c 8
  | _ => none

/-- One word between quotes: its characters, the place behind it, and whether an escaped line break
ended it. -/
def quotedWord? (single : Bool) : Nat → Cursor → List Char → Option (List Char × Cursor × Bool)
  | 0, c, acc => some (acc.reverse, c, false)
  | fuel + 1, c, acc =>
    match c.next? with
    | none => some (acc.reverse, c, false)
    | some ch =>
      if isGap ch || isBreak ch then some (acc.reverse, c, false)
      else if single && ch = '\'' && c.look 1 = some '\'' then
        quotedWord? single fuel (c.skipMany 2) ('\'' :: acc)
      else if ch = (if single then '\'' else '"') then some (acc.reverse, c, false)
      else if !single && ch = '\\' then
        match c.look 1 with
        | some d =>
          if isBreak d then some (acc.reverse, c.skip.skipLine, true)
          else match escape? c with
            | some (e, c) => quotedWord? single fuel c (e :: acc)
            | none => none
        | none => none
      else quotedWord? single fuel c.skip (ch :: acc)

/-- The rest of a quoted scalar: its text and the place behind the closing quote. -/
def quotedScalar? (single : Bool) : Nat → Cursor → List Char → Option (List Char × Cursor)
  | 0, _, _ => none
  | fuel + 1, c, text =>
    if c.seesDocumentMark || c.atEnd then none
    else
      match quotedWord? single (c.rest.length + 1) c [] with
      | none => none
      | some (word, c, escaped) =>
        let text := text ++ word
        if c.sees (if single then '\'' else '"') then some (text, c.skip)
        else
          let start : Gap := if escaped then .breaks [] [] else .blanks []
          match readGap? 0 (c.rest.length + 1) c start with
          | none => none
          | some (gap, c) => quotedScalar? single fuel c (text ++ gap.text)

/-! ## Block scalars -/

/-- What becomes of the line breaks at the end of a block. -/
inductive Chomping where
  /-- None is left. -/
  | strip
  /-- One is left. -/
  | clip
  /-- All are left. -/
  | keep
deriving DecidableEq

/-- The head of a block: chomping and indentation in either order, then the end of the line. -/
def blockHead? (c : Cursor) : Option (Chomping × Nat × Cursor) :=
  let chomping (c : Cursor) : Chomping × Cursor :=
    if c.sees '+' then (.keep, c.skip) else if c.sees '-' then (.strip, c.skip) else (.clip, c)
  let indentation? (c : Cursor) : Option (Nat × Cursor) :=
    match c.next? with
    | some d =>
      if !d.isDigit then some (0, c)
      else if d = '0' then none
      else some (d.toNat - '0'.toNat, c.skip)
    | none => some (0, c)
  if c.sees '+' || c.sees '-' then do
    let (chomp, c) := chomping c
    let (increment, c) ← indentation? c
    return (chomp, increment, ← c.finishLine?)
  else do
    let (increment, c) ← indentation? c
    let (chomp, c) := if increment > 0 then chomping c else (.clip, c)
    return (chomp, increment, ← c.finishLine?)

/-- Empty lines before the next line of a block. With `indent` zero the indentation is not known
yet and `deepest` is the deepest column reached. -/
def blockBreaks? (indent : Nat) :
    Nat → Cursor → List Char → Nat → Option (List Char × Cursor × Nat)
  | 0, c, breaks, deepest => some (breaks, c, deepest)
  | fuel + 1, c, breaks, deepest =>
    let room := if indent = 0 then c.rest.length else indent - c.column
    let spaces := ((c.rest.take room).takeWhile (· = ' ')).length
    let c := c.skipMany spaces
    let deepest := max deepest c.column
    if (indent = 0 || c.column < indent) && c.sees '\t' then none
    else if c.seesBreak then
      blockBreaks? indent fuel c.skipLine (breaks ++ c.lineBreak) deepest
    else some (breaks, c, deepest)

/-- The lines of a block: its text so far, the break behind the last line and the empty lines
behind that. -/
structure BlockLines where
  /-- The text of the lines without the last break. -/
  text : List Char
  /-- The break behind the last line. -/
  last : List Char
  /-- The empty lines behind it. -/
  breaks : List Char
  /-- The place behind the block. -/
  cursor : Cursor
  /-- Whether the last line began with a space or a tab. -/
  indented : Bool

/-- Read the lines of a block. A folded block joins two lines that are not indented further. -/
def blockLines? (literal : Bool) (indent : Nat) : Nat → BlockLines → Option BlockLines
  | 0, b => some b
  | fuel + 1, b =>
    let c := b.cursor
    if c.column ≠ indent || c.atEnd then some b
    else
      let indented := c.seesGap
      let fold := !literal && b.last = ['\n'] && !b.indented && !indented
      let joint := if fold then (if b.breaks.isEmpty then [' '] else []) else b.last
      let (line, c) := c.takeWhile fun ch => !isBreak ch
      let last := c.lineBreak
      match blockBreaks? indent (c.rest.length + 1) c.skipLine [] 0 with
      | none => none
      | some (breaks, c, _) =>
        blockLines? literal indent fuel
          ⟨b.text ++ joint ++ b.breaks ++ line, last, breaks, c, indented⟩

/-- A block scalar behind its mark, in a collection indented to `parent`: its text and the place
behind it. -/
def blockScalar? (literal : Bool) (parent : Int) (c : Cursor) : Option (List Char × Cursor) := do
  let (chomp, increment, c) ← blockHead? c
  let given : Nat := if increment = 0 then 0 else (max parent 0).toNat + increment
  let (breaks, c, deepest) ← blockBreaks? given (c.rest.length + 1) c [] 0
  let indent : Nat := if given > 0 then given else max deepest (max (parent + 1) 1).toNat
  let b ← blockLines? literal indent (c.rest.length + 1) ⟨[], [], breaks, c, false⟩
  let tail := match chomp with
    | .strip => []
    | .clip => b.last
    | .keep => b.last ++ b.breaks
  return (b.text ++ tail, b.cursor)

end Larder.Yaml
