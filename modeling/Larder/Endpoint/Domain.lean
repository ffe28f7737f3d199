import Larder.Endpoint.Mapping
import Larder.Endpoint.Percent
import Larder.Endpoint.Punycode
import Larder.Text.Composed
import Larder.Text.Direction

/-!
# Domain names

A domain name may be written in any script. Its ASCII form is what an address holds: each character
is mapped, the text composed, and each label that still has characters beyond ASCII is written with
the mark `xn--`. A label that carries the mark already must be the ASCII form of a label that could
have been written in full.
-/

namespace Larder.Endpoint

/-- Characters that no domain may hold. -/
def forbiddenInDomain (c : Char) : Bool :=
  c.toNat ≤ 0x20 || c.toNat = 0x7f
    || ['#', '%', '/', ':', '<', '>', '?', '@', '[', '\\', ']', '^', '|'].contains c

/-- Whether a character is of ASCII. -/
def isAscii (c : Char) : Bool := c.toNat < 0x80

/-- What marks a label in its ASCII form. -/
def asciiMark : List Char := ['x', 'n', '-', '-']

/-! ## Joiners -/

/-- The class of the marks that take the vowel from a letter. -/
def killerClass : Nat := 9

/-- Whether a joiner may stand between what is `before` it, the nearest character first, and what is
`behind` it: after a mark that takes the vowel, or, if it keeps letters apart, between letters that
would join. -/
def joinerFits (before : List Char) (joiner : Char) (behind : List Char) : Bool :=
  let shaped := fun (c : Char) => Text.joining c != .transparent
  (before.head?.any fun c => Text.markClass c = killerClass)
    || (joiner.toNat = 0x200c
      && ((before.find? shaped).any fun c => [.next, .both].contains (Text.joining c))
      && ((behind.find? shaped).any fun c => [.previous, .both].contains (Text.joining c)))

/-- Whether every joiner in a label may stand where it does. -/
def joinersFit (before : List Char) : List Char → Bool
  | [] => true
  | c :: rest =>
    (!(c.toNat = 0x200c || c.toNat = 0x200d) || joinerFits before c rest)
      && joinersFit (c :: before) rest

/-! ## Directions -/

/-- Whether a label has a character that makes a whole domain name run both ways. -/
def runsBack (label : List Char) : Bool :=
  label.any fun c => [.right, .arabic, .arabicDigit].contains (Text.direction c)

/-- Whether the characters of a label go together in a domain name that runs both ways: a label runs
one way, begins with a letter that says so, and ends with a letter or a digit. -/
def directionsFit (label : List Char) : Bool :=
  let ds := label.map Text.direction
  let shared : List Text.Direction :=
    [.digit, .sign, .separator, .terminator, .neutral, .boundary, .mark]
  let last := (ds.reverse.dropWhile (· = .mark)).head?
  match ds with
  | [] => true
  | .left :: _ =>
    ds.all (fun d => (.left :: shared).contains d) && [some .left, some .digit].contains last
  | .right :: _ | .arabic :: _ =>
    ds.all (fun d => (.right :: .arabic :: .arabicDigit :: shared).contains d)
      && [some .right, some .arabic, some .digit, some .arabicDigit].contains last
      && !(ds.contains .digit && ds.contains .arabicDigit)
  | _ => false

/-! ## Labels -/

/-- Whether a label written in full is one: it is mapped and composed already, begins with no mark,
and its joiners fit. -/
def isLabel (label : List Char) : Bool :=
  label.all (fun c => mapped? c = some [c])
    && Text.compose label = label
    && !label.head?.any Text.isMark
    && joinersFit [] label

/-- The full form of a label that is mapped and composed: the ASCII form is read back. -/
def fullLabel? (label : List Char) : Option (List Char) :=
  if asciiMark.isPrefixOf label then
    match Punycode.decode? (label.drop asciiMark.length) with
    | none => none
    | some full => if full.all isAscii then none else if isLabel full then some full else none
  else if label.all isAscii then some label
  else if isLabel label then some label
  else none

/-- The ASCII form of a label written in full. -/
def asciiLabel (label : List Char) : List Char :=
  if label.all isAscii then label else asciiMark ++ Punycode.encode label

/-- The ASCII form of a domain name. -/
def domainToAscii? (s : String) : Option String := do
  let mapped ← s.toList.mapM mapped?
  let labels ← ((Text.compose mapped.flatten).splitOn '.').mapM fullLabel?
  if labels.any (·.any forbiddenInDomain) then none
  else if labels.any runsBack && !labels.all directionsFit then none
  else some (String.ofList (List.intercalate ['.'] (labels.map asciiLabel)))

end Larder.Endpoint
