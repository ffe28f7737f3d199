/-!
# What plain scalars stand for

Without quotes a scalar may stand for nothing, a truth value or a number. The same rules decide how
a setting is read and which strings have to be quoted when they are written.
-/

namespace Larder.Yaml

/-- Whether a plain scalar stands for nothing. -/
def isNull (s : String) : Bool := ["", "null", "Null", "NULL", "~"].contains s

/-- The truth value a plain scalar stands for. -/
def truth? (s : String) : Option Bool :=
  if ["true", "True", "TRUE"].contains s then some true
  else if ["false", "False", "FALSE"].contains s then some false
  else none

/-! ## Whole numbers -/

/-- The value of a digit in a base up to 16. -/
def digit? (base : Nat) (c : Char) : Option Nat :=
  let v :=
    if c.isDigit then c.toNat - '0'.toNat
    else if 'a' ≤ c ∧ c ≤ 'f' then c.toNat - 'a'.toNat + 10
    else if 'A' ≤ c ∧ c ≤ 'F' then c.toNat - 'A'.toNat + 10
    else 16
  if v < base then some v else none

/-- The number some digits write; there must be one. -/
def digits? (base : Nat) (cs : List Char) : Option Nat :=
  if cs.isEmpty then none
  else cs.foldlM (fun n c => (digit? base c).map fun v => n * base + v) 0

/-- Whether digits behind an optional sign begin with a zero that is not the only one. Such a scalar
is a text. -/
def hasLeadingZero (cs : List Char) : Bool :=
  let ds := match cs with
    | '-' :: rest | '+' :: rest => rest
    | cs => cs
  match ds with
  | '0' :: d :: rest => (d :: rest).all Char.isDigit
  | _ => false

/-- The digits behind a mark of their base, as in `0x1f`. -/
def basedDigits? : List Char → Option Nat
  | '0' :: 'x' :: ds => digits? 16 ds
  | '0' :: 'o' :: ds => digits? 8 ds
  | '0' :: 'b' :: ds => digits? 2 ds
  | _ => none

/-- The whole number a plain scalar stands for, not negative: decimal, or hexadecimal, octal or
binary behind its mark. -/
def natural? (s : String) : Option Nat :=
  let cs := s.toList
  let unsigned := match cs with
    | '+' :: rest => rest
    | cs => cs
  match basedDigits? unsigned with
  | some n => some n
  | none => if hasLeadingZero cs then none else digits? 10 unsigned

/-- Whether a plain scalar stands for a negative number within 128 bits. -/
def isNegativeNumber (s : String) : Bool :=
  match s.toList with
  | '-' :: rest =>
    let n := match basedDigits? rest with
      | some n => some n
      | none => if hasLeadingZero rest then none else digits? 10 rest
    n.any fun n => n ≤ Nat.pow 2 127
  | _ => false

/-- Whether a plain scalar stands for a whole number within 128 bits. -/
def isWhole (s : String) : Bool := (natural? s).any (· < Nat.pow 2 128) || isNegativeNumber s

/-! ## Other numbers -/

/-- The digits at the start, and the rest. -/
def spanDigits (cs : List Char) : List Char × List Char := cs.span Char.isDigit

/-- The exponent behind a number, if there is one and nothing else. -/
def exponent? : List Char → Option Int
  | [] => some 0
  | e :: rest =>
    if e = 'e' ∨ e = 'E' then
      match rest with
      | '-' :: ds => (digits? 10 ds).map fun n => -(n : Int)
      | '+' :: ds => (digits? 10 ds).map fun n => (n : Int)
      | ds => (digits? 10 ds).map fun n => (n : Int)
    else none

/-- Whether a decimal number is in the range of doubles once it is rounded: it is less than
`2 ^ 1024 - 2 ^ 970`. -/
def inDoubleRange (digits : Nat) (exponent : Int) : Bool :=
  let limit := Nat.pow 2 1024 - Nat.pow 2 970
  if digits = 0 then true
  else if exponent ≤ 0 then
    if (-exponent).toNat > 2000 + (Nat.toDigits 10 digits).length then true
    else digits < limit * Nat.pow 10 (-exponent).toNat
  else if exponent > 400 then false
  else digits * Nat.pow 10 exponent.toNat < limit

/-- Whether a text is a decimal number with an optional sign, point and exponent, in the range of
doubles. -/
def isDecimal (cs : List Char) : Bool :=
  let cs := match cs with
    | '-' :: rest | '+' :: rest => rest
    | cs => cs
  let (whole, rest) := spanDigits cs
  let (fraction, rest) := match rest with
    | '.' :: rest => spanDigits rest
    | rest => ([], rest)
  if whole.isEmpty ∧ fraction.isEmpty then false
  else match exponent? rest, digits? 10 (whole ++ fraction) with
    | some e, some n => inDoubleRange n (e - fraction.length)
    | _, _ => false

/-- Whether a plain scalar stands for a number that is not whole, infinities and undefined values
included. -/
def isFractional (s : String) : Bool :=
  [".inf", ".Inf", ".INF", "+.inf", "+.Inf", "+.INF", "-.inf", "-.Inf", "-.INF", ".nan", ".NaN",
    ".NAN"].contains s
  || match s.toList with
    | '+' :: '+' :: _ | '+' :: '-' :: _ => false
    | cs => isDecimal cs

/-- Whether a plain scalar stands for a text, and not for something else. -/
def isText (s : String) : Bool :=
  !(isNull s || (truth? s).isSome || isWhole s || hasLeadingZero s.toList || isFractional s)

end Larder.Yaml
