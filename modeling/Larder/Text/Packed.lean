import Larder.Text.Unprintable

/-!
# Packed tables

The large tables of character properties are kept as text. A table is a sequence of numbers, written
in base 32 from the highest digit down; a digit that another one follows is written with one of 32
further characters, so that numbers need no separator. Most numbers in a table are differences
between neighbours and take one character.
-/

namespace Larder.Text.Packed

/-- The digits: the first 32 end a number, the others are followed by another digit. -/
def digits : List Char := "0123456789abcdefghijklmnopqrstuvABCDEFGHIJKLMNOPQRSTUVWXYZwxyz-+".toList

/-- The numbers that a packed text holds, where `high` is the value of the digits already read. -/
def numbersFrom (high : Nat) : List Char → List Nat
  | [] => []
  | c :: rest =>
    let d := digits.idxOf c
    if d < 32 then (high * 32 + d) :: numbersFrom 0 rest
    else numbersFrom (high * 32 + (d - 32)) rest

/-- The numbers that the lines of a packed table hold. -/
def numbers (lines : List String) : List Nat := numbersFrom 0 (lines.flatMap String.toList)

/-- The sums of ever longer beginnings of a list, on top of `base`: positions from the distances
between them. -/
def positions (base : Nat) : List Nat → List Nat
  | [] => []
  | d :: rest => (base + d) :: positions (base + d) rest

/-- A number moved by a packed difference: an even one is twice the way up, an odd one is one less
than twice the way down. -/
def moved (n move : Nat) : Nat := if move % 2 = 0 then n + move / 2 else n - (move + 1) / 2

/-- A property of characters by spans: each pair is a code point and the value of the property from
there to the next one. -/
def spansFrom (start : Nat) : List Nat → List (Nat × Nat)
  | distance :: value :: rest => (start + distance, value) :: spansFrom (start + distance) rest
  | _ => []

/-- The value a property has at a code point, being zero before the first span. -/
def valueAt (c : Nat) (spans : List (Nat × Nat)) : Nat :=
  (spans.takeWhile (·.1 ≤ c)).foldl (fun _ span => span.2) 0

end Larder.Text.Packed
