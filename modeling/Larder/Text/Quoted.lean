import Larder.Text.Unprintable

/-!
# Quoted text

Names are shown in messages between double quotes. Everything a reader could mistake is written as
an escape: the quote and the backslash, the usual control characters by their short names, and every
other unprintable character by its code point, as in `\u{301}`.
-/

namespace Larder.Text

/-- The digits of `n` in base sixteen, in lower case and without leading zeros. -/
def hexDigits (n : Nat) : List Char := Nat.toDigits 16 n

/-- How one character stands inside quoted text. -/
def quoteChar (c : Char) : List Char :=
  if c = '\x00' then ['\\', '0']
  else if c = '\t' then ['\\', 't']
  else if c = '\n' then ['\\', 'n']
  else if c = '\r' then ['\\', 'r']
  else if c = '"' then ['\\', '"']
  else if c = '\\' then ['\\', '\\']
  else if isUnprintable c then ['\\', 'u', '\x7b'] ++ hexDigits c.toNat ++ ['\x7d']
  else [c]

/-- Text between double quotes, with escapes for what could be mistaken. -/
def quoted (s : String) : String :=
  String.ofList ('"' :: s.toList.flatMap quoteChar ++ ['"'])

end Larder.Text
