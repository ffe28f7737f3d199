import Larder.Text.Quoted

/-!
# Percent-encoding

An address writes a byte that may not stand for itself as a percent sign and two hexadecimal digits.
Which characters stand for themselves depends on the part of the address.
-/

namespace Larder.Endpoint

/-- The bytes of a character in UTF-8. -/
def bytesOf (c : Char) : List UInt8 := (String.singleton c).toUTF8.toList

/-- A byte as a percent sign and two capital hexadecimal digits. -/
def percentByte (b : UInt8) : List Char :=
  let digit (n : Nat) : Char := (Nat.digitChar n).toUpper
  ['%', digit (b.toNat / 16), digit (b.toNat % 16)]

/-- A character with its bytes percent-encoded if `escaped` says so. -/
def encodeChar (escaped : Char → Bool) (c : Char) : List Char :=
  if escaped c then (bytesOf c).flatMap percentByte else [c]

/-- Characters with those that `escaped` names percent-encoded. -/
def encode (escaped : Char → Bool) (cs : List Char) : List Char := cs.flatMap (encodeChar escaped)

/-! ## What is encoded where -/

/-- Control characters and everything beyond ASCII are encoded everywhere. -/
def escapedAnywhere (c : Char) : Bool := c.toNat < 0x20 || c.toNat > 0x7e

/-- What is encoded in a fragment. -/
def escapedInFragment (c : Char) : Bool :=
  escapedAnywhere c || [' ', '"', '<', '>', '`'].contains c

/-- What is encoded in a path. -/
def escapedInPath (c : Char) : Bool :=
  escapedInFragment c || ['#', '?', '\x7b', '\x7d'].contains c

/-- What is encoded in the name and the password of a user. -/
def escapedInUser (c : Char) : Bool :=
  escapedInPath c || ['/', ':', ';', '=', '@', '[', '\\', ']', '^', '|'].contains c

/-- What is encoded in a query. -/
def escapedInQuery (c : Char) : Bool :=
  escapedAnywhere c || [' ', '"', '#', '<', '>', '\''].contains c

/-! ## Decoding -/

/-- The value of a hexadecimal digit. -/
def hexValue? (c : Char) : Option Nat :=
  if '0' ≤ c ∧ c ≤ '9' then some (c.toNat - '0'.toNat)
  else if 'a' ≤ c ∧ c ≤ 'f' then some (c.toNat - 'a'.toNat + 10)
  else if 'A' ≤ c ∧ c ≤ 'F' then some (c.toNat - 'A'.toNat + 10)
  else none

/-- The bytes a percent-encoded text stands for. A percent sign without two digits stands for
itself. -/
def decodeBytes : List Char → List UInt8
  | '%' :: a :: b :: rest =>
    match hexValue? a, hexValue? b with
    | some x, some y => UInt8.ofNat (x * 16 + y) :: decodeBytes rest
    | _, _ => bytesOf '%' ++ decodeBytes (a :: b :: rest)
  | c :: rest => bytesOf c ++ decodeBytes rest
  | [] => []

/-- The text that bytes hold in UTF-8, if they do. -/
def textOfBytes? (bytes : List UInt8) : Option String :=
  String.fromUTF8? (ByteArray.mk bytes.toArray)

/-- The text a percent-encoded text stands for, if its bytes are UTF-8. -/
def decode? (s : String) : Option String := textOfBytes? (decodeBytes s.toList)

end Larder.Endpoint
