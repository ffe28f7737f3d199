import Larder.Json.Basic
import Larder.Text.Quoted

/-!
# JSON text

The compact text of a JSON value: no blanks, strings with the short escapes where there are some,
members in the order in which they stand.
-/

namespace Larder.Json

/-- How a character stands inside a JSON string. -/
def escapeChar (c : Char) : List Char :=
  if c = '"' then ['\\', '"']
  else if c = '\\' then ['\\', '\\']
  else if c = '\n' then ['\\', 'n']
  else if c = '\r' then ['\\', 'r']
  else if c = '\t' then ['\\', 't']
  else if c = '\x08' then ['\\', 'b']
  else if c = '\x0c' then ['\\', 'f']
  else if c.toNat < 0x20 then
    let ds := Text.hexDigits c.toNat
    ['\\', 'u'] ++ List.replicate (4 - ds.length) '0' ++ ds
  else [c]

/-- A JSON string between its quotes. -/
def stringText (s : String) : String :=
  String.ofList ('"' :: s.toList.flatMap escapeChar ++ ['"'])

mutual

/-- Put the compact text of a value behind what is written already. -/
def write (out : String) : Json → String
  | .null => out ++ "null"
  | .bool b => out ++ (if b then "true" else "false")
  | .int n => out ++ toString n
  | .float x => out ++ numberLayout.double x
  | .str s => out ++ stringText s
  | .arr items => writeItems (out ++ "[") items ++ "]"
  | .obj members => writeMembers (out ++ "\x7b") members ++ "\x7d"

/-- Items with commas between them. -/
def writeItems (out : String) : List Json → String
  | [] => out
  | [j] => write out j
  | j :: k :: rest => writeItems (write out j ++ ",") (k :: rest)

/-- Members with commas between them. -/
def writeMembers (out : String) : List (String × Json) → String
  | [] => out
  | [(n, v)] => write (out ++ stringText n ++ ":") v
  | (n, v) :: m :: rest => writeMembers (write (out ++ stringText n ++ ":") v ++ ",") (m :: rest)

end

/-- The compact text of a value. -/
def text (j : Json) : String := write "" j

end Larder.Json
