import Larder.Decimal.Shortest

/-!
# JSON values

A value as the service sends it and as generic resources hold it. Integers keep the full range of
64 bits, signed or not; every other number is a double. The members of an object stand in a list:
a reader leaves them in ascending order of their names, a record that is written out keeps the order
of its fields.
-/

namespace Larder

/-- A JSON value. -/
inductive Json where
  /-- `null` -/
  | null
  /-- `true` or `false` -/
  | bool (b : Bool)
  /-- A whole number between `-2^63` and `2^64 - 1`. -/
  | int (n : Int)
  /-- Any other number. -/
  | float (x : Decimal.Double)
  /-- A string. -/
  | str (s : String)
  /-- An array. -/
  | arr (items : List Json)
  /-- An object. -/
  | obj (members : List (String × Json))
deriving Inhabited

namespace Json

/-- How doubles are written in JSON text. -/
def numberLayout : Decimal.Layout := ⟨true⟩

/-- The member of an object with a name; nothing for any other value. -/
def member? (j : Json) (name : String) : Option Json :=
  match j with
  | .obj members => (members.find? fun m => m.1 = name).map Prod.snd
  | _ => none

/-- The text of a string value. -/
def str? : Json → Option String
  | .str s => some s
  | _ => none

/-- The items of an array. -/
def items? : Json → Option (List Json)
  | .arr items => some items
  | _ => none

/-- A list of strings as an array. -/
def strings (l : List String) : Json := .arr (l.map .str)

/-- A string or `null`. -/
def ofString? : Option String → Json
  | some s => .str s
  | none => .null

/-- An optional value, with `null` for nothing. -/
def ofOption (o : Option Json) : Json := o.getD .null

/-- Put a member into a list in ascending order of names, in place of one with the same name. -/
def placeMember (name : String) (value : Json) : List (String × Json) → List (String × Json)
  | [] => [(name, value)]
  | m :: rest =>
    match compare name m.1 with
    | .lt => (name, value) :: m :: rest
    | .eq => (name, value) :: rest
    | .gt => m :: placeMember name value rest

/-- An object with its members in ascending order of names, the last of equal names counting. -/
def ofMembers (members : List (String × Json)) : Json :=
  .obj (members.foldl (fun acc m => placeMember m.1 m.2 acc) [])

end Json

end Larder
