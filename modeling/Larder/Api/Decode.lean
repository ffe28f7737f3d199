import Larder.Json.Basic
import Larder.Text.Quoted

/-!
# Decoding answers

An answer of the service is a JSON value that should have a certain shape. Decoding it yields the
record it stands for or the first fault found.

A record may be given as an object or as an array of its fields in order. In an object the members
are checked in the order in which they stand, members that name no field are passed over, and only
then is a missing field reported, in the order of the record. In an array every field has its place;
only fields with a default may be left off at the end.
-/

namespace Larder.Api

/-- What is wrong with a value that was to be decoded. -/
inductive DecodeError where
  /-- The value is of another kind than wanted. -/
  | invalidType (got : Json) (want : String)
  /-- The number is out of range. -/
  | invalidValue (got : Int) (want : String)
  /-- An array has too few or too many elements. -/
  | invalidLength (length : Nat) (want : String)
  /-- An object lacks a field. -/
  | missingField (name : String)

/-- How a message names a value of the wrong kind. -/
def describe : Json → String
  | .null => "null"
  | .bool b => "boolean `" ++ (if b then "true" else "false") ++ "`"
  | .int n => "integer `" ++ toString n ++ "`"
  | .float x => "floating point `" ++ Json.numberLayout.double x ++ "`"
  | .str s => "string " ++ Text.quoted s
  | .arr _ => "sequence"
  | .obj _ => "map"

/-- The wording of a fault. -/
def DecodeError.message : DecodeError → String
  | .invalidType got want => "invalid type: " ++ describe got ++ ", expected " ++ want
  | .invalidValue got want => "invalid value: integer `" ++ toString got ++ "`, expected " ++ want
  | .invalidLength n want => "invalid length " ++ toString n ++ ", expected " ++ want
  | .missingField name => "missing field `" ++ name ++ "`"

/-- A way to decode values. -/
abbrev Decoder (α : Type) := Json → Except DecodeError α

/-- Any value, as it is. -/
def any : Decoder Json := .ok

/-- A string. -/
def string : Decoder String
  | .str s => .ok s
  | j => .error (.invalidType j "a string")

/-- A truth value. -/
def boolean : Decoder Bool
  | .bool b => .ok b
  | j => .error (.invalidType j "a boolean")

/-- A whole number of 64 bits with a sign. -/
def integer : Decoder Int
  | .int n => if n < Int.pow 2 63 then .ok n else .error (.invalidValue n "i64")
  | j => .error (.invalidType j "i64")

/-- An object with members of any kind. -/
def object : Decoder (List (String × Json))
  | .obj members => .ok members
  | j => .error (.invalidType j "a map")

/-- The items of a list, each decoded, up to the first fault. -/
def items {α : Type} (d : Decoder α) : List Json → Except DecodeError (List α)
  | [] => .ok []
  | j :: rest =>
    match d j with
    | .error e => .error e
    | .ok x =>
      match items d rest with
      | .error e => .error e
      | .ok xs => .ok (x :: xs)

/-- An array of values of one shape. -/
def list {α : Type} (d : Decoder α) : Decoder (List α)
  | .arr js => items d js
  | j => .error (.invalidType j "a sequence")

/-- A value or `null`. -/
def nullable {α : Type} (d : Decoder α) : Decoder (Option α)
  | .null => .ok none
  | j => (d j).map some

/-- What happens when a field is not there. -/
inductive Presence where
  /-- It is a fault. -/
  | required
  /-- The field reads as nothing; an array must still hold its place. -/
  | optional
  /-- The field has a default. -/
  | defaulted
deriving DecidableEq

/-- A field of a record: its name, its presence and the check of its value. -/
structure Field where
  /-- The name in an object. -/
  name : String
  /-- What happens without it. -/
  presence : Presence
  /-- Whether a value is of the field's shape. -/
  check : Json → Except DecodeError Unit

/-- A field whose value is decoded by `d`. -/
def field {α : Type} (name : String) (presence : Presence) (d : Decoder α) : Field :=
  ⟨name, presence, fun j => (d j).map fun _ => ()⟩

/-- Check the members of an object that name a field, in the order in which they stand. -/
def checkMembers (fields : List Field) : List (String × Json) → Except DecodeError Unit
  | [] => .ok ()
  | (name, value) :: rest =>
    match fields.find? fun f => f.name = name with
    | none => checkMembers fields rest
    | some f =>
      match f.check value with
      | .error e => .error e
      | .ok () => checkMembers fields rest

/-- The first required field that no member names. -/
def firstMissing (fields : List Field) (members : List (String × Json)) : Option String :=
  (fields.find? fun f => f.presence = .required ∧ !members.any fun m => m.1 = f.name).map Field.name

/-- How a message names the array form of a record. -/
def arrayForm (record : String) (count : Nat) : String :=
  "struct " ++ record ++ " with " ++ toString count ++ (if count = 1 then " element" else " elements")

/-- The array form of a record as members; `place` is the number of the next field. -/
def arrayMembers (want : String) : Nat → List Field → List Json →
    Except DecodeError (List (String × Json))
  | _, [], [] => .ok []
  | place, [], _ :: xs =>
    .error (.invalidLength (place + xs.length + 1) "fewer elements in array")
  | place, f :: fs, [] =>
    if f.presence = .defaulted then arrayMembers want (place + 1) fs []
    else .error (.invalidLength place want)
  | place, f :: fs, x :: xs =>
    match f.check x with
    | .error e => .error e
    | .ok () => (arrayMembers want (place + 1) fs xs).map ((f.name, x) :: ·)

/-- The members of a record in either form, every one of them checked. -/
def members (record : String) (fields : List Field) : Decoder (List (String × Json))
  | .obj ms =>
    match checkMembers fields ms with
    | .error e => .error e
    | .ok () =>
      match firstMissing fields ms with
      | some name => .error (.missingField name)
      | none => .ok ms
  | .arr js => arrayMembers (arrayForm record fields.length) 0 fields js
  | j => .error (.invalidType j ("struct " ++ record))

/-- The value of a member. -/
def valueOf (ms : List (String × Json)) (name : String) : Option Json :=
  (ms.find? fun m => m.1 = name).map Prod.snd

/-- A member that must be there. -/
def required {α : Type} (ms : List (String × Json)) (name : String) (d : Decoder α) :
    Except DecodeError α :=
  match valueOf ms name with
  | some j => d j
  | none => .error (.missingField name)

/-- A member that may be absent or `null`. -/
def optional {α : Type} (ms : List (String × Json)) (name : String) (d : Decoder α) :
    Except DecodeError (Option α) :=
  match valueOf ms name with
  | some j => nullable d j
  | none => .ok none

/-- A member with a default for its absence. -/
def defaulted {α : Type} (ms : List (String × Json)) (name : String) (d : Decoder α)
    (fallback : α) : Except DecodeError α :=
  match valueOf ms name with
  | some j => d j
  | none => .ok fallback

end Larder.Api
