/-!
# Instants

A point in time, with the calendar that names it: reading and writing the Internet form
`2024-05-01T10:00:01.5Z`, and moving by a duration within the range that dates are kept for.

Days are counted from 1970-01-01 in the calendar that extends the Gregorian rules to all years. The
count uses years that start in March, so that a leap day is the last day of its year.
-/

namespace Larder

/-- A point in time. -/
structure Instant where
  /-- Whole seconds since 1970-01-01T00:00:00Z, leap seconds not counted. -/
  seconds : Int
  /-- Nanoseconds within the second; from `10^9` on they lie within a leap second behind it. -/
  nanos : Nat := 0
deriving DecidableEq, Repr

namespace Instant

/-- Earlier or later, by seconds and then by nanoseconds. -/
def compare (a b : Instant) : Ordering :=
  (Ord.compare a.seconds b.seconds).then (Ord.compare a.nanos b.nanos)

instance : Ord Instant := ⟨Instant.compare⟩

/-- Whether `a` is not later than `b`. -/
def atMost (a b : Instant) : Bool := (compare a b).isLE

/-! ## The calendar -/

/-- Days from 1970-01-01 to a date. -/
def daysOfDate (year : Int) (month day : Nat) : Int :=
  let y := if month ≤ 2 then year - 1 else year
  let era := y.fdiv 400
  let yearOfEra := y - era * 400
  let monthFromMarch : Int := if month > 2 then (month : Int) - 3 else (month : Int) + 9
  let dayOfYear := (153 * monthFromMarch + 2).fdiv 5 + (day : Int) - 1
  let dayOfEra := yearOfEra * 365 + yearOfEra.fdiv 4 - yearOfEra.fdiv 100 + dayOfYear
  era * 146097 + dayOfEra - 719468

/-- The date that lies a number of days after 1970-01-01: year, month and day. -/
def dateOfDays (days : Int) : Int × Nat × Nat :=
  let z := days + 719468
  let era := z.fdiv 146097
  let dayOfEra := z - era * 146097
  let yearOfEra := (dayOfEra - dayOfEra.fdiv 1460 + dayOfEra.fdiv 36524 - dayOfEra.fdiv 146096).fdiv 365
  let dayOfYear := dayOfEra - (365 * yearOfEra + yearOfEra.fdiv 4 - yearOfEra.fdiv 100)
  let monthFromMarch := (5 * dayOfYear + 2).fdiv 153
  let day := dayOfYear - (153 * monthFromMarch + 2).fdiv 5 + 1
  let month := if monthFromMarch < 10 then monthFromMarch + 3 else monthFromMarch - 9
  let year := yearOfEra + era * 400 + (if month ≤ 2 then 1 else 0)
  (year, month.toNat, day.toNat)

/-- Whether a year has a leap day. -/
def isLeapYear (year : Int) : Bool :=
  year.emod 4 = 0 && (year.emod 100 != 0 || year.emod 400 = 0)

/-- How many days a month has. -/
def daysInMonth (year : Int) (month : Nat) : Nat :=
  if month = 2 then (if isLeapYear year then 29 else 28)
  else if month = 4 ∨ month = 6 ∨ month = 9 ∨ month = 11 then 30
  else 31

/-! ## Durations -/

/-- The first instant that can be named: the start of the year -262143. -/
def first : Instant := ⟨daysOfDate (-262143) 1 1 * 86400, 0⟩

/-- The last instant that can be named: the end of the year 262142. -/
def last : Instant := ⟨daysOfDate 262142 12 31 * 86400 + 86399, 999999999⟩

/-- The instant some milliseconds earlier, if it can still be named. A negative count leads to a
later instant. -/
def minusMillis? (t : Instant) (millis : Int) : Option Instant :=
  let nanos : Int := (t.nanos : Int) - millis * 1000000
  let s := t.seconds + nanos.fdiv 1000000000
  let u : Instant := ⟨s, (nanos.emod 1000000000).toNat⟩
  if first.atMost u && u.atMost last then some u else none

/-- The instant some milliseconds later. -/
def plusMillis (t : Instant) (millis : Int) : Instant :=
  let nanos : Int := (t.nanos : Int) + millis * 1000000
  ⟨t.seconds + nanos.fdiv 1000000000, (nanos.emod 1000000000).toNat⟩

/-- Whole milliseconds from `a` to `b`. -/
def millisBetween (a b : Instant) : Int :=
  ((b.seconds - a.seconds) * 1000000000 + ((b.nanos : Int) - (a.nanos : Int))).tdiv 1000000

/-! ## The Internet form -/

/-- The last `width` decimal digits of a number, with leading zeros. -/
def padded (width n : Nat) : String :=
  let ds := Nat.toDigits 10 n
  String.ofList (List.replicate (width - ds.length) '0' ++ ds)

/-- The year: four digits, or a sign and at least five outside of that range. -/
def yearText (y : Int) : String :=
  if 0 ≤ y ∧ y ≤ 9999 then padded 4 y.toNat
  else if y < 0 then "-" ++ padded 4 y.natAbs
  else "+" ++ padded 5 y.toNat

/-- The fraction of a second, in as many groups of three digits as it needs. -/
def fractionText (nanos : Nat) : String :=
  if nanos = 0 then ""
  else if nanos % 1000000 = 0 then "." ++ padded 3 (nanos / 1000000)
  else if nanos % 1000 = 0 then "." ++ padded 6 (nanos / 1000)
  else "." ++ padded 9 nanos

/-- The instant in universal time, as in `2024-01-01T00:00:00.777Z`. -/
def text (t : Instant) : String :=
  let (year, month, day) := dateOfDays (t.seconds.fdiv 86400)
  let inDay := (t.seconds.emod 86400).toNat
  let leap := t.nanos ≥ 1000000000
  let second := inDay % 60 + (if leap then 1 else 0)
  let nanos := if leap then t.nanos - 1000000000 else t.nanos
  yearText year ++ "-" ++ padded 2 month ++ "-" ++ padded 2 day ++ "T"
    ++ padded 2 (inDay / 3600) ++ ":" ++ padded 2 (inDay / 60 % 60) ++ ":" ++ padded 2 second
    ++ fractionText nanos ++ "Z"

/-- Exactly `count` digits at the start of a text. -/
def takeNumber : Nat → List Char → Option (Nat × List Char)
  | count, cs =>
    let ds := cs.take count
    if ds.length = count ∧ ds.all Char.isDigit then
      some (ds.foldl (fun n c => n * 10 + (c.toNat - '0'.toNat)) 0, cs.drop count)
    else none

/-- One of some characters at the start of a text. -/
def takeChar (allowed : List Char) : List Char → Option (List Char)
  | c :: rest => if allowed.contains c then some rest else none
  | [] => none

/-- The nanoseconds behind an optional point; digits beyond the ninth are dropped. -/
def takeFraction : List Char → Option (Nat × List Char)
  | '.' :: rest =>
    let (ds, rest) := rest.span Char.isDigit
    if ds.isEmpty then none
    else
      let nine := (ds ++ List.replicate 9 '0').take 9
      some (nine.foldl (fun n c => n * 10 + (c.toNat - '0'.toNat)) 0, rest)
  | cs => some (0, cs)

/-- The distance to universal time in seconds: `Z`, or a sign, hours and minutes. -/
def takeOffset : List Char → Option (Int × List Char)
  | c :: rest =>
    if c = 'Z' ∨ c = 'z' then some (0, rest)
    else if c = '+' ∨ c = '-' then do
      let (h, rest) ← takeNumber 2 rest
      let rest ← takeChar [':'] rest
      let (m, rest) ← takeNumber 2 rest
      if h > 23 ∨ m > 59 then none
      else
        let s : Int := (h : Int) * 3600 + (m : Int) * 60
        some (if c = '-' then -s else s, rest)
    else none
  | [] => none

/-- The instant an Internet form names, at any distance from universal time. -/
def parse? (s : String) : Option Instant := do
  let (year, cs) ← takeNumber 4 s.toList
  let cs ← takeChar ['-'] cs
  let (month, cs) ← takeNumber 2 cs
  let cs ← takeChar ['-'] cs
  let (day, cs) ← takeNumber 2 cs
  let cs ← takeChar ['T', 't', ' '] cs
  let (hour, cs) ← takeNumber 2 cs
  let cs ← takeChar [':'] cs
  let (minute, cs) ← takeNumber 2 cs
  let cs ← takeChar [':'] cs
  let (second, cs) ← takeNumber 2 cs
  let (nanos, cs) ← takeFraction cs
  let (offset, cs) ← takeOffset cs
  if !cs.isEmpty ∨ month = 0 ∨ month > 12 ∨ day = 0 ∨ day > daysInMonth year month
      ∨ hour > 23 ∨ minute > 59 ∨ second > 60 then none
  else
    let inDay : Int := (hour : Int) * 3600 + (minute : Int) * 60 + (min second 59 : Nat)
    some ⟨daysOfDate year month day * 86400 + inDay - offset,
      if second = 60 then nanos + 1000000000 else nanos⟩

end Instant

end Larder
