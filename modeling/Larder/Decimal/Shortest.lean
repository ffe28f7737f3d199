/-!
# The fewest digits that read back

A finite double stands for an exact number, and a decimal *reads back* as it when the double is the
one nearest to that decimal. Of all decimals that read back, the shortest is the one with the fewest
digits, and among those the one nearest to the exact number, an even last digit deciding a draw.

The search is exact. The number and the ends of the interval of reals that round to it are
fractions of natural numbers; for one digit, two digits, and so on, the two neighbours of the number
on the grid of decimals with that many digits are tried, and the first grid with a hit wins.
-/

namespace Larder.Decimal

/-- A double, as the 64 bits that encode it. -/
structure Double where
  /-- Sign, exponent and fraction, from the highest bit down. -/
  bits : UInt64
deriving DecidableEq, Repr

namespace Double

/-- The double with the value of a machine number. -/
def ofFloat (x : Float) : Double := ⟨x.toBits⟩

/-- The machine number of a double. -/
def toFloat (x : Double) : Float := Float.ofBits x.bits

/-- Whether the sign bit is set. -/
def isNegative (x : Double) : Bool := x.bits ≥ 0x8000000000000000

/-- The bits below the sign and the exponent. -/
def fraction (x : Double) : Nat := x.bits.toNat % Nat.pow 2 52

/-- The eleven exponent bits. -/
def biasedExponent (x : Double) : Nat := x.bits.toNat / Nat.pow 2 52 % Nat.pow 2 11

/-- The magnitude is `mantissa * 2 ^ scale`. -/
def mantissa (x : Double) : Nat :=
  if x.biasedExponent = 0 then x.fraction else x.fraction + Nat.pow 2 52

/-- See `mantissa`. -/
def scale (x : Double) : Int :=
  if x.biasedExponent = 0 then -1074 else (x.biasedExponent : Int) - 1075

end Double

/-- A positive decimal: `digits * 10 ^ exponent`. -/
structure Digits where
  /-- The significant digits as one number. -/
  digits : Nat
  /-- The power of ten of the last digit. -/
  exponent : Int
deriving DecidableEq, Repr

/-- A fraction of natural numbers. -/
structure Ratio where
  /-- Above the line. -/
  num : Nat
  /-- Below the line. -/
  den : Nat

/-- `n * 2 ^ q` as a fraction. -/
def Ratio.scaled (n : Nat) (q : Int) : Ratio :=
  if q ≥ 0 then ⟨n * Nat.pow 2 q.toNat, 1⟩ else ⟨n, Nat.pow 2 (-q).toNat⟩

/-- The fraction times `10 ^ e`. -/
def Ratio.shift10 (r : Ratio) (e : Int) : Ratio :=
  if e ≥ 0 then ⟨r.num * Nat.pow 10 e.toNat, r.den⟩ else ⟨r.num, r.den * Nat.pow 10 (-e).toNat⟩

/-- Whether the first fraction is smaller. -/
def Ratio.lt (a b : Ratio) : Bool := a.num * b.den < b.num * a.den

/-- Whether the first fraction is at most the second. -/
def Ratio.le (a b : Ratio) : Bool := a.num * b.den ≤ b.num * a.den

/-- The reals that round to one number. -/
structure Interval where
  /-- Lower end. -/
  low : Ratio
  /-- Upper end. -/
  high : Ratio
  /-- Whether the ends belong to it. -/
  closed : Bool

/-- Whether a fraction lies in the interval. -/
def Interval.contains (i : Interval) (r : Ratio) : Bool :=
  if i.closed then i.low.le r && r.le i.high else i.low.lt r && r.lt i.high

/-- The reals that round to `m * 2 ^ q`: half the gap to either neighbour, where the lower gap of a
power of two is half as wide unless the number is among the smallest. -/
def interval (m : Nat) (q : Int) : Interval :=
  let below := if m = Nat.pow 2 52 ∧ q > -1074 then 4 * m - 1 else 4 * m - 2
  { low := Ratio.scaled below (q - 2)
    high := Ratio.scaled (4 * m + 2) (q - 2)
    closed := m % 2 = 0 }

/-- How many zeros follow the point of a fraction below one before its first digit. -/
def leadingZeros (r : Ratio) : Nat → Nat → Nat
  | 0, n => n
  | fuel + 1, n => if r.num * Nat.pow 10 (n + 1) ≥ r.den then n else leadingZeros r fuel (n + 1)

/-- The number of digits before the point; for a fraction below one, minus the zeros after it. -/
def magnitude (r : Ratio) : Int :=
  let whole := r.num / r.den
  if whole > 0 then ((Nat.toDigits 10 whole).length : Int)
  else -((leadingZeros r 400 0 : Nat) : Int)

/-- The better of the two neighbours of `v` on the grid of multiples of `10 ^ e`, if one lies in the
interval. -/
def nearestOnGrid (i : Interval) (v : Ratio) (e : Int) : Option Digits :=
  let scaled := v.shift10 (-e)
  let d := scaled.num / scaled.den
  let at_ (n : Nat) : Ratio := (Ratio.mk n 1).shift10 e
  let lowHit := d > 0 && i.contains (at_ d)
  let highHit := i.contains (at_ (d + 1))
  -- twice the distance to the lower neighbour, against the grid's width
  let twice := 2 * (scaled.num - d * scaled.den)
  let preferLow := twice < scaled.den || (twice = scaled.den && d % 2 = 0)
  match lowHit, highHit with
  | true, true => some ⟨if preferLow then d else d + 1, e⟩
  | true, false => some ⟨d, e⟩
  | false, true => some ⟨d + 1, e⟩
  | false, false => none

/-- Try grids of `count`, `count + 1`, … digits. -/
def searchGrids (i : Interval) (v : Ratio) (mag : Int) : Nat → Nat → Digits
  | 0, count => (nearestOnGrid i v (mag - count)).getD ⟨0, 0⟩
  | fuel + 1, count =>
    match nearestOnGrid i v (mag - count) with
    | some d => d
    | none => searchGrids i v mag fuel (count + 1)

/-- Drop zeros at the end, which raise the exponent instead. -/
def stripZeros : Nat → Digits → Digits
  | 0, d => d
  | fuel + 1, d =>
    if d.digits ≠ 0 ∧ d.digits % 10 = 0 then stripZeros fuel ⟨d.digits / 10, d.exponent + 1⟩ else d

/-- The shortest decimal that reads back as `m * 2 ^ q`. -/
def shortestOf (m : Nat) (q : Int) : Digits :=
  let v := Ratio.scaled m q
  stripZeros 20 (searchGrids (interval m q) v (magnitude v) 17 1)

/-- How a shortest decimal is laid out. -/
structure Layout where
  /-- Whether a positive exponent carries a plus sign. -/
  plusSign : Bool

/-- The text of a positive decimal. Numbers from `1e-5` up to sixteen digits before the point are
written out, with a point always; all others have an exponent. -/
def Layout.text (l : Layout) (d : Digits) : String :=
  let ds := Nat.toDigits 10 d.digits
  let n : Int := ds.length
  let point := n + d.exponent
  let zeros (k : Int) : List Char := List.replicate k.toNat '0'
  String.ofList <|
    if 0 ≤ d.exponent ∧ point ≤ 16 then ds ++ zeros d.exponent ++ ['.', '0']
    else if 0 < point ∧ point ≤ 16 then ds.take point.toNat ++ '.' :: ds.drop point.toNat
    else if -5 < point ∧ point ≤ 0 then ['0', '.'] ++ zeros (-point) ++ ds
    else
      let lead := match ds with
        | [] => []
        | [c] => [c]
        | c :: rest => c :: '.' :: rest
      let e := point - 1
      lead ++ 'e' :: (if e < 0 then ['-'] else if l.plusSign then ['+'] else [])
        ++ Nat.toDigits 10 e.natAbs

/-- The text of a finite double: the fewest digits that read back. -/
def Layout.double (l : Layout) (x : Double) : String :=
  let sign := if x.isNegative then "-" else ""
  if x.mantissa = 0 then sign ++ "0.0" else sign ++ l.text (shortestOf x.mantissa x.scale)

end Larder.Decimal
