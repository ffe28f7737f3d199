/-!
# Labels in ASCII

A label with characters beyond ASCII is written in ASCII as its own ASCII characters, a hyphen if
there are any, and then one number for each other character, in the order of their code points. Such
a number says how far to go on from the last character, counting places in the label and code points
together. A number is written with the digits `a` to `z` and `0` to `9`, lowest first; which digit is
its last one is told by a threshold that adapts to the numbers so far.

Every loop here has a measure: the list it reads, or a number that it divides.
-/

namespace Larder.Endpoint.Punycode

/-- The character of a digit below 36. -/
def digitChar (d : Nat) : Char := if d < 26 then Char.ofNat (97 + d) else Char.ofNat (22 + d)

/-- The value of a digit. -/
def digitValue? (c : Char) : Option Nat :=
  if 'a' ≤ c ∧ c ≤ 'z' then some (c.toNat - 97)
  else if 'A' ≤ c ∧ c ≤ 'Z' then some (c.toNat - 65)
  else if '0' ≤ c ∧ c ≤ '9' then some (c.toNat - 22)
  else none

/-- The threshold of the digit at place `k`: a digit below it is the last one. -/
def threshold (bias k : Nat) : Nat := min 26 (max 1 (k - bias))

theorem one_le_threshold (bias k : Nat) : 1 ≤ threshold bias k := by
  simp only [threshold]; omega

theorem threshold_le (bias k : Nat) : threshold bias k ≤ 26 := by
  simp only [threshold]; omega

/-- The number that a bias is read from, and how often 36 goes before it. -/
def shrink (delta k : Nat) : Nat × Nat :=
  if 455 < delta then shrink (delta / 35) (k + 36) else (delta, k)
termination_by delta
decreasing_by omega

/-- The next bias, after a number `delta` has been written as one of `count` characters. -/
def adapt (delta count : Nat) (isFirst : Bool) : Nat :=
  let halved := if isFirst then delta / 700 else delta / 2
  let (rest, k) := shrink (halved + halved / count) 0
  k + 36 * rest / (rest + 38)

/-! ## Writing -/

/-- The digits of a number, from place `k` on. -/
def writeNumber (bias k n : Nat) : List Char :=
  if n < threshold bias k then [digitChar n]
  else
    digitChar (threshold bias k + (n - threshold bias k) % (36 - threshold bias k))
      :: writeNumber bias (k + 36) ((n - threshold bias k) / (36 - threshold bias k))
termination_by n
decreasing_by
  have low := one_le_threshold bias k
  exact Nat.lt_of_le_of_lt (Nat.div_le_self _ _) (by omega)

/-- Where the writing of a label stands. -/
structure Writing where
  /-- What has been written. -/
  text : List Char := []
  /-- How far it is from the last character written. -/
  delta : Nat := 0
  /-- The bias of the next number. -/
  bias : Nat := 72
  /-- How many characters of the label are written. -/
  done : Nat
deriving DecidableEq, Repr

/-- Passes one character of the label while those with the code point `code` are being written. -/
def Writing.pass (basics code : Nat) (w : Writing) (c : Char) : Writing :=
  if c.toNat < code then { w with delta := w.delta + 1 }
  else if c.toNat = code then
    { text := w.text ++ writeNumber w.bias 36 w.delta
      delta := 0
      bias := adapt w.delta (w.done + 1) (w.done = basics)
      done := w.done + 1 }
  else w

/-- Writes the characters with the given code points, which ascend, going on from `start`. -/
def Writing.all (label : List Char) (basics : Nat) : List Nat → Nat → Writing → Writing
  | [], _, w => w
  | code :: codes, start, w =>
    let w := { w with delta := w.delta + (code - start) * (w.done + 1) }
    let w := label.foldl (Writing.pass basics code) w
    Writing.all label basics codes (code + 1) { w with delta := w.delta + 1 }

/-- The code points beyond ASCII in a label, ascending and each once. -/
def codes (label : List Char) : List Nat :=
  (((label.map Char.toNat).filter (0x80 ≤ ·)).mergeSort (· ≤ ·)).eraseDups

/-- The ASCII form of a label, without the mark that tells it from a plain one. -/
def encode (label : List Char) : List Char :=
  let basics := label.filter (·.toNat < 0x80)
  let rest := (Writing.all label basics.length (codes label) 0x80 { done := basics.length }).text
  if basics.isEmpty then rest else basics ++ '-' :: rest

/-! ## Reading -/

/-- Reads a number from place `k` on, where each digit counts `weight` times; `n` is what the digits
so far add up to. -/
def readNumber? (bias k weight n : Nat) : List Char → Option (Nat × List Char)
  | [] => none
  | c :: rest =>
    match digitValue? c with
    | none => none
    | some d =>
      let n := n + d * weight
      if d < threshold bias k then some (n, rest)
      else readNumber? bias (k + 36) (weight * (36 - threshold bias k)) n rest

theorem readNumber?_shorter {bias k weight n : Nat} {cs rest : List Char} {m : Nat}
    (h : readNumber? bias k weight n cs = some (m, rest)) : rest.length < cs.length := by
  induction cs generalizing k weight n with
  | nil => simp [readNumber?] at h
  | cons c cs ih =>
    simp only [readNumber?] at h
    split at h
    · cases h
    · split at h
      · simp only [Option.some.injEq, Prod.mk.injEq] at h
        simp [← h.2]
      · have := ih h
        simp only [List.length_cons]; omega

/-- Reads the numbers of a label, `label` being what is known of it, `code` the last code point and
`place` the place behind the last character. Nothing that is no character can be read. -/
def readFrom? (label : List Char) (bias code place : Nat) (isFirst : Bool) (cs : List Char) :
    Option (List Char) :=
  if cs.isEmpty then some label
  else
    match h : readNumber? bias 36 1 place cs with
    | none => none
    | some (n, rest) =>
      let count := label.length + 1
      let code := code + n / count
      if code.isValidChar then
        readFrom? (label.insertIdx (n % count) (Char.ofNat code)) (adapt (n - place) count isFirst)
          code (n % count + 1) false rest
      else none
termination_by cs.length
decreasing_by exact readNumber?_shorter h

/-- The label that an ASCII form stands for. -/
def decode? (cs : List Char) : Option (List Char) :=
  let numbers := (cs.reverse.takeWhile (· ≠ '-')).reverse
  let basics := cs.take (cs.length - numbers.length - 1)
  if basics.any (0x80 ≤ ·.toNat) then none else readFrom? basics 72 0x80 0 true numbers

end Larder.Endpoint.Punycode
