import SchemaDelta.Decimal.Layout
import SchemaDelta.Json.Basic
import SchemaDelta.Text.Digits

/-!
# Number literals

A literal without fraction and exponent that fits 64 bits is an integer; minus zero and every other
literal is a double. The double is found in two steps. The leading digits that fit 64 bits make the
significand, which is rounded to a double; then it is multiplied or divided by the nearest double to
the power of ten. A literal beyond the largest double is no number, and one below the smallest is
zero.
-/

namespace SchemaDelta

open Text

namespace Number

/-- The parts of a number literal. -/
structure Literal where
  negative : Bool
  whole : List Char
  fraction : Option (List Char)
  exponent : Option Int

/-- The digits of an exponent, with their sign. -/
def exponentOf? : List Char → Option Int
  | '+' :: ds => if ds ≠ [] ∧ ds.all Char.isDigit then some (digitsValue ds : Int) else none
  | '-' :: ds => if ds ≠ [] ∧ ds.all Char.isDigit then some (-(digitsValue ds : Int)) else none
  | ds => if ds ≠ [] ∧ ds.all Char.isDigit then some (digitsValue ds : Int) else none

/-- The exponent after its mark. -/
def markedExponent? : List Char → Option Int
  | 'e' :: s | 'E' :: s => exponentOf? s
  | _ => none

/-- What follows the whole part: a fraction, an exponent, both or neither. -/
def tailOf? : List Char → Option (Option (List Char) × Option Int)
  | [] => some (none, none)
  | '.' :: r =>
    match r.takeWhile Char.isDigit, r.dropWhile Char.isDigit with
    | [], _ => none
    | ds, [] => some (some ds, none)
    | ds, e => (markedExponent? e).map fun n => (some ds, some n)
  | e => (markedExponent? e).map fun n => (none, some n)

/-- The parts of a literal. The whole part has at least one digit, and begins with zero only when
that is all of it. -/
def literal? (s : List Char) : Option Literal :=
  let negative := s.head? = some '-'
  let body := if negative then s.tail else s
  match body.takeWhile Char.isDigit with
  | [] => none
  | '0' :: _ :: _ => none
  | whole => (tailOf? (body.dropWhile Char.isDigit)).map fun t => ⟨negative, whole, t.1, t.2⟩

/-- Integers without sign are below this bound. -/
def unsignedBound : Nat := Nat.pow 2 64

/-- Integers below zero are not farther from it than this. -/
def signedBound : Nat := Nat.pow 2 63

/-- Digits are appended to `n` as long as the result fits 64 bits; the result, and how many digits
were appended. -/
def appendDigits : Nat → List Char → Nat × Nat
  | n, [] => (n, 0)
  | n, d :: ds =>
    let next := n * 10 + (d.toNat - '0'.toNat)
    if next < unsignedBound then
      let r := appendDigits next ds
      (r.1, r.2 + 1)
    else (n, 0)

/-- The nearest double to a power of ten. -/
def powerOfTen (n : Nat) : Float :=
  Float.ofScientific 1 false n

/-- The largest exponent of a power of ten that is a finite double. -/
def maxPower : Nat := 308

/-- The quotient of `x` and a power of ten, taken in steps of the largest power. -/
def divideByPower (x : Float) (n : Nat) : Float :=
  if n ≤ maxPower then x / powerOfTen n
  else if x == 0 then x
  else divideByPower (x / powerOfTen maxPower) (n - maxPower)
termination_by n
decreasing_by simp only [maxPower] at *; omega

/-- The product of `x` and a power of ten, if it is finite. -/
def multiplyByPower? (x : Float) (n : Nat) : Option Float :=
  if n ≤ maxPower then
    let y := x * powerOfTen n
    if y.isInf then none else some y
  else if x == 0 then some x
  else none

/-- The double `significand * 10 ^ exponent`, if it is finite. -/
def scaled? (significand : Nat) (exponent : Int) : Option Float :=
  if 0 ≤ exponent then multiplyByPower? (Float.ofNat significand) exponent.toNat
  else some (divideByPower (Float.ofNat significand) (-exponent).toNat)

/-- The number with the sign put before it. -/
def signed (negative : Bool) (x : Float) : Number :=
  .real (if negative then -x else x)

/-- The number that a literal denotes. -/
def Literal.number? (l : Literal) : Option Number :=
  let whole := appendDigits 0 l.whole
  let dropped := l.whole.length - whole.2
  match l.fraction, l.exponent with
  | none, none =>
    if dropped ≠ 0 then (scaled? whole.1 dropped).map (signed l.negative)
    else if ¬ l.negative then some (.integer whole.1)
    else if 0 < whole.1 ∧ whole.1 ≤ signedBound then some (.integer (-(whole.1 : Int)))
    else some (signed true (Float.ofNat whole.1))
  | fraction, exponent =>
    let all := appendDigits whole.1 (fraction.getD [])
    (scaled? all.1 ((dropped : Int) - all.2 + exponent.getD 0)).map (signed l.negative)

/-- The number that a text denotes. -/
def ofChars? (s : List Char) : Option Number :=
  (literal? s).bind Literal.number?

/-- The text of a number. -/
def text : Number → String
  | .integer n => if n < 0 then "-" ++ showNat n.natAbs else showNat n.natAbs
  | .real x => Decimal.floatText x

/-- The number is zero. -/
def isZero : Number → Bool
  | .integer n => n = 0
  | .real x => x == 0

/-- The natural number that the number is, if it is one. -/
def toNat? : Number → Option Nat
  | .integer n => if 0 ≤ n then some n.toNat else none
  | .real x => if x < 0 then none else (Decimal.Binary.ofBits x.toBits).toNat?

end Number

end SchemaDelta
