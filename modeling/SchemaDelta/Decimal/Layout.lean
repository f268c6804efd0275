import SchemaDelta.Decimal.Shortest

/-!
# The text of a double

A double is written with the fewest digits that read back. From `10 ^ -5` up to below `10 ^ 16` the
digits are written positionally and always have a point; other values have one digit before the
point and an exponent, which bears its sign in either direction.
-/

namespace SchemaDelta.Decimal

/-- Leading digits with exponents from here on are written positionally. -/
def plainFrom : Int := -5

/-- Leading digits with exponents from here on are written with an exponent. -/
def plainBelow : Int := 16

/-- The digits of `n` without the zeros at its end; zero has one digit. -/
def significant (n : Nat) : List Char :=
  match ((Nat.toDigits 10 n).reverse.dropWhile (· = '0')).reverse with
  | [] => ['0']
  | ds => ds

/-- Digits laid out positionally, the first of them standing for a multiple of `10 ^ e`. -/
def layPlain (ds : List Char) (e : Int) : List Char :=
  if e < 0 then '0' :: '.' :: List.replicate (-e - 1).toNat '0' ++ ds
  else
    let whole := e.toNat + 1
    if ds.length ≤ whole then ds ++ List.replicate (whole - ds.length) '0' ++ ['.', '0']
    else ds.take whole ++ '.' :: ds.drop whole

/-- Digits laid out with an exponent, the first of them standing before the point. -/
def layScientific (ds : List Char) (e : Int) : List Char :=
  let mantissa := match ds with
    | d :: r@(_ :: _) => d :: '.' :: r
    | _ => ds
  mantissa ++ 'e' :: (if e < 0 then '-' else '+') :: Nat.toDigits 10 e.natAbs

/-- The text of a decimal. -/
def Digits.text (d : Digits) : List Char :=
  let ds := significant d.digits
  let e := d.exponent + (Nat.toDigits 10 d.digits).length - 1
  if plainFrom ≤ e ∧ e < plainBelow then layPlain ds e else layScientific ds e

/-- The text of a finite double. Zero keeps its sign. -/
def floatText (x : Float) : String :=
  let b := Binary.ofBits x.toBits
  let sign := if x.toBits >>> 63 = 1 then ['-'] else []
  let body := if b.mantissa = 0 then ['0', '.', '0'] else b.shortest.text
  String.ofList (sign ++ body)

end SchemaDelta.Decimal
