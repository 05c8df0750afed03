import LetCall.Numeric.Shortest

/-!
# LetCall.Numeric.Written

How the language writes numbers.  A float is written with the fewest digits that read
back, positionally while the exponent of its first digit lies between -4 and 15, and
with an exponent of at least two digits otherwise.  An integer is written in decimal,
up to a length at which conversion is refused.
-/

namespace LetCall.Numeric

/-! ## floats -/

/-- Where positional notation is used: exponents of the first digit from `low` up to,
but not including, `high`. -/
structure FloatStyle where
  low : Int
  high : Int
  /-- Whether a whole number shows a point and a zero. -/
  point : Bool

/-- Floats show a point, and an exponent from 10 ^ 16 on and below 10 ^ -4. -/
def plainStyle : FloatStyle := ⟨-4, 16, true⟩

/-- The parts of complex numbers show no needless point. -/
def complexStyle : FloatStyle := ⟨-4, 16, false⟩

/-- Write digits with a point after the first `whole` of them. -/
def placePoint (digits : List Char) (whole : Nat) : List Char :=
  digits.take whole ++ '.' :: digits.drop whole

/-- Write an exponent with its sign and at least two digits. -/
def exponentText (k : Int) : String :=
  let digits := decimalDigits k.natAbs
  let padded := if k.natAbs < 10 then "0" ++ digits else digits
  (if k < 0 then "e-" else "e+") ++ padded

/-- Write a positive decimal without trailing zeros. -/
def Decimal.text (style : FloatStyle) (c : Decimal) : String :=
  let digits := Nat.toDigits 10 c.digits
  -- the exponent of the first digit
  let k := c.exponent + digits.length - 1
  if style.low ≤ k ∧ k < style.high then
    if c.exponent ≥ 0 then
      let whole := String.ofList (digits ++ List.replicate c.exponent.toNat '0')
      if style.point then whole ++ ".0" else whole
    else if 0 ≤ k then String.ofList (placePoint digits (k.toNat + 1))
    else "0." ++ String.ofList (List.replicate (-k - 1).toNat '0' ++ digits)
  else
    let mantissa :=
      match digits with
      | [d] => [d]
      | ds => placePoint ds 1
    String.ofList mantissa ++ exponentText k

/-- Write a float. -/
def floatText (style : FloatStyle) (x : Float) : String :=
  match parts x with
  | .nan => "nan"
  | .infinite negative => if negative then "-inf" else "inf"
  | .finite negative m e =>
    let (n, d) := scale m e
    let magnitude :=
      if m = 0 then (if style.point then "0.0" else "0") else (shortest x.abs n d).trim.text style
    if negative then "-" ++ magnitude else magnitude

/-- Write a complex number: the real part is left out when it is positive zero. -/
def complexText (re im : Float) : String :=
  let imaginary := floatText complexStyle im
  if re == 0.0 && !signBit re then imaginary ++ "j"
  else
    let signed := if signBit im && !im.isNaN then imaginary else "+" ++ imaginary
    "(" ++ floatText complexStyle re ++ signed ++ "j)"

/-! ## fixed places -/

/-- Write a quotient with a fixed number of decimal places, a tie to the even digit. -/
def fixedQuotient (places n d : Nat) : String :=
  let scaled := decimalDigits (roundDiv (n * tenPow places) d)
  let padded := (List.replicate (places + 1 - scaled.length) '0' ++ scaled.toList)
  if places = 0 then String.ofList padded
  else String.ofList (placePoint padded (padded.length - places))

/-- Write a float with a fixed number of decimal places. -/
def fixedText (places : Nat) (x : Float) : String :=
  match parts x with
  | .nan => "nan"
  | .infinite negative => if negative then "-inf" else "inf"
  | .finite negative m e =>
    let (n, d) := scale m e
    (if negative then "-" else "") ++ fixedQuotient places n d

/-! ## integers -/

/-- Integers are converted to and from text up to this many digits. -/
def digitLimit : Nat := 4300

/-- The first number with too many digits. -/
def digitBound : Nat := tenPow digitLimit

/-- Write an integer in decimal, whatever its length. -/
def intDigits (n : Int) : String :=
  (if n < 0 then "-" else "") ++ decimalDigits n.natAbs

/-- Write an integer in decimal; there is no text if it has too many digits. -/
def intText? (n : Int) : Option String :=
  if n.natAbs < digitBound then some (intDigits n) else none

end LetCall.Numeric
