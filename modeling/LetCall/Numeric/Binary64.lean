import LetCall.Numeric.Round

/-!
# LetCall.Numeric.Binary64

Double-precision numbers taken apart into sign, mantissa and power of two, and put
together from an exact quotient.  Every conversion of the language that has to be
correctly rounded (integer to float, integer division, decimal places) goes through
`nearest`.
-/

namespace LetCall.Numeric

/-! ## taking apart -/

/-- What a double stands for. -/
inductive Parts where
  | nan
  | infinite (negative : Bool)
  /-- The number `mantissa · 2 ^ exponent`, with a sign that zero has too. -/
  | finite (negative : Bool) (mantissa : Nat) (exponent : Int)
  deriving DecidableEq, Repr

/-- The parts of a double. -/
def parts (x : Float) : Parts :=
  let bits := x.toBits.toNat
  let negative := twoPow 63 ≤ bits
  let biased : Nat := bits / twoPow 52 % twoPow 11
  let fraction := bits % twoPow 52
  if biased = 2047 then
    if fraction = 0 then .infinite negative else .nan
  else if biased = 0 then .finite negative fraction (-1074)
  else .finite negative (twoPow 52 + fraction) ((biased : Int) - 1075)

/-- The power of two as a quotient: numerator and denominator of `m · 2 ^ e`. -/
def scale (m : Nat) (e : Int) : Nat × Nat :=
  if 0 ≤ e then (m * twoPow e.toNat, 1) else (m, twoPow (-e).toNat)

/-- Whether the sign bit is set, for zero and NaN too. -/
def signBit (x : Float) : Bool := twoPow 63 ≤ x.toBits.toNat

/-- `x` with the sign of `y`. -/
def copySign (x y : Float) : Float :=
  let magnitude := x.toBits.toNat % twoPow 63
  Float.ofBits (UInt64.ofNat (if signBit y then twoPow 63 + magnitude else magnitude))

def infinity : Float := Float.ofBits 0x7ff0000000000000

def notANumber : Float := Float.ofBits 0x7ff8000000000000

/-! ## putting together -/

/-- The whole part of the logarithm to base two of `n / d`, for `n, d > 0`. -/
def log2Quotient (n d : Nat) : Int :=
  let k : Int := (n.log2 : Int) - (d.log2 : Int)
  let (n', d') := if 0 ≤ k then (n, d * twoPow k.toNat) else (n * twoPow (-k).toNat, d)
  if d' ≤ n' then k else k - 1

/-- The double nearest to `± n / d`, a tie to the even mantissa; `none` when it would
be too large. -/
def nearest (negative : Bool) (n d : Nat) : Option Float :=
  let magnitude : Option Nat :=
    if n = 0 then some 0
    else
      -- the unit in the last place: 53 significant bits, fewer below the normal range
      let e := max (log2Quotient n d - 52) (-1074)
      let q := if 0 ≤ e then roundDiv n (d * twoPow e.toNat) else roundDiv (n * twoPow (-e).toNat) d
      -- a mantissa that rounds up to the next power of two carries into the exponent field
      let bits := (e + 1074).toNat * twoPow 52 + q
      if bits < 2047 * twoPow 52 then some bits else none
  magnitude.map fun bits => Float.ofBits (UInt64.ofNat (if negative then twoPow 63 + bits else bits))

/-- The double nearest to an integer; `none` when it is too large. -/
def ofInt? (n : Int) : Option Float := nearest (n < 0) n.natAbs 1

/-- The double nearest to `± digits · 10 ^ exponent`; beyond the range an infinity. -/
def ofDecimal (negative : Bool) (digits : Nat) (exponent : Int) : Float :=
  let x :=
    if digits = 0 then nearest negative 0 1
    -- far outside the range the power of ten is not worked out
    else if 400 < exponent then none
    else if exponent + digitCount digits < -400 then nearest negative 0 1
    else if 0 ≤ exponent then nearest negative (digits * tenPow exponent.toNat) 1
    else nearest negative digits (tenPow (-exponent).toNat)
  x.getD (if negative then -infinity else infinity)

/-! ## whole numbers and remainders -/

/-- The integers around a double: numerator with sign, and denominator; `none` for
infinities and NaN. -/
def quotient? (x : Float) : Option (Int × Nat) :=
  match parts x with
  | .finite negative m e =>
    let (n, d) := scale m e
    some (if negative then -(n : Int) else n, d)
  | _ => none

/-- The integer nearest to a finite double, a tie to the even one. -/
def roundInt (n : Int) (d : Nat) : Int :=
  let r : Int := roundDiv n.natAbs d
  if n < 0 then -r else r

/-- The remainder of a division toward zero, which a double holds exactly: it has the
sign of the dividend.  There is none if the dividend is infinite or the divisor zero. -/
def remainder (x y : Float) : Float :=
  match parts x, parts y with
  | .finite negative m e, .finite _ m' e' =>
    if m' = 0 then notANumber
    else
      let low := min e e'
      let r := m * twoPow (e - low).toNat % (m' * twoPow (e' - low).toNat)
      let (n, d) := scale r low
      (nearest negative n d).getD notANumber
  | .finite .., .infinite _ => x
  | _, _ => notANumber

end LetCall.Numeric
