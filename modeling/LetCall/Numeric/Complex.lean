import LetCall.Numeric.Binary64
import LetCall.Trouble

/-!
# LetCall.Numeric.Complex

Complex numbers in double precision.  They arise when a negative number is raised to a
fractional power and take part in arithmetic from then on.
-/

namespace LetCall.Numeric

/-! ## right triangles -/

/-- A power of two within the range of normal doubles. -/
def floatTwoPow (e : Int) : Float := Float.ofBits (UInt64.ofNat ((e + 1023).toNat * twoPow 52))

/-- The long side of a right triangle with sides `y ≤ x` whose squares neither overflow
nor underflow: the root of the sum of squares, corrected once by what its own square
misses. -/
def correctedRoot (x y : Float) : Float :=
  let h := Float.sqrt (x * x + y * y)
  if h ≤ 2.0 * y then
    let d := h - y
    h - (x * (2.0 * d - x) + (d - 2.0 * (x - y)) * d) / (2.0 * h)
  else
    let d := h - x
    h - (2.0 * d * (x - 2.0 * y) + ((4.0 * d - y) * y + d * d)) / (2.0 * h)

/-- The long side of a right triangle with finite sides, which are scaled where their
squares would leave the range; a side too short to matter is just added. -/
def hypotenuse (a b : Float) : Float :=
  let x := if a.abs < b.abs then b.abs else a.abs
  let y := if a.abs < b.abs then a.abs else b.abs
  let tiny := floatTwoPow (-54)
  let unit := floatTwoPow (-600)
  if floatTwoPow 511 < x then
    if y ≤ x * tiny then x + y else correctedRoot (x * unit) (y * unit) / unit
  else if y < floatTwoPow (-459) then
    if y / tiny ≤ x then x + y else correctedRoot (x / unit) (y / unit) * unit
  else if y ≤ x * tiny then x + y
  else correctedRoot x y

/-! ## complex numbers -/

/-- A complex number. -/
structure Complex where
  re : Float
  im : Float
  deriving Repr

namespace Complex

def one : Complex := ⟨1.0, 0.0⟩

def add (a b : Complex) : Complex := ⟨a.re + b.re, a.im + b.im⟩

def sub (a b : Complex) : Complex := ⟨a.re - b.re, a.im - b.im⟩

def mul (a b : Complex) : Complex :=
  ⟨a.re * b.re - a.im * b.im, a.re * b.im + a.im * b.re⟩

def neg (a : Complex) : Complex := ⟨-a.re, -a.im⟩

/-- The quotient, scaled by the larger part of the divisor so that no intermediate
result overflows. -/
def div (a b : Complex) : Except Trouble Complex :=
  let r := b.re.abs
  let i := b.im.abs
  if i ≤ r then
    if r == 0.0 then .error (.zeroDivision .complexQuotient)
    else
      let ratio := b.im / b.re
      let denom := b.re + b.im * ratio
      .ok ⟨(a.re + a.im * ratio) / denom, (a.im - a.re * ratio) / denom⟩
  else if r ≤ i then
    let ratio := b.re / b.im
    let denom := b.re * ratio + b.im
    .ok ⟨(a.re * ratio + a.im) / denom, (a.im * ratio - a.re) / denom⟩
  else .ok ⟨notANumber, notANumber⟩

/-- The distance from the origin; `none` when it is too large for a float. -/
def abs? (a : Complex) : Option Float :=
  if a.re.isInf || a.im.isInf then some infinity
  else if a.re.isNaN || a.im.isNaN then some notANumber
  else
    let d := hypotenuse a.re a.im
    if d.isInf then none else some d

/-- A power by repeated squaring. -/
def powNat (a : Complex) (n : Nat) : Complex := go 8 n one a
where
  /-- Exponents are below 2 ^ 7, so eight squarings suffice. -/
  go : Nat → Nat → Complex → Complex → Complex
    | 0, _, r, _ => r
    | fuel + 1, n, r, p =>
      if n = 0 then r
      else go fuel (n / 2) (if n % 2 = 1 then mul r p else r) (mul p p)

/-- A power through polar coordinates. -/
def powPolar (a b : Complex) : Except Trouble Complex :=
  if b.re == 0.0 && b.im == 0.0 then .ok one
  else if a.re == 0.0 && a.im == 0.0 then
    if b.im != 0.0 || b.re < 0.0 then .error (.zeroDivision .complexPower)
    else .ok ⟨0.0, 0.0⟩
  else
    let vabs := (abs? a).getD infinity
    let at0 := Float.atan2 a.im a.re
    let len := Float.pow vabs b.re
    let phase := at0 * b.re
    let (len, phase) :=
      if b.im != 0.0 then (len / Float.exp (at0 * b.im), phase + b.im * Float.log vabs)
      else (len, phase)
    -- an infinite angle is no angle
    if phase.isInf then .error (.zeroDivision .complexPower)
    else .ok ⟨len * Float.cos phase, len * Float.sin phase⟩

/-- A power: small whole exponents by multiplication, all others in polar coordinates. -/
def pow (a b : Complex) : Except Trouble Complex := do
  let r ←
    if b.im == 0.0 && b.re == b.re.floor && b.re.abs ≤ 100.0 then
      let n := b.re.abs.toUInt64.toNat
      if 0.0 < b.re then pure (powNat a n)
      else match div one (powNat a n) with
        | .ok r => pure r
        | .error _ => throw (.zeroDivision .complexPower)
    else powPolar a b
  if r.re.isInf || r.im.isInf then throw .complexPowerTooLarge
  return r

end Complex

end LetCall.Numeric
