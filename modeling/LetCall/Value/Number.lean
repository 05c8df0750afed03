import LetCall.Value
import LetCall.Numeric.Complex

/-!
# LetCall.Value.Number

Values as numbers, and arithmetic on them.  Two integers give an exact integer, a float
on either side makes the result a float, and a complex number makes it complex; truth
values count as the integers zero and one.
-/

namespace LetCall

open Numeric

/-- The numbers among the values. -/
inductive Number where
  | int (n : Int)
  | float (x : Float)
  | complex (z : Numeric.Complex)
  deriving Repr

namespace Number

/-- The value of a number. -/
def value : Number → Value
  | int n => .int n
  | float x => .float x
  | complex z => .complex z.re z.im

/-- An integer as a float, which it may be too large for. -/
def floatOfInt (n : Int) : Except Trouble Float :=
  match ofInt? n with
  | some x => .ok x
  | none => .error .integerTooLarge

/-- A real number as a float; of a complex one, the real part. -/
def toFloat : Number → Except Trouble Float
  | int n => floatOfInt n
  | float x => .ok x
  | complex z => .ok z.re

/-- A number as a complex number. -/
def toComplex : Number → Except Trouble Numeric.Complex
  | int n => return ⟨← floatOfInt n, 0.0⟩
  | float x => .ok ⟨x, 0.0⟩
  | complex z => .ok z

/-- Apply the operation of the wider of two operands' domains. -/
def lift (ints : Int → Int → Except Trouble Number)
    (floats : Float → Float → Except Trouble Number)
    (complexes : Numeric.Complex → Numeric.Complex → Except Trouble Number) :
    Number → Number → Except Trouble Number
  | int a, int b => ints a b
  | int a, float y => do floats (← floatOfInt a) y
  | float x, int b => do floats x (← floatOfInt b)
  | float x, float y => floats x y
  | a, b => do complexes (← a.toComplex) (← b.toComplex)

def add : Number → Number → Except Trouble Number :=
  lift (fun a b => .ok (int (a + b))) (fun x y => .ok (float (x + y)))
    (fun a b => .ok (complex (a.add b)))

def sub : Number → Number → Except Trouble Number :=
  lift (fun a b => .ok (int (a - b))) (fun x y => .ok (float (x - y)))
    (fun a b => .ok (complex (a.sub b)))

def mul : Number → Number → Except Trouble Number :=
  lift (fun a b => .ok (int (a * b))) (fun x y => .ok (float (x * y)))
    (fun a b => .ok (complex (a.mul b)))

/-- The float nearest to the quotient of two integers. -/
def divInts (a b : Int) : Except Trouble Number :=
  if b = 0 then .error (.zeroDivision .quotient)
  else
    let negative := decide (a < 0) != decide (b < 0)
    match nearest negative a.natAbs b.natAbs with
    | some x => .ok (float x)
    | none => .error .quotientTooLarge

def div : Number → Number → Except Trouble Number :=
  lift divInts
    (fun x y => if y == 0.0 then .error (.zeroDivision .floatQuotient) else .ok (float (x / y)))
    (fun a b => do return complex (← a.div b))

/-- The remainder with the sign of the divisor. -/
def modFloats (x y : Float) : Except Trouble Number :=
  if y == 0.0 then .error (.zeroDivision .floatRemainder)
  else
    let r := remainder x y
    .ok <| float <|
      if r == 0.0 then copySign 0.0 y
      else if (y < 0.0) != (r < 0.0) then r + y
      else r

/-- The remainder with the sign of the divisor. -/
def modInts (a b : Int) : Except Trouble Number :=
  if b = 0 then .error (.zeroDivision .remainder) else .ok (int (a.fmod b))

/-- The remainder of integers or floats; complex numbers have none. -/
def mod : Number → Number → Except Trouble Number :=
  lift modInts modFloats (fun _ _ => .error (.operands "%" "complex" "complex"))

/-- Whether a float is an odd whole number. -/
def isOddWhole (x : Float) : Bool :=
  match quotient? x with
  | some (n, d) => n % d = 0 && n / d % 2 ≠ 0
  | none => false

/-- A power of floats, with its special values one by one; a negative base with a
fractional exponent gives a complex number. -/
def powFloats (x y : Float) : Except Trouble Number :=
  if y == 0.0 then .ok (float 1.0)
  else if x.isNaN then .ok (float x)
  else if y.isNaN then .ok (float (if x == 1.0 then 1.0 else y))
  else if y.isInf then
    let x := x.abs
    if x == 1.0 then .ok (float 1.0)
    else if (0.0 < y) == (1.0 < x) then .ok (float infinity)
    else .ok (float 0.0)
  else if x.isInf then
    if 0.0 < y then .ok (float (if isOddWhole y then x else x.abs))
    else .ok (float (if isOddWhole y then copySign 0.0 x else 0.0))
  else if x == 0.0 then
    if y < 0.0 then .error (.zeroDivision .negativePower)
    else .ok (float (if isOddWhole y then x else 0.0))
  else if x < 0.0 && y != y.floor then do
    return complex (← Numeric.Complex.pow ⟨x, 0.0⟩ ⟨y, 0.0⟩)
  else
    let negate := x < 0.0 && isOddWhole y
    let magnitude := if x.abs == 1.0 then 1.0 else Float.pow x.abs y
    if magnitude.isInf then .error .powerTooLarge
    else .ok (float (if negate then -magnitude else magnitude))

/-- Results of more bits than this are not worked out. -/
def bitLimit : Nat := twoPow 33

/-- A power of integers: a negative exponent gives a float. -/
def powInts (a b : Int) : Except Trouble Number :=
  if b < 0 then do powFloats (← floatOfInt a) (← floatOfInt b)
  else if a.natAbs ≤ 1 then
    -- 0, 1 and -1 raised to any exponent are told by its parity
    .ok (int (if b = 0 then 1 else if b % 2 = 0 then a * a else a))
  else if bitLimit < (a.natAbs.log2 + 1) * b.toNat then .error .outOfMemory
  else .ok (int (a.pow b.toNat))

def pow : Number → Number → Except Trouble Number :=
  lift powInts powFloats (fun a b => do return complex (← a.pow b))

def neg : Number → Number
  | int n => int (-n)
  | float x => float (-x)
  | complex z => complex z.neg

/-- The magnitude of a number. -/
def abs : Number → Except Trouble Number
  | int n => .ok (int n.natAbs)
  | float x => .ok (float x.abs)
  | complex z =>
    match z.abs? with
    | some x => .ok (float x)
    | none => .error .magnitudeTooLarge

/-! ## comparing -/

/-- How two real numbers compare, exactly; `none` if one is not a number. -/
def compare? : Number → Number → Option Ordering
  | int a, int b => some (compare a b)
  | int a, float y => intFloat a y
  | float x, int b => (intFloat b x).map Ordering.swap
  | float x, float y =>
    if x < y then some .lt else if x == y then some .eq else if y < x then some .gt else none
  | _, _ => none
where
  intFloat (a : Int) (y : Float) : Option Ordering :=
    match parts y with
    | .nan => none
    | .infinite negative => some (if negative then .gt else .lt)
    | .finite negative m e =>
      let (n, d) := scale m e
      some (compare (a * d) (if negative then -(n : Int) else n))

/-- Whether two numbers are equal, exactly. -/
def equals : Number → Number → Bool
  | complex z, complex w => z.re == w.re && z.im == w.im
  | complex z, a => z.im == 0.0 && compare? (float z.re) a == some .eq
  | a, complex z => z.im == 0.0 && compare? a (float z.re) == some .eq
  | a, b => compare? a b == some .eq

end Number

namespace Value

/-- A value as a number; truth values count as zero and one. -/
def number? : Value → Option Number
  | bool b => some (.int (if b then 1 else 0))
  | int n => some (.int n)
  | float x => some (.float x)
  | complex re im => some (.complex ⟨re, im⟩)
  | _ => none

/-- A value as an integer; truth values count as zero and one. -/
def integer? : Value → Option Int
  | bool b => some (if b then 1 else 0)
  | int n => some n
  | _ => none

/-- A value as an integer or float. -/
def realNumber? : Value → Option Number
  | complex .. => none
  | v => v.number?

end Value

end LetCall
