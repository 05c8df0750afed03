/-!
# LetCall.Numeric.Round

Powers of the two bases, and rounding a quotient of natural numbers to the nearest one,
a tie to the even neighbour.
-/

namespace LetCall.Numeric

/-! ## powers -/

/-- A power of two. -/
def twoPow (n : Nat) : Nat := Nat.pow 2 n

/-- A power of ten. -/
def tenPow (n : Nat) : Nat := Nat.pow 10 n

/-! ## quotients -/

/-- The natural number nearest to `n / d`; a tie goes to the even neighbour. -/
def roundDiv (n d : Nat) : Nat :=
  let q := n / d
  let twice := 2 * (n % d)
  if twice < d then q
  else if d < twice then q + 1
  else if q % 2 = 0 then q else q + 1

/-! ## digits -/

/-- How many decimal digits a number is written with. -/
def digitCount (n : Nat) : Nat := (Nat.toDigits 10 n).length

/-- The decimal digits of a number. -/
def decimalDigits (n : Nat) : String := String.ofList (Nat.toDigits 10 n)

end LetCall.Numeric
