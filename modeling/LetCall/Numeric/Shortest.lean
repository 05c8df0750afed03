import LetCall.Numeric.Binary64

/-!
# LetCall.Numeric.Shortest

The fewest decimal digits that read back as a given double; of several candidates
with that many digits the one nearest to it.
-/

namespace LetCall.Numeric

/-- The decimal number `digits · 10 ^ exponent`. -/
structure Decimal where
  digits : Nat
  exponent : Int
  deriving DecidableEq, Repr

/-- The whole part of the logarithm to base ten of `n / d`, for `n, d > 0`. -/
def log10Quotient (n d : Nat) : Int :=
  if d ≤ n then (digitCount (n / d) : Int) - 1
  else
    -- the least `j` with `d ≤ 10 ^ j * n`
    let up := (d + n - 1) / n
    Int.negOfNat (digitCount (up - 1))

/-- `n / d` divided by a power of ten, as a quotient. -/
def scaleDown (n d : Nat) (t : Int) : Nat × Nat :=
  if 0 ≤ t then (n, d * tenPow t.toNat) else (n * tenPow (-t).toNat, d)

/-- Whether a decimal reads back as a positive double. -/
def readsBack (x : Float) (c : Decimal) : Bool :=
  (ofDecimal false c.digits c.exponent).toBits == x.toBits

/-- The decimal of `count` digits that reads back as `x`, which is `n / d`, if there is
one: of the two neighbours of `n / d` on that grid, the nearer that does. -/
def candidate? (x : Float) (n d : Nat) (k : Int) (count : Nat) : Option Decimal :=
  let t := k - count + 1
  let (n', d') := scaleDown n d t
  let low : Decimal := ⟨n' / d', t⟩
  let high : Decimal := ⟨n' / d' + 1, t⟩
  match readsBack x low, readsBack x high with
  | true, true => some ⟨roundDiv n' d', t⟩
  | true, false => some low
  | false, true => some high
  | false, false => none

/-- The shortest decimal that reads back as a positive double `x`, which is `n / d`;
seventeen digits always do. -/
def shortest (x : Float) (n d : Nat) : Decimal :=
  let k := log10Quotient n d
  let counts := (List.range 17).map (· + 1)
  (counts.findSome? (candidate? x n d k)).getD ⟨n / d, 0⟩

/-- A decimal without trailing zeros among its digits; zero is left as it is. -/
def Decimal.trim (c : Decimal) : Decimal :=
  let digits := (Nat.toDigits 10 c.digits).reverse
  let zeros := (digits.takeWhile (· == '0')).length
  if c.digits = 0 then c else ⟨c.digits / tenPow zeros, c.exponent + zeros⟩

end LetCall.Numeric
