import LetCall.Numeric.Written
import LetCall.Text.Blank
import LetCall.Text.Digit

/-!
# LetCall.Numeric.Reading

Reading an integer: white space around it, one sign, decimal digits of any script and
single underscores between digits.
-/

namespace LetCall.Numeric

/-- White space that may stand around an integer: all but the information separators. -/
def isPadding (c : Char) : Bool := Text.isBlank c && !(28 ≤ c.toNat && c.toNat ≤ 31)

/-- The digits of a number in which single underscores stand between digits only. -/
def digitsOf? : List Char → Option (List Nat)
  | [] => none
  | [c] => (Text.digitValue? c).map ([·])
  | c :: '_' :: rest => do
    let d ← Text.digitValue? c
    return d :: (← digitsOf? rest)
  | c :: rest => do
    let d ← Text.digitValue? c
    return d :: (← digitsOf? rest)

/-- The number that decimal digits stand for. -/
def ofDigits (ds : List Nat) : Nat := ds.foldl (fun n d => 10 * n + d) 0

/-- Read a number without a sign; one with too many digits is refused. -/
def readNat? (cs : List Char) : Option Nat := do
  let ds ← digitsOf? cs
  if ds.length ≤ digitLimit then some (ofDigits ds) else none

/-- Drop white space at both ends. -/
def stripPadding (cs : List Char) : List Char :=
  ((cs.dropWhile isPadding).reverse.dropWhile isPadding).reverse

/-- Read an integer. -/
def readInt? (s : String) : Option Int :=
  match stripPadding s.toList with
  | '-' :: cs => (readNat? cs).map fun n => -(n : Int)
  | '+' :: cs => (readNat? cs).map Int.ofNat
  | cs => (readNat? cs).map Int.ofNat

end LetCall.Numeric
