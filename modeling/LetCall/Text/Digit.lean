/-!
# LetCall.Text.Digit

Decimal digits of every script (Unicode 14).  Each script has ten of them in a row,
so a digit is a code point less than ten above one of the zeros.

Main statements: the ten ASCII digits are digits with their usual values, and a
digit value is below ten.
-/

namespace LetCall.Text

/-- The digit zero of each script. -/
def zeros : List Nat :=
  [48, 1632, 1776, 1984, 2406, 2534, 2662, 2790, 2918, 3046, 3174, 3302, 3430, 3558, 3664, 3792,
    3872, 4160, 4240, 6112, 6160, 6470, 6608, 6784, 6800, 6992, 7088, 7232, 7248, 42528, 43216,
    43264, 43472, 43504, 43600, 44016, 65296, 66720, 68912, 69734, 69872, 69942, 70096, 70384,
    70736, 70864, 71248, 71360, 71472, 71904, 72016, 72784, 73040, 73120, 92768, 92864, 93008,
    120782, 120792, 120802, 120812, 120822, 123200, 123632, 125264, 130032]

/-- The value of a decimal digit, and `none` for any other character. -/
def digitValue? (c : Char) : Option Nat :=
  zeros.findSome? fun z => if z ≤ c.toNat ∧ c.toNat < z + 10 then some (c.toNat - z) else none

/-- Whether a character is a decimal digit of some script. -/
def isDigit (c : Char) : Bool := (digitValue? c).isSome

/-- The value of a digit; characters that are none count as zero. -/
def digitValue (c : Char) : Nat := (digitValue? c).getD 0

theorem isDigit_iff {c : Char} : isDigit c = true ↔ ∃ d, digitValue? c = some d :=
  Option.isSome_iff_exists

/-- The ASCII digits have their usual values. -/
theorem digitValue?_of_isDigit {c : Char} (h : c.isDigit = true) :
    digitValue? c = some (c.toNat - 48) := by
  have h' : 48 ≤ c.toNat ∧ c.toNat < 48 + 10 := by
    simp only [Char.isDigit, Bool.and_eq_true, decide_eq_true_eq] at h
    exact ⟨h.1, Nat.lt_succ_of_le h.2⟩
  simp only [digitValue?, zeros, List.findSome?_cons, if_pos h']

/-- A digit value is below ten. -/
theorem digitValue?_lt {c : Char} {d : Nat} (h : digitValue? c = some d) : d < 10 := by
  obtain ⟨z, _, hz⟩ := List.exists_of_findSome?_eq_some h
  split at hz
  · cases hz; omega
  · cases hz

end LetCall.Text
