/-!
# LetCall.Text.Runs

Classes of characters given by run lengths.  A class is a list of lengths that
alternate between code points outside the class and code points inside it, from
code point zero on; what follows the last run is outside.
-/

namespace LetCall.Text

/-- Walk the runs: `inside` says on which side of the class the first run lies. -/
def inRuns (inside : Bool) : List Nat → Nat → Bool
  | [], _ => false
  | run :: runs, n => if n < run then inside else inRuns (!inside) runs (n - run)

/-- The class whose runs are `runs`, the first of them outside. -/
def ofRuns (runs : List Nat) (c : Char) : Bool := inRuns false runs c.toNat

end LetCall.Text
