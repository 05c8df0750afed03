import LetCall.Value.Number
import LetCall.Text.Case

/-!
# LetCall.Library.Text

Length, parts and case of values taken as text.
-/

namespace LetCall.Library

/-- A value as text; nothing counts as the empty text. -/
def textOrEmpty (v : Value) : Except Trouble String :=
  match v with
  | .null => .ok ""
  | v =>
    match v.text? with
    | some s => .ok s
    | none => .error .tooManyDigits

/-- Report a failure as one of a larger operation. -/
def within {α : Type} (context : String) (x : Except Trouble α) : Except Trouble α :=
  x.mapError (.within context)

/-- How many elements a list has, or characters a value as text. -/
def length (v : Value) : Except Trouble Value :=
  match v with
  | .list vs => .ok (.int vs.length)
  | v =>
    within s!"Cannot get length of {v.typeName}: " do
      return .int (← textOrEmpty v).length

/-- An index counted from the start: a negative one counts from the end, but not
beyond the start. -/
def fromStart (size : Nat) (i : Int) : Int := if i < 0 then max 0 (size + i) else i

/-- The characters from `start` up to `stop`, or to the end; both indices are brought
into the text, and the second not before the first. -/
def slice (cs : List Char) (start : Int) (stop : Option Int) : List Char :=
  let first := max 0 (min (fromStart cs.length start) cs.length)
  match stop with
  | none => cs.drop first.toNat
  | some stop =>
    let last := max first (min (fromStart cs.length stop) cs.length)
    (cs.drop first.toNat).take (last - first).toNat

/-- The part of a value as text from one index up to another. -/
def substring (v start : Value) (stop : Option Value) : Except Trouble Value :=
  within "Substring error: " do
    let s ← textOrEmpty v
    let some first := start.integer? | throw (.startIndex start.typeName)
    match stop with
    | none | some .null => return .str (String.ofList (slice s.toList first none))
    | some stop =>
      let some last := stop.integer? | throw (.endIndex stop.typeName)
      return .str (String.ofList (slice s.toList first (some last)))

/-- A value as text in upper case. -/
def upper (v : Value) : Except Trouble Value :=
  within "Cannot convert to uppercase: " do return .str (Text.toUpper (← textOrEmpty v))

/-- A value as text in lower case. -/
def lower (v : Value) : Except Trouble Value :=
  within "Cannot convert to lowercase: " do return .str (Text.toLower (← textOrEmpty v))

end LetCall.Library
