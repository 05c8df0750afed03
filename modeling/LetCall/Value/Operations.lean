import LetCall.Value.Template

/-!
# LetCall.Value.Operations

The operations that values offer whatever their type: arithmetic, which texts and lists
take part in where it makes sense, and order.
-/

namespace LetCall.Value

open Numeric

/-! ## arithmetic -/

/-- Apply an operation on numbers, or report the operand types. -/
def withNumbers (operator : String) (f : Number → Number → Except Trouble Number)
    (a b : Value) : Except Trouble Value :=
  match a.number?, b.number? with
  | some x, some y => (f x y).map Number.value
  | _, _ => .error (.operands operator a.typeName b.typeName)

/-- The sum of numbers; texts and lists are joined to their like. -/
def add (a b : Value) : Except Trouble Value :=
  match a, b with
  | str s, str t => .ok (str (s ++ t))
  | str _, _ => .error (.concatenate "str" b.typeName)
  | list us, list vs => .ok (list (us ++ vs))
  | list _, _ => .error (.concatenate "list" b.typeName)
  | _, _ => withNumbers "+" Number.add a b

/-- The difference of numbers. -/
def sub (a b : Value) : Except Trouble Value := withNumbers "-" Number.sub a b

/-- How often a sequence of `size` elements is repeated.  More than `longest` elements are
refused for their number, and what no memory holds is refused too. -/
def repetitions (longest : Option Nat) (size : Nat) (count : Value) : Except Trouble Nat :=
  match count.integer? with
  | none => .error (.repetition count.typeName)
  | some n =>
    if n < -(Numeric.twoPow 63 : Int) ∨ (Numeric.twoPow 63 : Int) ≤ n then .error .countTooLarge
    else if size = 0 then .ok 0
    else if longest.any (· < size * n.toNat) then .error .repeatedTooLong
    else if Numeric.twoPow 32 < size * n.toNat then .error .outOfMemory
    else .ok n.toNat

/-- A text or list repeated; `none` if the first value is neither. -/
def repeat? (sequence count : Value) : Option (Except Trouble Value) :=
  match sequence with
  | str s => some do
    let n ← repetitions (some (Numeric.twoPow 63 - 1)) s.length count
    return str (String.ofList (List.replicate n s.toList).flatten)
  | list vs => some do
    let n ← repetitions none vs.length count
    return list (List.replicate n vs).flatten
  | _ => none

/-- The product of numbers; a text or list is repeated by an integer on either side. -/
def mul (a b : Value) : Except Trouble Value :=
  match repeat? a b, repeat? b a with
  | some r, _ => r
  | none, some r => r
  | none, none => withNumbers "*" Number.mul a b

/-- The quotient of numbers. -/
def div (a b : Value) : Except Trouble Value := withNumbers "/" Number.div a b

/-- The remainder of real numbers; a text is a template to fill in. -/
def mod (a b : Value) : Except Trouble Value :=
  match a with
  | str template => (Template.format template b).map str
  | _ =>
    match a.realNumber?, b.realNumber? with
    | some x, some y => (x.mod y).map Number.value
    | _, _ => .error (.operands "%" a.typeName b.typeName)

/-- A power of numbers. -/
def pow (a b : Value) : Except Trouble Value := withNumbers "** or pow()" Number.pow a b

/-- A number with its sign changed. -/
def neg (a : Value) : Except Trouble Value :=
  match a.number? with
  | some x => .ok x.neg.value
  | none => .error (.unary "unary -" a.typeName)

/-- The magnitude of a number. -/
def abs (a : Value) : Except Trouble Value :=
  match a.number? with
  | some x => x.abs.map Number.value
  | none => .error (.unary "abs()" a.typeName)

/-! ## equality and order -/

mutual

/-- Whether two values are equal: numbers by value, whatever their type. -/
def equals : Value → Value → Bool
  | null, null => true
  | str s, str t => s == t
  | list us, list vs => equalsAll us vs
  | fn f, fn g => f == g
  | a, b =>
    match a.number?, b.number? with
    | some x, some y => x.equals y
    | _, _ => false

/-- Whether two lists have equal values throughout. -/
def equalsAll : List Value → List Value → Bool
  | [], [] => true
  | u :: us, v :: vs => equals u v && equalsAll us vs
  | _, _ => false

end

/-- The two strict orders. -/
inductive Comparison where
  | less | greater
  deriving DecidableEq, Repr

/-- How a comparison is written. -/
def Comparison.symbol : Comparison → String
  | less => "<"
  | greater => ">"

/-- The ordering that a comparison asks for. -/
def Comparison.ordering : Comparison → Ordering
  | less => .lt
  | greater => .gt

mutual

/-- Whether two values stand in a strict order; most types have none. -/
def compares (c : Comparison) : Value → Value → Except Trouble Bool
  | str s, str t => .ok (compare s t == c.ordering)
  | list us, list vs => comparesAll c us vs
  | a, b =>
    match a.realNumber?, b.realNumber? with
    | some x, some y => .ok (x.compare? y == some c.ordering)
    | _, _ => .error (.unordered c.symbol a.typeName b.typeName)

/-- Lists compare at the first place where they differ, or by length. -/
def comparesAll (c : Comparison) : List Value → List Value → Except Trouble Bool
  | u :: us, v :: vs => if equals u v then comparesAll c us vs else compares c u v
  | us, vs => .ok (compare us.length vs.length == c.ordering)

end

/-- The first value that no later one goes before. -/
def best (c : Comparison) (v : Value) : List Value → Except Trouble Value
  | [] => .ok v
  | w :: ws => do best c (if ← compares c w v then w else v) ws

/-- The values of a list, or the characters of a text. -/
def elements (v : Value) : Except Trouble (List Value) :=
  match v with
  | list vs => .ok vs
  | str s => .ok (s.toList.map fun c => str c.toString)
  | _ => .error (.notIterable v.typeName)

end LetCall.Value
