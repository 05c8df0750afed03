import LetCall.Value.Operations

/-!
# LetCall.Library.Mathematics

Real functions and rounding.  A result that is not a number, or infinite, for an
argument that was neither is a domain or range failure.
-/

namespace LetCall.Library

open Numeric

/-- A value as a float. -/
def real (v : Value) : Except Trouble Float :=
  match v.realNumber? with
  | some (.int n) => Number.floatOfInt n
  | some (.float x) => .ok x
  | _ => .error (.notReal v.typeName)

/-- Apply a real function; `overflow` is what an infinite result means. -/
def checked (overflow : Trouble) (f : Float → Float) (x : Float) : Except Trouble Float :=
  let r := f x
  if r.isNaN && !x.isNaN then .error .mathDomain
  else if r.isInf && x.isFinite then .error overflow
  else .ok r

/-- A real function of one value. -/
def realFunction (overflow : Trouble) (f : Float → Float) (v : Value) : Except Trouble Value := do
  return .float (← checked overflow f (← real v))

/-! ## logarithms -/

/-- An integer as a fraction of at least a half and a power of two. -/
def splitExponent (n : Nat) : Float × Nat :=
  let bits := n.log2 + 1
  let x := (nearest false n (twoPow bits)).getD 0.5
  if x == 1.0 then (0.5, bits + 1) else (x, bits)

/-- A logarithm; an integer too large for a float is split into a fraction and a power
of two first. -/
def logarithm (f : Float → Float) (v : Value) : Except Trouble Float :=
  match v.integer? with
  | some n =>
    if n ≤ 0 then .error .mathDomain
    else
      match ofInt? n with
      | some x => .ok (f x)
      | none =>
        let (x, e) := splitExponent n.natAbs
        .ok (f x + f 2.0 * e.toFloat)
  | none => do
    let x ← real v
    if x == 0.0 then throw .mathDomain
    checked .mathDomain f x

/-- The logarithm to base ten. -/
def log10 (v : Value) : Except Trouble Value := do
  return .float (← logarithm Float.log10 v)

/-- The natural logarithm, or that to a given base. -/
def ln (v : Value) (base : Option Value) : Except Trouble Value := do
  let x ← logarithm Float.log v
  match base with
  | none => return .float x
  | some b =>
    let y ← logarithm Float.log b
    if y == 0.0 then throw (.zeroDivision .floatQuotient)
    return .float (x / y)

/-! ## rounding -/

/-- The fraction of a float, which has to be finite. -/
def fraction (x : Float) : Except Trouble (Int × Nat) :=
  match quotient? x with
  | some q => .ok q
  | none => .error (if x.isNaN then .nanToInteger else .infinityToInteger)

/-- Round to an integer by `f`, which gets numerator and denominator. -/
def toInteger (f : Int → Nat → Int) (v : Value) : Except Trouble Value :=
  match v.realNumber? with
  | some (.int n) => .ok (.int n)
  | some (.float x) => do
    let (n, d) ← fraction x
    return .int (f n d)
  | _ => .error (.notReal v.typeName)

/-- The largest integer that is not above. -/
def floor : Value → Except Trouble Value := toInteger fun n d => n.fdiv d

/-- The smallest integer that is not below. -/
def ceil : Value → Except Trouble Value := toInteger fun n d => -((-n).fdiv d)

/-- Round an integer to a power of ten, a tie to the even multiple. -/
def roundIntTo (n : Int) (places : Int) : Int :=
  if 0 ≤ places then n
  else if (digitCount n.natAbs : Int) < -places then 0
  else roundInt n (tenPow (-places).toNat) * tenPow (-places).toNat

/-- Round a float to some decimal places: the nearest decimal, a tie to the even one,
then the nearest float to that. -/
def roundFloatTo (x : Float) (places : Int) : Except Trouble Float :=
  match parts x with
  | .nan | .infinite _ => .ok x
  | .finite negative m e =>
    if 323 < places then .ok x
    else if places < -308 then .ok (if negative then -0.0 else 0.0)
    else
      let (n, d) := scale m e
      let rounded :=
        if 0 ≤ places then
          let unit := tenPow places.toNat
          nearest negative (roundDiv (n * unit) d) unit
        else
          let unit := tenPow (-places).toNat
          nearest negative (roundDiv n (d * unit) * unit) 1
      match rounded with
      | some y => .ok y
      | none => .error .roundedTooLarge

/-- Round to an integer, a tie to the even one, or to some decimal places. -/
def round (v : Value) (places : Option Value) : Except Trouble Value := do
  let some x := v.realNumber? | throw (.notRoundable v.typeName)
  let places ←
    match places with
    | none | some .null => pure none
    | some p =>
      match p.integer? with
      | some n => pure (some n)
      | none => throw (.notInteger p.typeName)
  match x, places with
  | .int n, none => return .int n
  | .int n, some p => return .int (roundIntTo n p)
  | .float x, none =>
    let (n, d) ← fraction x
    return .int (roundInt n d)
  | .float x, some p => return .float (← roundFloatTo x p)
  | .complex _, _ => throw (.notRoundable v.typeName)

/-! ## extremes -/

/-- The least or greatest of some values, or of the elements of a single one. -/
def extreme (name : String) (c : Value.Comparison) (vs : List Value) : Except Trouble Value := do
  let candidates ←
    match vs with
    | [v] => v.elements
    | vs => pure vs
  match candidates with
  | [] => throw (.emptySequence name)
  | v :: vs => Value.best c v vs

/-- The quotient of two values; division by anything that equals zero gives zero. -/
def quotient (a b : Value) : Except Trouble Value :=
  if b.equals (.int 0) then .ok (.int 0) else a.div b

end LetCall.Library
