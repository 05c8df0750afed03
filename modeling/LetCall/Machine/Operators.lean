import LetCall.Machine

/-!
# LetCall.Machine.Operators

The operators of expressions.  They are stricter than the operations of values: plus
joins texts with anything and adds real numbers, and all others take real numbers only.
-/

namespace LetCall.Run

/-- Give a result or stop for what troubles an operation. -/
def ofTrouble {α : Type} : Except Trouble α → Run α
  | .ok a => pure a
  | .error t => fail (.trouble t)

/-- A value as text. -/
def textOf (v : Value) : Run String :=
  match v.text? with
  | some s => pure s
  | none => fail (.trouble .tooManyDigits)

/-- Apply an operator to two real numbers; division by zero is a fault of its own. -/
def arithmetic (op : BinaryOp) (x y : Number) : Run Value := do
  match op with
  | .add => return (← ofTrouble (x.add y)).value
  | .sub => return (← ofTrouble (x.sub y)).value
  | .mul => return (← ofTrouble (x.mul y)).value
  | .div =>
    if y.equals (.int 0) then fail .divisionByZero
    return (← ofTrouble (x.div y)).value
  | .mod =>
    if y.equals (.int 0) then fail .moduloByZero
    return (← ofTrouble (x.mod y)).value

/-- Whether a value is a text. -/
def isText : Value → Bool
  | .str _ => true
  | _ => false

/-- Apply a binary operator, as `evaluate_binary_op` does to its operands. -/
def applyBinary (symbol : String) (a b : Value) : Run Value := do
  match BinaryOp.ofSymbol? symbol with
  | none => fail (.unknownBinary symbol)
  | some op =>
    if op = .add ∧ (isText a ∨ isText b) then
      let s ← textOf a
      let t ← textOf b
      return .str (s ++ t)
    match a.realNumber?, b.realNumber? with
    | some x, some y => arithmetic op x y
    | _, _ => fail (.binaryOperands op a.typeName b.typeName)

/-- Apply a unary operator. -/
def applyUnary (symbol : String) (a : Value) : Run Value :=
  match UnaryOp.ofSymbol? symbol with
  | none => fail (.unknownUnary symbol)
  | some op =>
    match op, a.realNumber? with
    | .neg, some x => return x.neg.value
    | .plus, some x => return x.value
    | op, none => fail (.unaryOperand op a.typeName)

end LetCall.Run
