import LetCall.Numeric.Reading
import LetCall.Parser.Reader
import LetCall.Tree

/-!
# LetCall.Parser.Expression

Reading expressions: operands joined by plus and minus, the earlier ones first; an
operand is a text, a number, a variable, a call, an expression in parentheses, or an
operand with a minus before it.

An expression has no more parts than there are items left, which bounds the recursion:
the first argument of `operand`, `sumTail` and `listTail` is that number of items, and
where it is zero there is nothing left to read.
-/

namespace LetCall.Reader

/-- A quoted text without the quotes around it. -/
def stripQuotes (s : String) : String :=
  String.ofList ((s.toList.dropWhile (· == '"')).reverse.dropWhile (· == '"')).reverse

/-- Move past an operator and give its text. -/
def operator : Reader String := do part (← take).text

/-- The loop of `parse_addition`: go on with a sum whose first part has been read. -/
def sumTail (operand : Reader Node) : Nat → Node → Reader Node
  | 0, left => return left
  | n + 1, left => do
    if ← looksAt [.plus, .minus] then
      let op ← operator
      let right ← operand
      sumTail operand n (.bin op left right)
    else return left

/-- `parse_addition`: operands joined by plus and minus. -/
def sum (operand : Reader Node) (n : Nat) : Reader Node := do
  sumTail operand n (← operand)

/-- Go on with a list whose parts are separated by commas. -/
def listTail {α : Type} (element : Reader α) : Nat → Reader (List α)
  | 0 => return []
  | n + 1 => do
    if ← looksAt [.comma] then
      let _ ← advance
      let a ← element
      return a :: (← listTail element n)
    else return []

/-- A list in parentheses, the opening one already read. -/
def listToParen {α : Type} (element : Reader α) (n : Nat) : Reader (List α) := do
  let as ←
    if ← looksAt [.rparen] then pure []
    else do
      let a ← element
      pure (a :: (← listTail element n))
  let _ ← expect .rparen
  return as

/-- The body of `parse_call_expression`: a name and arguments in parentheses. -/
def callWith (expression : Reader Node) (n : Nat) : Reader Node :=
  within .callExpression do
    let i ← take
    let name ← part i.text
    if name = "" then failAt .emptyFunctionName i
    let _ ← expect .lparen
    return .call name (← listToParen expression n)

/-- What the text of a number stands for; the item `i` is at fault if it can not be read. -/
def numeral (text : String) (i : Item) : Reader Node :=
  match Numeric.readInt? text with
  | some v => return .num (.int v)
  | none => failAt (.invalidNumber text) i

/-- The body of `parse_primary`: an operand without a sign, given how to read the expressions
inside it. -/
def primaryWith (expression : Reader Node) (n : Nat) : Reader Node := do
  let c ← get
  match c.current? with
  | none => fail .expressionAtEnd
  | some i =>
    let kind ← part i.kind
    let text ← part i.text
    match kind with
    | .string =>
      let _ ← advance
      return .str (stripQuotes text)
    | .number =>
      let _ ← advance
      numeral text i
    | .ident =>
      let isCall ←
        match c.next? with
        | none => pure false
        | some j => do pure ((← part j.kind) == .lparen)
      if isCall then callWith expression n
      else
        let _ ← advance
        return .var text
    | .lparen =>
      let _ ← advance
      let e ← expression
      let _ ← expect .rparen
      return e
    | k => failAt (.unexpectedInExpression k text) i

/-- The body of `parse_unary`: an operand, of at most `n` items. -/
def operand : Nat → Reader Node
  | 0 => fail .expressionAtEnd
  | n + 1 => do
    if ← looksAt [.minus] then
      let op ← operator
      return .un op (← operand n)
    else primaryWith (sum (operand n) n) n

/-- `parse_expression`. -/
def expression : Reader Node := fromCursor fun c => sum (operand c.rest.length) c.rest.length

/-- `parse_unary`. -/
def unary : Reader Node := fromCursor fun c => operand c.rest.length

/-- `parse_primary`. -/
def primary : Reader Node := fromCursor fun c => primaryWith expression c.rest.length

/-- `parse_call_expression`. -/
def call : Reader Node := fromCursor fun c => callWith expression c.rest.length

end LetCall.Reader
