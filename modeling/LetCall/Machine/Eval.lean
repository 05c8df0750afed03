import LetCall.Machine.Operators

/-!
# LetCall.Machine.Eval

Evaluating nodes and executing functions.  Evaluation follows the tree; where it meets a
call of a program's function it goes on with that function's body, and the number of
frames that may still be entered bounds how often: it is the first argument of
`execute`, which stops the run when none is left.
-/

namespace LetCall.Run

/-! ## calls of built-in functions -/

/-- Whether a text contains a word. -/
def mentions (word : String) (s : String) : Bool :=
  let rec go : List Char → Bool
    | [] => word.isEmpty
    | c :: cs => word.toList.isPrefixOf (c :: cs) || go cs
  go s.toList

/-- The context that a fault inside a call of a built-in passes: one of operands raised by
the function itself tells a wrong number of arguments from a wrong type. -/
def callContext (name : String) (f : Fault) : Context :=
  match f with
  | ⟨[], .trouble (.raisedType m)⟩ =>
    if mentions "arguments" m then .wrongArguments name else .wrongType name
  | _ => .builtinCall name

/-- Call what stands behind a name in the environment, as `evaluate_call` does. -/
def invoke (f : Callable) (args : List Value) : Run Value :=
  match f with
  | .builtin b => onWorld (b.call args)
  | .raising (.typeError m) => fail (.trouble (.raisedType m))
  | .raising (.runtimeError m) => fail (.trouble (.raisedRuntime m))
  | .raising (.valueError m) => fail (.trouble (.raisedValue m))
  | .raising (.interrupt m) => throw (.interrupted m)

/-- The branch of `evaluate_call` for built-in functions: evaluate arguments, then call. -/
def callBuiltin (name : String) (f : Callable) (args : Run (List Value)) : Run Value :=
  tryCatch (do invoke f (← args)) fun
    | .fault e => throw (.fault (e.inContext (callContext name e)))
    | s => throw s

/-! ## expressions -/

/-- How a function of the program is executed. -/
abbrev Executor := FunctionDef → List Value → Run Value

/-- The body of `evaluate_call`: call a function by name, a built-in one if the environment
has it, else one of the program. -/
def callNamed (p : Program) (execute : Executor) (name : String) (args : Run (List Value)) :
    Run Value := do
  if name = "" then fail .emptyCallName
  match (← get).env.get? name with
  | some (.fn f) => callBuiltin name f args
  | _ =>
    match p.find? name with
    | some f => inContext (.userCall name) do execute f (← args)
    | none => fail (.unknownFunction name)

/-- The body of `evaluate_binary_op`: evaluate two operands, the left one first, and apply an
operator to them. -/
def binary (op : String) (left right : Run Value) : Run Value :=
  inContext .binary do
    let a ← left
    let b ← right
    applyBinary op a b

/-- The body of `evaluate_unary_op`: evaluate an operand and apply an operator to it. -/
def unary (op : String) (operand : Run Value) : Run Value :=
  inContext .unary do applyUnary op (← operand)

mutual

/-- The body of `evaluate`: evaluate a node. -/
def evaluateWith (p : Program) (execute : Executor) : Node → Run Value
  | .absent => return .null
  | .str s => return .str s
  | .num v => return v
  | .var name => inContext .expression (getVariable name)
  | .call name args =>
    inContext .expression (callNamed p execute name (argumentsWith p execute name 1 args))
  | .bin op l r =>
    inContext .expression (binary op (evaluateWith p execute l) (evaluateWith p execute r))
  | .un op x => inContext .expression (unary op (evaluateWith p execute x))
  | .letIn name v => inContext .expression (fail (.cannotEvaluate (Node.letIn name v).label))
  | .ret v => inContext .expression (fail (.cannotEvaluate (Node.ret v).label))
  | .foreign f => inContext .expression (fail (.cannotEvaluate (Node.foreign f).label))

/-- The loop of `evaluate_call` over arguments, the first of them being number `i`. -/
def argumentsWith (p : Program) (execute : Executor) (name : String) :
    Nat → List Node → Run (List Value)
  | _, [] => return []
  | i, n :: ns => do
    let v ← inContext (.argument i name) (evaluateWith p execute n)
    return v :: (← argumentsWith p execute name (i + 1) ns)

end

/-! ## statements and functions -/

/-- The body of `execute_statement`: execute a statement. -/
def statementWith (p : Program) (execute : Executor) (n : Node) : Run Value :=
  inContext .statement do
    match n with
    | .call name args => evaluateWith p execute (.call name args)
    | .ret v => evaluateWith p execute v
    | .letIn name e =>
      let v ← evaluateWith p execute e
      setVariable name v
      return v
    | n => fail (.unknownStatement n.label)

/-- The loop of `execute_function`: execute the statements of a body up to its first return.
A body without one gives zero if its function is declared to return `int`, and nothing
otherwise. -/
def bodyWith (p : Program) (execute : Executor) (ret : String) : List Node → Run Value
  | [] => return if ret = "int" then .int 0 else .null
  | n :: ns => do
    let v ← statementWith p execute n
    if n.isReturn then return v
    bodyWith p execute ret ns

/-- The frame of a call, its parameters bound to the arguments in order. -/
def frameOf (f : FunctionDef) (args : List Value) : Frame :=
  { function := f.name, locals := Bindings.setAll [] (f.params.map (·.name) |>.zip args) }

/-- The body of `execute_function`: execute a function in a frame of its own, with `n` frames
left to be entered. -/
def execute (p : Program) : Nat → Executor
  | 0, _, _ => do fail (.depthExceeded (← get).maxDepth)
  | n + 1, f, args => do
    let m ← get
    if m.maxDepth ≤ m.stack.length then fail (.depthExceeded m.maxDepth)
    if args.length ≠ f.params.length then
      fail (.argumentCount f.name f.params.length args.length)
    inFrame (frameOf f args) <|
      inContext (.inFunction f.name) (bodyWith p (execute p n) f.ret f.body)

/-! ## from any state -/

/-- `execute_function`: execute a function. -/
def callFunction (p : Program) (f : FunctionDef) (args : List Value) : Run Value := do
  execute p (← get).budget f args

/-- `execute_function` of what `_find_function` finds, which has to be something. -/
def callNamedFunction (p : Program) (name : String) (args : List Value) : Run Value := do
  match p.find? name with
  | some f => callFunction p f args
  | none =>
    let m ← get
    if m.maxDepth ≤ m.stack.length then fail (.depthExceeded m.maxDepth)
    fail .notAFunction

/-- `evaluate`: evaluate a node. -/
def evaluate (p : Program) (n : Node) : Run Value := do
  evaluateWith p (execute p (← get).budget) n

/-- `evaluate_call`: evaluate a call. -/
def evaluateCall (p : Program) (name : String) (args : List Node) : Run Value := do
  let run := execute p (← get).budget
  callNamed p run name (argumentsWith p run name 1 args)

/-- `evaluate_binary_op`: evaluate an operation on two operands. -/
def evaluateBinary (p : Program) (op : String) (left right : Node) : Run Value := do
  let run := execute p (← get).budget
  binary op (evaluateWith p run left) (evaluateWith p run right)

/-- `evaluate_unary_op`: evaluate an operation on one operand. -/
def evaluateUnary (p : Program) (op : String) (operand : Node) : Run Value := do
  unary op (evaluateWith p (execute p (← get).budget) operand)

theorem evaluate_call (p : Program) (name : String) (args : List Node) :
    evaluate p (.call name args) = inContext .expression (evaluateCall p name args) := rfl

theorem evaluate_bin (p : Program) (op : String) (left right : Node) :
    evaluate p (.bin op left right) = inContext .expression (evaluateBinary p op left right) := rfl

theorem evaluate_un (p : Program) (op : String) (operand : Node) :
    evaluate p (.un op operand) = inContext .expression (evaluateUnary p op operand) := rfl

/-- `execute_statement`: execute a statement. -/
def statement (p : Program) (n : Node) : Run Value := do
  statementWith p (execute p (← get).budget) n

end LetCall.Run
