import LetCall.Numeric.Written
import LetCall.Trouble

/-!
# LetCall.Machine.Fault

Why a running program fails.  A fault is one cause and the contexts it has passed on its
way out, the outermost first; its message is all of them in words.
-/

namespace LetCall

/-! ## operators -/

/-- Operators on two values. -/
inductive BinaryOp where
  | add | sub | mul | div | mod
  deriving DecidableEq, Repr

/-- The operator that a symbol stands for. -/
def BinaryOp.ofSymbol? : String → Option BinaryOp
  | "+" => some add
  | "-" => some sub
  | "*" => some mul
  | "/" => some div
  | "%" => some mod
  | _ => none

/-- Operators on one value. -/
inductive UnaryOp where
  | neg | plus
  deriving DecidableEq, Repr

/-- The operator that a symbol stands for. -/
def UnaryOp.ofSymbol? : String → Option UnaryOp
  | "-" => some neg
  | "+" => some plus
  | _ => none

/-! ## faults -/

/-- Why a module cannot be brought in. -/
inductive ModuleError where
  | emptyName
  | invalidName (name : String)
  | notFound (name : String)
  | nothingOffered (name : String)
  | refused (name message : String)
  deriving DecidableEq, Repr

/-- The one thing that went wrong. -/
inductive Fault.Cause where
  | undefinedVariable (name : String)
  | unknownFunction (name : String)
  | emptyCallName
  | depthExceeded (limit : Int)
  | argumentCount (function : String) (want got : Nat)
  | divisionByZero
  | moduloByZero
  | binaryOperands (op : BinaryOp) (left right : String)
  | unaryOperand (op : UnaryOp) (operand : String)
  | unknownBinary (op : String)
  | unknownUnary (op : String)
  | cannotEvaluate (label : String)
  | unknownStatement (label : String)
  | module (e : ModuleError)
  | noFunctions
  | noMain
  | importsMissing
  | noFrame
  | noCurrentFrame
  | notAFunction
  | notAProgram
  | trouble (t : Trouble)
  deriving DecidableEq, Repr

/-- What a program was doing when something went wrong inside it. -/
inductive Context where
  | inFunction (name : String)
  | statement
  | expression
  | argument (index : Nat) (function : String)
  | builtinCall (function : String)
  | wrongArguments (function : String)
  | wrongType (function : String)
  | userCall (function : String)
  | binary
  | unary
  deriving DecidableEq, Repr

/-- A cause and the contexts it has passed, the outermost first. -/
structure Fault where
  contexts : List Context
  cause : Fault.Cause
  deriving DecidableEq, Repr

/-! ## words -/

/-- A module error in words. -/
def ModuleError.message : ModuleError → String
  | emptyName => "Module name cannot be empty"
  | invalidName n => s!"Invalid module name: {n}"
  | notFound n => s!"Module '{n}' not found: No module named '{n}'"
  | nothingOffered n => s!"Module '{n}' does not have a register() function"
  | refused n m => s!"Error registering module '{n}': {m}"

/-- A binary operator on operands it does not take, in words. -/
def BinaryOp.refusal (op : BinaryOp) (l r : String) : String :=
  match op with
  | add => s!"Cannot add {l} and {r}"
  | sub => s!"Cannot subtract {r} from {l}"
  | mul => s!"Cannot multiply {l} and {r}"
  | div => s!"Cannot divide {l} by {r}"
  | mod => s!"Cannot get modulo of {l} and {r}"

/-- A unary operator on an operand it does not take, in words. -/
def UnaryOp.refusal (op : UnaryOp) (t : String) : String :=
  match op with
  | neg => s!"Cannot negate {t}"
  | plus => s!"Cannot apply unary plus to {t}"

namespace Fault

/-- A cause in words. -/
def Cause.message : Cause → String
  | undefinedVariable n => s!"Undefined variable: {n}"
  | unknownFunction n => s!"Unknown function: {n}"
  | emptyCallName => "Function name cannot be empty"
  | depthExceeded limit => s!"Maximum call depth exceeded ({Numeric.intDigits limit})"
  | argumentCount f want got => s!"Function '{f}' expects {want} arguments, got {got}"
  | divisionByZero => "Division by zero"
  | moduloByZero => "Modulo by zero"
  | binaryOperands op l r => op.refusal l r
  | unaryOperand op t => op.refusal t
  | unknownBinary op => s!"Unknown binary operator: {op}"
  | unknownUnary op => s!"Unknown unary operator: {op}"
  | cannotEvaluate l => s!"Cannot evaluate node type: {l}"
  | unknownStatement l => s!"Unknown statement type: {l}"
  | module e => e.message
  | noFunctions => "No functions defined in program"
  | noMain => "No `main` function found"
  | importsMissing => "'NoneType' object is not iterable"
  | noFrame => "pop from empty list"
  | noCurrentFrame => "list index out of range"
  | notAFunction => "'NoneType' object has no attribute 'parameters'"
  | notAProgram => "Expected Program object"
  | trouble t => t.message

/-- A context in words, which lead to what comes after it. -/
def contextText : Context → String
  | .inFunction n => s!"Error in function '{n}': "
  | .statement => "Error executing statement: "
  | .expression => "Error evaluating expression: "
  | .argument i f => s!"Error evaluating argument {i} of function '{f}': "
  | .builtinCall f => s!"Error calling function '{f}': "
  | .wrongArguments f => s!"Wrong number of arguments for function '{f}': "
  | .wrongType f => s!"Type error in function '{f}': "
  | .userCall f => s!"Error calling user function '{f}': "
  | .binary => "Error evaluating binary operation: "
  | .unary => "Error evaluating unary operation: "

/-- The whole message: the contexts, the outermost first, and the cause. -/
def message (f : Fault) : String :=
  f.contexts.foldr (fun c rest => contextText c ++ rest) f.cause.message

/-- A fault that has passed one more context. -/
def inContext (f : Fault) (c : Context) : Fault := { f with contexts := c :: f.contexts }

@[simp] theorem message_inContext (f : Fault) (c : Context) :
    (f.inContext c).message = contextText c ++ f.message := rfl

end Fault

/-- How a run stops without a result. -/
inductive Stop where
  | fault (f : Fault)
  /-- The user asked for an end; no context holds this up. -/
  | interrupted (message : String)
  deriving DecidableEq, Repr

end LetCall
