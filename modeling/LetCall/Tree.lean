import LetCall.Value

/-!
# LetCall.Tree

Programs as trees.  Expressions and statements share one type of node, because a
machine may be handed any node in either place and has to say which it cannot use;
nodes of larger dialects are kept only by their form.
-/

namespace LetCall

/-- Forms of node that a machine knows of and does not run. -/
inductive Form where
  | intLiteral | floatLiteral | boolLiteral | functionCall | castExpression | typeConversion
  | expressionStatement | variableAssignment | returnStatement
  | ifStatement | whileStatement | forStatement | blockStatement
  deriving DecidableEq, Repr

/-- Expressions and statements. -/
inductive Node where
  /-- No node at all, such as the value of a bare return. -/
  | absent
  | str (s : String)
  | num (v : Value)
  | var (name : String)
  | call (name : String) (args : List Node)
  | bin (op : String) (left right : Node)
  | un (op : String) (operand : Node)
  | letIn (name : String) (value : Node)
  | ret (value : Node)
  | foreign (form : Form)
  deriving Repr

namespace Form

/-- The name of a form in messages. -/
def name : Form → String
  | intLiteral => "IntLiteral" | floatLiteral => "FloatLiteral" | boolLiteral => "BoolLiteral"
  | functionCall => "FunctionCall" | castExpression => "CastExpression"
  | typeConversion => "TypeConversion" | expressionStatement => "ExpressionStatement"
  | variableAssignment => "VariableAssignment" | returnStatement => "ReturnStatement"
  | ifStatement => "IfStatement" | whileStatement => "WhileStatement"
  | forStatement => "ForStatement" | blockStatement => "BlockStatement"

end Form

namespace Node

/-- What a node is called when it stands where it cannot be used. -/
def label : Node → String
  | absent => "<class 'NoneType'>"
  | str _ => "<class 'microbench._ShimStringLiteral'>"
  | num _ => "<class 'microbench._NumberLiteral'>"
  | var _ => "<class 'ocl_ast.Variable'>"
  | call .. => "<class 'microbench._Call'>"
  | bin .. => "<class 'ocl_ast.BinaryOp'>"
  | un .. => "<class 'ocl_ast.UnaryOp'>"
  | letIn .. => "<class 'microbench._LetStatement'>"
  | ret _ => "<class 'microbench._Return'>"
  | foreign f => s!"<class 'ocl_ast.{f.name}'>"

/-- Whether a node ends the run of a function body. -/
def isReturn : Node → Bool
  | ret _ => true
  | _ => false

end Node

/-- A parameter of a function: a type, which nothing checks, and a name. -/
structure Param where
  type : String
  name : String
  deriving DecidableEq, Repr

/-- A function of a program.  The return type is kept as the word it was declared with. -/
structure FunctionDef where
  name : String
  params : List Param
  ret : String
  body : List Node
  deriving Repr

/-- A program.  Its imports may be missing altogether, which is not the same as none. -/
structure Program where
  version : Option String := none
  imports : Option (List String) := some []
  functions : List FunctionDef := []
  statements : List Node := []
  deriving Repr

/-- The first function of a given name; no function answers to the empty name. -/
def Program.find? (p : Program) (name : String) : Option FunctionDef :=
  if name = "" then none else p.functions.find? (·.name = name)

theorem Program.mem_of_find? {p : Program} {name : String} {f : FunctionDef}
    (h : p.find? name = some f) : f ∈ p.functions := by
  unfold find? at h
  split at h
  · cases h
  · exact List.mem_of_find?_eq_some h

end LetCall
