import LetCall.Value

/-!
# LetCall.Static

The declared side of the language: types, annotations, which types go together, what
operators give, and the signatures of built-in functions.  Running a program consults
none of it.
-/

namespace LetCall.Static

/-! ## types -/

/-- The types that can be declared. -/
inductive Ty where
  | int | float | bool | string | void | unknown
  deriving DecidableEq, Repr

namespace Ty

/-- The name of a type. -/
def name : Ty → String
  | int => "int"
  | float => "float"
  | bool => "bool"
  | string => "string"
  | void => "void"
  | unknown => "unknown"

/-- All types. -/
def all : List Ty := [int, float, bool, string, void, unknown]

/-- The type of a given name. -/
def ofName? (s : String) : Option Ty := all.find? (·.name = s)

/-- Every type is read back from its name. -/
theorem ofName?_name (t : Ty) : ofName? t.name = some t := by cases t <;> decide

/-- What is said of a value that names no type. -/
def refusal (v : Value) : String := v.shown?.getD "" ++ " is not a valid OCLType"

/-- Types of numbers. -/
def isNumeric (t : Ty) : Bool := t = int || t = float

/-- Types that go together in an operation: equal ones, and those of numbers. -/
def compatible (a b : Ty) : Bool := a = b || (a.isNumeric && b.isNumeric)

/-- Types that can be cast from one to the other: everything to a text or truth value,
numbers to each other, and a text to a number. -/
def canCast (a b : Ty) : Bool :=
  a.compatible b || b = string || b = bool || (a = string && b.isNumeric)

end Ty

/-- Operators of arithmetic. -/
def arithmeticOperators : List String := ["+", "-", "*", "/", "%", "**"]

/-- Operators that give a truth value. -/
def logicalOperators : List String := ["==", "!=", "<", "<=", ">", ">=", "&&", "||"]

/-- What a binary operator gives. -/
def binaryType (l : Ty) (op : String) (r : Ty) : Ty :=
  if arithmeticOperators.contains op then
    if l = .float || r = .float then .float
    else if l = .int && r = .int then .int
    else if l = .string && r = .string && op = "+" then .string
    else .unknown
  else if logicalOperators.contains op then .bool
  else .unknown

/-- What a unary operator gives. -/
def unaryType (op : String) (t : Ty) : Ty :=
  if op = "-" then (if t.isNumeric then t else .unknown)
  else if op = "!" then .bool
  else .unknown

/-- What a conversion function gives. -/
def conversionType : String → Ty
  | "to_string" => .string
  | "to_int" => .int
  | "to_float" => .float
  | "to_bool" => .bool
  | _ => .unknown

/-! ## annotations and expressions -/

/-- A type that something is declared with. -/
structure Annotation where
  type : Ty
  isConst : Bool := false
  deriving DecidableEq, Repr

/-- An annotation as it is written, or the word for none. -/
def annotationText : Option Annotation → String
  | some a => a.type.name
  | none => "None"

/-- Expressions, as far as their types go. -/
inductive Expr where
  | literal (type : Ty)
  | variable
  | call
  | cast (target : Option Annotation)
  | conversion (function : String)
  | binary (left : Expr) (op : String) (right : Expr)
  | unary (op : String) (operand : Expr)
  deriving Repr

namespace Expr

/-- The annotation an expression has by itself, if any: a literal that of its type, a
cast that of its target. -/
def own? : Expr → Option Annotation
  | literal t => some ⟨t, false⟩
  | cast target => target
  | _ => none

/-- The type of an expression: of its annotation, or unknown. -/
def type (e : Expr) : Ty := (e.own?.map (·.type)).getD .unknown

/-- What an operation gives; operands count with their own types. -/
def resultType? : Expr → Option Ty
  | binary l op r => some (binaryType l.type op r.type)
  | unary op x => some (unaryType op x.type)
  | conversion f => some (conversionType f)
  | _ => none

end Expr

/-! ## declarations -/

/-- A declared parameter. -/
structure Declared where
  name : String
  annotation : Option Annotation
  deriving DecidableEq, Repr

/-- A parameter as it is declared. -/
def Declared.text (d : Declared) : String := d.name ++ ": " ++ annotationText d.annotation

/-- A variable as it is declared. -/
def variableText (isConst : Bool) (d : Declared) : String :=
  (if isConst then "const " else "let ") ++ d.text

/-- A function as it is declared. -/
def functionText (name : String) (params : List Declared) (ret : Option Annotation) : String :=
  "fn " ++ name ++ "(" ++ ", ".intercalate (params.map Declared.text) ++ "): " ++ annotationText ret

/-! ## signatures of built-in functions -/

/-- The declared signature of a built-in function. -/
structure Signature where
  params : List Ty
  ret : Ty
  variadic : Bool := false
  special : Bool := false
  deriving DecidableEq, Repr

/-- The signature of a built-in function. -/
def signature? : String → Option Signature
  | "add" | "sub" | "mul" | "div" | "mod" | "pow" => some { params := [.int, .int], ret := .int }
  | "abs" => some { params := [.int], ret := .int }
  | "sqrt" | "sin" | "cos" | "tan" | "log" | "ln" | "exp" =>
    some { params := [.float], ret := .float }
  | "floor" | "ceil" | "round" => some { params := [.float], ret := .int }
  | "min" | "max" => some { params := [.float, .float], ret := .float }
  | "print" | "println" => some { params := [], ret := .void, variadic := true }
  | "len" => some { params := [.string], ret := .int }
  | "substr" => some { params := [.string, .int, .int], ret := .string }
  | "upper" | "lower" => some { params := [.string], ret := .string }
  | "time" | "timestamp" | "datetime" | "date" => some { params := [], ret := .string }
  | "sleep" => some { params := [.float], ret := .void }
  | "to_string" => some { params := [], ret := .string, variadic := true }
  | "to_int" => some { params := [.string], ret := .int }
  | "to_float" => some { params := [.string], ret := .float }
  | "to_bool" => some { params := [], ret := .bool, variadic := true }
  | "cast" => some { params := [], ret := .unknown, special := true }
  | _ => none

/-- The type of a built-in constant. -/
def constant? : String → Option Annotation
  | "pi" | "e" => some ⟨.float, true⟩
  | "true" | "false" => some ⟨.bool, true⟩
  | _ => none

end LetCall.Static
