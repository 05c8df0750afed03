import LetCall.Numeric.Written
import LetCall.Text.Quoted

/-!
# LetCall.Value

Run-time values: nothing, truth values, integers without bound, floats, texts, lists,
complex numbers (which only powers of negative numbers produce) and functions.

Main definitions: `Value`, `Builtin` for the functions that modules offer, and
`Value.text?` and `Value.shown?`, the two ways to write a value, which fail only on an
integer with too many digits.
-/

namespace LetCall

/-! ## functions -/

/-- The functions that the modules offer. -/
inductive Builtin where
  | add | sub | mul | div | mod | pow | neg
  | abs | min | max | sqrt | log | ln | exp | floor | ceil | round
  | sin | cos | tan | asin | acos | atan
  | print | println | len | substr | upper | lower
  | time | timestamp | datetime | date | sleep | resetTimer | uptime
  deriving DecidableEq, Repr

namespace Builtin

/-- Functions that the host implements, as opposed to those of the modules themselves. -/
def isNative : Builtin → Bool
  | abs | min | max | sqrt | log | ln | exp | floor | ceil | round
  | sin | cos | tan | asin | acos | atan => true
  | _ => false

/-- The name a function calls itself in messages. -/
def ownName : Builtin → String
  | add | sub | mul | div | mod | pow | neg => "register.<locals>.<lambda>"
  | abs => "abs" | min => "min" | max => "max" | round => "round"
  | sqrt => "sqrt" | log => "log10" | ln => "log" | exp => "exp"
  | floor => "floor" | ceil => "ceil"
  | sin => "sin" | cos => "cos" | tan => "tan"
  | asin => "asin" | acos => "acos" | atan => "atan"
  | print => "safe_print" | println => "safe_println"
  | len => "ocl_len" | substr => "ocl_substr" | upper => "ocl_upper" | lower => "ocl_lower"
  | time => "ocl_time" | timestamp => "ocl_timestamp" | datetime => "ocl_datetime"
  | date => "ocl_date" | sleep => "ocl_sleep" | resetTimer => "reset_timer"
  | uptime => "get_uptime"

end Builtin

/-- How a function that always fails does so. -/
inductive Raise where
  /-- As an operation on operands of the wrong type. -/
  | typeError (message : String)
  /-- As a failing program. -/
  | runtimeError (message : String)
  /-- As an operation on an unsuitable value. -/
  | valueError (message : String)
  /-- As if the user had interrupted the program. -/
  | interrupt (message : String)
  deriving DecidableEq, Repr

/-- What can be called by name: a built-in, or a function that takes any arguments and
always fails. -/
inductive Callable where
  | builtin (b : Builtin)
  | raising (r : Raise)
  deriving DecidableEq, Repr

/-! ## values -/

/-- Run-time values. -/
inductive Value where
  | null
  | bool (b : Bool)
  | int (n : Int)
  | float (x : Float)
  | str (s : String)
  | list (vs : List Value)
  | complex (re im : Float)
  | fn (f : Callable)
  deriving Repr

namespace Value

/-- The name of a value's type in messages. -/
def typeName : Value → String
  | null => "NoneType"
  | bool _ => "bool"
  | int _ => "int"
  | float _ => "float"
  | str _ => "str"
  | list _ => "list"
  | complex .. => "complex"
  | fn (.builtin b) => if b.isNative then "builtin_function_or_method" else "function"
  | fn (.raising _) => "function"

/-- A function found under a name can be called; no other value can. -/
def isCallable : Value → Bool
  | fn _ => true
  | _ => false

/-! ## writing values -/

/-- How a function is written.  The address behind its name, which differs from run to run,
is left out, so no statement about a text of a function says anything about it. -/
def callableText : Callable → String
  | .builtin b =>
    if b.isNative then s!"<built-in function {b.ownName}>" else s!"<function {b.ownName}>"
  | .raising _ => "<function>"

mutual

/-- A value as it is shown inside a list: texts are quoted. -/
def shown? : Value → Option String
  | null => some "None"
  | bool b => some (if b then "True" else "False")
  | int n => Numeric.intText? n
  | float x => some (Numeric.floatText Numeric.plainStyle x)
  | str s => some (Text.quoted s)
  | list vs => (shownAll? vs).map fun ts => "[" ++ ", ".intercalate ts ++ "]"
  | complex re im => some (Numeric.complexText re im)
  | fn f => some (callableText f)

/-- All values of a list as they are shown inside it. -/
def shownAll? : List Value → Option (List String)
  | [] => some []
  | v :: vs => do
    let t ← shown? v
    return t :: (← shownAll? vs)

end

/-- A value as text: a text is itself, everything else is as shown. -/
def text? : Value → Option String
  | str s => some s
  | v => shown? v

/-- A value as it is printed: with the language's own words for nothing and truth. -/
def printed? : Value → Option String
  | null => some "null"
  | bool b => some (if b then "true" else "false")
  | v => text? v

/-- Bindings as they are shown: names and values between braces. -/
def shownBindings? (bs : List (String × Value)) : Option String := do
  let entries ← bs.mapM fun (name, v) => do return Text.quoted name ++ ": " ++ (← shown? v)
  return "\x7b" ++ ", ".intercalate entries ++ "\x7d"

/-- Names as they are shown: quoted, between brackets. -/
def shownNames (names : List String) : String :=
  "[" ++ ", ".intercalate (names.map Text.quoted) ++ "]"

end Value

end LetCall
