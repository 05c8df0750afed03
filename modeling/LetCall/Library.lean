import LetCall.Library.Clock
import LetCall.Library.Mathematics
import LetCall.Library.Output
import LetCall.Library.Text

/-!
# LetCall.Library

The built-in functions: how many arguments each takes, what it does, and which module
offers it under which name.

Main definitions: `Builtin.call` and `Module.exports`.
-/

namespace LetCall

/-! ## numbers of arguments -/

namespace Builtin

/-- The names of the parameters a module's own function cannot do without. -/
def required : Builtin → List String
  | add | sub | mul | div | mod | pow => ["a", "b"]
  | neg => ["x"]
  | len | upper | lower => ["value"]
  | substr => ["string", "start"]
  | sleep => ["seconds"]
  | _ => []

/-- The least number of arguments a function takes. -/
def least : Builtin → Nat
  | print | println => 0
  | b => if b.isNative then 1 else b.required.length

/-- The largest number of arguments a function takes, if there is one. -/
def most? : Builtin → Option Nat
  | print | println | min | max => none
  | substr => some 3
  | ln | round => some 2
  | b => some b.least

/-- Whether a function takes a given number of arguments. -/
def accepts (b : Builtin) (given : Nat) : Bool :=
  decide (b.least ≤ given) && b.most?.all (decide <| given ≤ ·)

/-- How a native function is named when it gets a wrong number of arguments. -/
def qualifiedName (b : Builtin) : String :=
  match b with
  | abs | min | max | round => b.ownName
  | b => "math." ++ b.ownName

/-- What a wrong number of arguments is reported as. -/
def arityError (b : Builtin) (given : Nat) : ArityError :=
  match b with
  | min | max => .none b.qualifiedName
  | ln => .notOneOrTwo b.qualifiedName
  | round => if given = 0 then .first b.qualifiedName "number" else .atMost b.qualifiedName 2 given
  | b =>
    if b.isNative then .notOne b.qualifiedName given
    else if given < b.least then .missing b.ownName (b.required.drop given)
    else .tooMany b.ownName b.least (b.most?.getD b.least) given

/-! ## calling -/

/-- What a function that leaves the world alone gives for arguments of the right number;
`none` for a wrong number, and for functions that do not leave it alone. -/
def pureCall? : Builtin → List Value → Option (Except Trouble Value)
  | add, [a, b] => some (a.add b)
  | sub, [a, b] => some (a.sub b)
  | mul, [a, b] => some (a.mul b)
  | div, [a, b] => some (Library.quotient a b)
  | mod, [a, b] => some (a.mod b)
  | pow, [a, b] => some (a.pow b)
  | neg, [x] => some x.neg
  | abs, [x] => some x.abs
  | min, v :: vs => some (Library.extreme "min" .less (v :: vs))
  | max, v :: vs => some (Library.extreme "max" .greater (v :: vs))
  | sqrt, [x] => some (Library.realFunction .mathDomain Float.sqrt x)
  | log, [x] => some (Library.log10 x)
  | ln, [x] => some (Library.ln x none)
  | ln, [x, base] => some (Library.ln x (some base))
  | exp, [x] => some (Library.realFunction .mathRange Float.exp x)
  | floor, [x] => some (Library.floor x)
  | ceil, [x] => some (Library.ceil x)
  | round, [x] => some (Library.round x none)
  | round, [x, places] => some (Library.round x (some places))
  | sin, [x] => some (Library.realFunction .mathDomain Float.sin x)
  | cos, [x] => some (Library.realFunction .mathDomain Float.cos x)
  | tan, [x] => some (Library.realFunction .mathDomain Float.tan x)
  | asin, [x] => some (Library.realFunction .mathDomain Float.asin x)
  | acos, [x] => some (Library.realFunction .mathDomain Float.acos x)
  | atan, [x] => some (Library.realFunction .mathDomain Float.atan x)
  | len, [v] => some (Library.length v)
  | substr, [v, start] => some (Library.substring v start none)
  | substr, [v, start, stop] => some (Library.substring v start (some stop))
  | upper, [v] => some (Library.upper v)
  | lower, [v] => some (Library.lower v)
  | _, _ => none

/-- What a function that uses the world does with arguments of the right number; `none`
for a wrong number, and for functions that do not use it. -/
def worldCall? : Builtin → List Value → Option (WorldM Trouble Value)
  | print, vs => some (Library.print "" vs)
  | println, vs => some (Library.print "\n" vs)
  | time, [] => some Library.timeText
  | timestamp, [] => some Library.timestampText
  | datetime, [] => some Library.datetimeText
  | date, [] => some Library.dateText
  | sleep, [v] => some (Library.sleep v)
  | resetTimer, [] => some Library.resetTimer
  | uptime, [] => some Library.uptime
  | _, _ => none

/-- Call a function. -/
def call (b : Builtin) (args : List Value) : WorldM Trouble Value :=
  match b.pureCall? args, b.worldCall? args with
  | some r, _ => ofExcept r
  | none, some act => act
  | none, none => throw (.arity (b.arityError args.length))

end Builtin

/-- Ask for the timer in whole milliseconds, which takes no arguments; no module offers
this function. -/
def callMilliseconds : List Value → WorldM Trouble Value
  | [] => Library.millisecondsText
  | args => throw (.arity (.tooMany "ocl_time_ms" 0 0 args.length))

/-! ## modules -/

/-- The modules that offer functions. -/
inductive Module where
  | math | string | time
  deriving DecidableEq, Repr

namespace Module

/-- The module of a given name. -/
def ofName? : String → Option Module
  | "math" => some math
  | "string" => some string
  | "time" => some time
  | _ => none

/-- The names a module offers and what stands behind them, in order. -/
def exports : Module → List (String × Value)
  | math =>
    let functions : List (String × Builtin) :=
      [("add", .add), ("sub", .sub), ("mul", .mul), ("div", .div), ("mod", .mod), ("pow", .pow),
        ("neg", .neg), ("abs", .abs), ("min", .min), ("max", .max), ("sqrt", .sqrt),
        ("log", .log), ("ln", .ln), ("exp", .exp), ("floor", .floor), ("ceil", .ceil),
        ("round", .round), ("sin", .sin), ("cos", .cos), ("tan", .tan), ("asin", .asin),
        ("acos", .acos), ("atan", .atan)]
    functions.map (fun (n, b) => (n, Value.fn (.builtin b))) ++
      [("pi", .float 3.141592653589793), ("e", .float 2.718281828459045)]
  | string =>
    let functions : List (String × Builtin) :=
      [("print", .print), ("println", .println), ("len", .len), ("substr", .substr),
        ("upper", .upper), ("lower", .lower)]
    functions.map fun (n, b) => (n, Value.fn (.builtin b))
  | time =>
    let functions : List (String × Builtin) :=
      [("time", .time), ("timestamp", .timestamp), ("datetime", .datetime), ("date", .date),
        ("sleep", .sleep), ("reset_timer", .resetTimer), ("uptime", .uptime)]
    functions.map fun (n, b) => (n, Value.fn (.builtin b))

/-- What happens when a module is brought in, apart from its names: that of time starts
the timer. -/
def start : Module → WorldM Trouble Unit
  | time => Library.inContext "Failed to register time module: " Library.startTimer
  | _ => pure ()

end Module

end LetCall
