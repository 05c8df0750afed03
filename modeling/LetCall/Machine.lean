import LetCall.Library
import LetCall.Machine.Bindings
import LetCall.Machine.Fault
import LetCall.Tree

/-!
# LetCall.Machine

The state of a running program: the built-in environment, the global variables, the
stack of frames with their local variables, and the world.  Steps are `Run`s: they give
a value or stop, and what they have changed stays changed in either case.

Main statements: entering and leaving a function is no change (`Machine.pop_push`), and
what is bound is found (`Machine.lookup?_bind_self`, `Machine.lookup?_bind_ne`).
-/

namespace LetCall

/-- A function being executed, with its local variables. -/
structure Frame where
  function : String
  locals : Bindings := []
  deriving Repr

/-- The state of a running program. -/
structure Machine where
  env : Bindings := []
  globals : Bindings := []
  /-- The frames, the innermost first. -/
  stack : List Frame := []
  maxDepth : Int := 1000
  world : World := {}

/-- Steps of a machine. -/
abbrev Run := EStateM Stop Machine

namespace Machine

/-- The value of a name: of the innermost frame, else a global one, else built in. -/
def lookup? (m : Machine) (name : String) : Option Value :=
  (m.stack.head?.bind (·.locals.get? name)).or ((m.globals.get? name).or (m.env.get? name))

/-- Bind a name in the innermost frame, or globally outside of all functions. -/
def bind (m : Machine) (name : String) (v : Value) : Machine :=
  match m.stack with
  | [] => { m with globals := m.globals.set name v }
  | f :: fs => { m with stack := { f with locals := f.locals.set name v } :: fs }

/-- Enter a function. -/
def push (m : Machine) (f : Frame) : Machine := { m with stack := f :: m.stack }

/-- Leave a function. -/
def pop (m : Machine) : Machine := { m with stack := m.stack.tail }

/-- `get_variables`: all variables in sight, the global ones with those of the innermost
frame. -/
def visible (m : Machine) : Bindings :=
  match m.stack with
  | [] => m.globals
  | f :: _ => m.globals.setAll f.locals

/-- `get_functions`: the names that can be called, built-in functions before those of the
program. -/
def callableNames (m : Machine) (p : Program) : List String :=
  Bindings.names (m.env.filter (·.2.isCallable)) ++ p.functions.map (·.name)

/-- `get_call_stack`: the names of the functions being executed, the outermost first. -/
def callStack (m : Machine) : List String := (m.stack.map (·.function)).reverse

/-- How many more functions can be entered. -/
def budget (m : Machine) : Nat := (m.maxDepth - m.stack.length).toNat

@[simp] theorem pop_push (m : Machine) (f : Frame) : (m.push f).pop = m := rfl

@[simp] theorem lookup?_bind_self (m : Machine) (name : String) (v : Value) :
    (m.bind name v).lookup? name = some v := by
  obtain ⟨env, globals, stack, maxDepth, world⟩ := m
  cases stack <;> simp [bind, lookup?]

theorem lookup?_bind_ne (m : Machine) {name other : String} (v : Value) (h : other ≠ name) :
    (m.bind name v).lookup? other = m.lookup? other := by
  obtain ⟨env, globals, stack, maxDepth, world⟩ := m
  cases stack <;> simp [bind, lookup?, Bindings.get?_set_ne _ _ h]

end Machine

namespace Run

/-- Stop for a cause. -/
def fail {α : Type} (cause : Fault.Cause) : Run α := throw (.fault ⟨[], cause⟩)

/-- Run a step; a fault in it passes a context. -/
def inContext {α : Type} (c : Context) (x : Run α) : Run α := fun m =>
  match x m with
  | .ok a m' => .ok a m'
  | .error (.fault f) m' => .error (.fault (f.inContext c)) m'
  | .error (.interrupted s) m' => .error (.interrupted s) m'

/-- A context changes nothing about a step that gives a value. -/
theorem inContext_of_ok {α : Type} (c : Context) {x : Run α} {m m' : Machine} {a : α}
    (h : x m = .ok a m') : inContext c x m = .ok a m' := by
  simp only [inContext, h]

/-- A fault passes the context and leaves the machine as it was at the fault. -/
theorem inContext_of_fault {α : Type} (c : Context) {x : Run α} {m m' : Machine} {f : Fault}
    (h : x m = .error (.fault f) m') : inContext c x m = .error (.fault (f.inContext c)) m' := by
  simp only [inContext, h]

/-- An interruption passes no context. -/
theorem inContext_of_interrupted {α : Type} (c : Context) {x : Run α} {m m' : Machine} {s : String}
    (h : x m = .error (.interrupted s) m') : inContext c x m = .error (.interrupted s) m' := by
  simp only [inContext, h]

/-- Run a step of the world; what troubles it is a fault of the machine. -/
def onWorld {α : Type} (x : WorldM Trouble α) : Run α := fun m =>
  match x m.world with
  | .ok a w => .ok a { m with world := w }
  | .error t w => .error (.fault ⟨[], .trouble t⟩) { m with world := w }

/-- Run a step inside a new frame, which is left whatever comes of it. -/
def inFrame {α : Type} (f : Frame) (x : Run α) : Run α := fun m =>
  match x (m.push f) with
  | .ok a m' => .ok a m'.pop
  | .error s m' => .error s m'.pop

/-- Write a line about the program to the output, whatever its device. -/
def putLine (s : String) : Run Unit := modify fun m => { m with world := m.world.writeLine s }

/-- `get_variable`: the value of a variable. -/
def getVariable (name : String) : Run Value := do
  match (← get).lookup? name with
  | some v => return v
  | none => fail (.undefinedVariable name)

/-- The value of a variable of the innermost frame, and of no other scope. -/
def getLocal (name : String) : Run Value := do
  match (← get).stack with
  | [] => fail .noCurrentFrame
  | f :: _ =>
    match f.locals.get? name with
    | some v => return v
    | none => fail (.undefinedVariable name)

/-- Leave the innermost frame and give the name of its function. -/
def popFrame : Run String := do
  match (← get).stack with
  | [] => fail .noFrame
  | f :: _ =>
    modify Machine.pop
    return f.function

/-- `set_variable`: bind a variable in the current scope. -/
def setVariable (name : String) (v : Value) : Run Unit := modify (·.bind name v)

end Run

end LetCall
