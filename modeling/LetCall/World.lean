import LetCall.Machine.Bindings
import LetCall.Value.Number

/-!
# LetCall.World

What a program shares with its surroundings: the output it has written, the clock, the
moment its timer was started, and the modules that stand around it.
-/

namespace LetCall

/-- What the output accepts of the texts that a program prints.  The lines that the machine
and the phases write about a program (`putLine`) are taken by each of them. -/
inductive Device where
  /-- Every text. -/
  | anyText
  /-- Characters below 128 only. -/
  | ascii
  /-- Nothing: every write fails. -/
  | broken
  deriving DecidableEq, Repr

/-- What is found under the name of a module that is not one of the language's own.  Finding it
is taken to write nothing; what it does is done by its `register`. -/
inductive Found where
  /-- No module. -/
  | nothing
  /-- A module without a `register`. -/
  | noRegister
  /-- A module with a `register`: the environment it leaves, and what it says if it raises. -/
  | withRegister (register : Bindings → Bindings × Option String)

/-- The modules that stand around a program, by their names. -/
abbrev Modules := String → Found

/-- Modules without a `register` that are at hand wherever programs are run. -/
def commonModules : List String :=
  ["os", "sys", "json", "lexer", "parser", "main", "interpreter", "runtime", "ocl_ast", "re",
    "typing", "dataclasses", "enum", "importlib", "pathlib", "traceback", "datetime", "argparse"]

/-- The modules of a plain installation. -/
def Modules.plain : Modules := fun name =>
  if name = "atexit" then .withRegister fun env => (env, some "the first argument must be callable")
  else if commonModules.contains name then .noRegister
  else .nothing

/-- The surroundings of a running program. -/
structure World where
  output : String := ""
  device : Device := .anyText
  /-- Seconds since the start of 1970. -/
  now : Number := .float 1000.0
  /-- A clock that fails whenever it is asked. -/
  clockBroken : Bool := false
  /-- When the timer was started, if it was. -/
  timer : Option Number := none
  modules : Modules := .plain

/-- Steps that change the world and may fail; what they have changed stays changed. -/
abbrev WorldM (ε : Type) := EStateM ε World

namespace World

/-- Append a text to the output. -/
def write (w : World) (s : String) : World := { w with output := w.output ++ s }

/-- Append a line to the output. -/
def writeLine (w : World) (s : String) : World := w.write (s ++ "\n")

@[simp] theorem output_write (w : World) (s : String) : (w.write s).output = w.output ++ s := rfl

end World

/-- Append a line about a program to the output, whatever its device. -/
def putLine {ε : Type} (s : String) : WorldM ε Unit := modify (·.writeLine s)

/-- The time on the clock. -/
def readClock : WorldM Trouble Number := do
  let w ← get
  if w.clockBroken then throw .clockFailure
  return w.now

end LetCall
