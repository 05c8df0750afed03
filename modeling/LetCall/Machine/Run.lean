import LetCall.Machine.Eval
import LetCall.Machine.Modules

/-!
# LetCall.Machine.Run

Running a program: bring its imports in, execute its global statements, then its `main`.
A run always ends with an exit value; faults are written to the output.
-/

namespace LetCall.Run

/-- One turn of the import loop of `run`: bring a module in; a failure leaves a warning. -/
def importModule (name : String) : Run Unit :=
  tryCatch (load name) fun
    | .fault f => putLine s!"Warning: Failed to load module '{name}': {f.message}"
    | s => throw s

/-- The import loop of `run`. -/
def imports : List String → Run Unit
  | [] => return
  | name :: names => do
    importModule name
    imports names

/-- One turn of the statement loop of `run`: a failure leaves a note and ends the run. -/
def globalStatement (p : Program) (n : Node) : Run Value :=
  tryCatch (statement p n) fun
    | .fault f => do
      putLine s!"Error executing global statement: {f.message}"
      throw (.fault f)
    | s => throw s

/-- The statement loop of `run`. -/
def globals (p : Program) : List Node → Run Unit
  | [] => return
  | n :: ns => do
    let _ ← globalStatement p n
    globals p ns

/-- Call the `main` of a program. -/
def callMain (p : Program) : Run Value :=
  match p.find? "main" with
  | none => fail .noMain
  | some f => callFunction p f []

/-- Run a program up to the value its `main` returns. -/
def result (p : Program) : Run Value := do
  if p.functions.isEmpty then fail .noFunctions
  match p.imports with
  | none => fail .importsMissing
  | some names => imports names
  globals p p.statements
  callMain p

/-- The exit value when a run is interrupted. -/
def interruptedExit : Int := 130

/-- The exit value of a run without faults: what `main` returns, or zero for nothing. -/
def exitValue (p : Program) : Run Value := do
  match ← result p with
  | .null => return .int 0
  | v => return v

/-- `run`: run a program to its exit value. -/
def program (p : Program) : Run Value :=
  tryCatch (exitValue p) fun
    | .interrupted _ => do
      putLine "\nProgram interrupted by user"
      return .int interruptedExit
    | .fault f => do
      let lead := if f.cause = .importsMissing then "Unexpected error: " else "Runtime error: "
      putLine (lead ++ f.message)
      return .int 1

end LetCall.Run
