import LetCall.Command.Arguments
import LetCall.Command.Files
import LetCall.Compile
import LetCall.Text.Utf8

/-!
# LetCall.Command

The command line: compile and run a file, or a built-in program when none is given.
-/

namespace LetCall.Command

/-- The answer to a request for help. -/
def helpText : String :=
  "usage: ocl [-h] [-d] [-v] [file]\n\nOCL Interpreter with Enhanced Error Handling\n\n" ++
    "positional arguments:\n  file           OCL file to execute\n\noptions:\n" ++
    "  -h, --help     show this help message and exit\n" ++
    "  -d, --debug    Enable debug output\n" ++
    "  -v, --version  show program's version number and exit\n"

/-- The answer to a request for the version. -/
def versionText : String := "OCL Interpreter v0.00.11\n"

/-- The program that is run when no file is given. -/
def defaultSource : String :=
  "\n@version \"v0.00.18\"\n\nimport string;\nimport time;\nimport math;\n\n" ++
    "void test_math() \x7b\n    println(\"Add:\", add(2, 3));\n" ++
    "    println(\"Sub:\", sub(10, 4));\n    println(\"Abs:\", abs(-7));\n" ++
    "    println(\"Sqrt:\", sqrt(25));\n    println(\"Sin(pi/2):\", sin(div(pi, 2)));\n\x7d\n\n" ++
    "int main() \x7b\n    test_math();\n\n    println(\"Welcome to OCL - v0.00.18\");\n" ++
    "    println(\"Hello, World!\");\n    println(\"Elapsed:\", time());\n" ++
    "    println(\"x =\", add(5, 5));  // Simulating let x = 5 + 5\n    return 0;\n\x7d\n"

/-- `compile_file`: compile and run what stands under a path. -/
def compileFile (o : Options) (entry : Entry) : Compiling Value := do
  let path := o.filename
  match entry with
  | .missing =>
    putLine s!"Error: File '{path}' not found"
    return .int 1
  | .directory =>
    putLine s!"Error: '{path}' is not a file"
    return .int 1
  | .nameTooLong shown =>
    putLine s!"Error reading file '{path}': [Errno 36] File name too long: {Text.quoted shown}"
    return .int 1
  | .file bytes =>
    match Text.readText bytes with
    | .error e =>
      putLine s!"Error: Cannot read file '{path}' - {e.message}"
      return .int 1
    | .ok code => Compile.compileAndRun o (some code)

/-- How a command ends. -/
inductive Outcome where
  | exit (v : Value)
  /-- The exit value has no text to be reported with. -/
  | unprintable
  deriving Repr

/-- The status a command leaves: an integer within a byte, zero for nothing, and one for
everything else. -/
def Outcome.status : Outcome → UInt8
  | exit .null => 0
  | exit v => (v.integer?.map fun n => UInt8.ofNat (n % 256).toNat).getD 1
  | unprintable => 1

/-- Run a compilation and report its exit value. -/
def reported (x : Compiling Value) : Compiling Outcome := do
  let v ← x
  match v.text? with
  | none => return .unprintable
  | some text =>
    putLine s!"\n[exit code: {text}]"
    return .exit v

/-- The path that a command line asks to be compiled. -/
def path? (argv : List String) : Option String :=
  match requestOf argv with
  | .run _ file => file.filter (· ≠ "")
  | _ => none

/-- `main`: follow a command line, `lookup` telling what stands under a path. -/
def run (lookup : String → Entry) (argv : List String) : Compiling Outcome := do
  match requestOf argv with
  | .help =>
    modify (·.write helpText)
    return .exit (.int 0)
  | .version =>
    modify (·.write versionText)
    return .exit (.int 0)
  | .usageError => return .exit (.int 2)
  | .run debug none | .run debug (some "") =>
    reported (Compile.compileAndRun { debug } (some defaultSource))
  | .run debug (some path) =>
    reported (compileFile { filename := path, debug } (lookup path))

end LetCall.Command
