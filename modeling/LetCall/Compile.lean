import LetCall.Machine.Run
import LetCall.Parser
import LetCall.Token.Lexer

/-!
# LetCall.Compile

From source to exit value in three phases: tokens, program, run.  Each phase writes to
the output what goes wrong and, on request, what it has done.
-/

namespace LetCall

/-- What the phases are told: a name for the source, whether to say what they do, and how
many reports the parser may make before it is given up. -/
structure Options where
  filename : String := "<string>"
  debug : Bool := false
  limit : Nat := reportLimit
  deriving DecidableEq, Repr

/-- What is left of a parser that was given up. -/
structure Abandoned where
  messages : List String
  pos : Nat
  deriving DecidableEq, Repr

/-- Steps of the compiler. -/
abbrev Compiling := WorldM Abandoned

namespace Compile

/-- Write a line when asked to say what is done. -/
def debugLine (o : Options) (s : String) : Compiling Unit := do
  if o.debug then putLine s

/-! ## tokens -/

/-- A token with all its parts. -/
def tokenText (t : Token) : String :=
  "(" ++ Text.quoted t.kind.name ++ ", " ++ Text.quoted t.text ++ s!", {t.line}, {t.column})"

/-- How many tokens are shown. -/
def shownTokens : Nat := 10

/-- Write the first tokens and how many there are. -/
def showTokens (tokens : List Token) : Compiling Unit := do
  putLine s!"Successfully tokenized {tokens.length} tokens"
  (tokens.take shownTokens).zipIdx.forM fun (t, i) => putLine s!"  {i}: {tokenText t}"
  if shownTokens < tokens.length then
    putLine s!"  ... and {tokens.length - shownTokens} more tokens"

/-- `tokenize_phase`: cut a source into tokens; what cannot be cut is reported and passed
over.  A source that is no text has no tokens. -/
def tokenizePhase (o : Options) (code : Option String) : Compiling (Option (List Token)) := do
  debugLine o "=== Tokenization Phase ==="
  match code with
  | none =>
    putLine s!"Unexpected tokenization error in {o.filename}: Code must be a string"
    return none
  | some code =>
    match tokenize code with
    | .ok tokens =>
      if o.debug then showTokens tokens
      return some tokens
    | .error e =>
      putLine s!"Lexer error in {o.filename}: {e.message}"
      putLine "Attempting error recovery..."
      let (tokens, errors) := recover code
      if tokens.isEmpty then
        putLine "Recovery failed"
        return none
      putLine s!"Recovery successful: {tokens.length} tokens extracted"
      errors.forM fun e => putLine s!"  Recovery error: {e.message}"
      return some tokens

/-! ## programs -/

/-- Write what a program consists of. -/
def showProgram (p : Program) : Compiling Unit := do
  putLine "Successfully parsed program:"
  let version := p.version.getD "None"
  putLine s!"  Version: {version}"
  let imports := (p.imports.getD []).length
  putLine s!"  Imports: {imports}"
  putLine s!"  Functions: {p.functions.length}"
  putLine s!"  Statements: {p.statements.length}"

/-- `parse_phase`: read tokens as a program; errors are reported, and what can be read is
kept.  A parser that has made `o.limit` reports is given up. -/
def parsePhase (o : Options) (items : List Item) : Compiling (Option Program) := do
  debugLine o "=== Parsing Phase ==="
  match Parsing.parse o.limit (.ofItems items) with
  | .error _ p => throw ⟨p.messages, p.cursor.pos⟩
  | .ok program p =>
    if !p.reports.isEmpty then
      putLine s!"Parse errors in {o.filename}:"
      p.messages.forM fun m => putLine ("  " ++ m)
      if program.isNone then
        putLine "Parsing failed completely"
        return none
      putLine "Parsing completed with errors, attempting to continue..."
    if o.debug then program.forM showProgram
    return program

/-! ## runs -/

/-- What `interpret_phase` writes about the end of a run; a value that has no text is
trouble. -/
def showOutcome (exit : Value) (m : Machine) : WorldM Trouble Unit := do
  let some text := exit.text? | throw .tooManyDigits
  putLine s!"Program completed with exit code: {text}"
  let bound := m.visible
  if !bound.isEmpty then
    modify (·.write "Final variables: ")
    let some shown := Value.shownBindings? bound | throw .tooManyDigits
    putLine shown

/-- `interpret_phase`: run a program to its exit value. -/
def interpretPhase (o : Options) (program : Option Program) : Compiling Value := do
  debugLine o "=== Interpretation Phase ==="
  match program with
  | none =>
    putLine s!"Runtime error in {o.filename}: {Fault.Cause.message .notAProgram}"
    return .int 1
  | some p =>
    let names := Value.shownNames (({} : Machine).callableNames p)
    debugLine o s!"Available functions: {names}"
    match Run.program p { world := ← get } with
    | .error _ m => do set m.world; return .int 1
    | .ok exit m =>
      set m.world
      if !o.debug then return exit
      match showOutcome exit m m.world with
      | .ok _ w => do set w; return exit
      | .error t w => do
        set w
        putLine s!"Unexpected runtime error in {o.filename}: {t.message}"
        return .int 1

/-! ## all together -/

/-- The rest of `compile_and_run` behind its tokens: read and run them. -/
def runItems (o : Options) (items : List Item) : Compiling Value := do
  match ← parsePhase o items with
  | none => return .int 1
  | some p => interpretPhase o (some p)

/-- `compile_and_run`: compile and run a source; without tokens there is nothing to run. -/
def compileAndRun (o : Options) (code : Option String) : Compiling Value := do
  match ← tokenizePhase o code with
  | none | some [] => return .int 1
  | some tokens => runItems o (tokens.map .token)

end Compile

end LetCall
