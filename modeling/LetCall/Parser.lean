import LetCall.Parser.Statement

/-!
# LetCall.Parser

Reading whole programs.  An error in one part is reported and reading is taken up again
at the next boundary, so a program comes out in any case but one: a flaw between the
parts.  Inside a function body the boundary itself may be no statement, and then the same
error comes up again for ever; after a given number of reports parsing is abandoned.

Main definitions: `Parser` for the state, `Parsing` for steps on it, `Parsing.parse`.
-/

namespace LetCall

/-- The state of a parser. -/
structure Parser where
  cursor : Cursor
  reports : List Report := []
  /-- An error has been reported and reading not yet been taken up again. -/
  panicking : Bool := false
  deriving DecidableEq, Repr

/-- A parser before its first step. -/
def Parser.ofItems (items : List Item) : Parser := { cursor := ⟨items, 0⟩ }

/-- A parser of well-formed tokens before its first step. -/
def Parser.ofTokens (tokens : List Token) : Parser := .ofItems (tokens.map .token)

/-- How many turns a loop can still take, if each of them uses up an item or reports an
error. -/
def Parser.turnsLeft (p : Parser) (limit : Nat) : Nat :=
  p.cursor.rest.length + (limit - p.reports.length)

/-- How a step of a parser ends without a result. -/
inductive Halt where
  | failure (f : Failure)
  /-- So many errors have been reported that parsing was given up. -/
  | abandoned
  deriving DecidableEq, Repr

/-- Steps of a parser. -/
abbrev Parsing := EStateM Halt Parser

/-- So many reports are taken before parsing is given up, unless told otherwise. -/
def reportLimit : Nat := 500

namespace Parsing

/-- Use a reader; it moves the cursor and changes nothing else. -/
def read {α : Type} (r : Reader α) : Parsing α := fun p =>
  match r p.cursor with
  | .ok a c => .ok a { p with cursor := c }
  | .error f c => .error (.failure f) { p with cursor := c }

/-- `report_error`: take note of an error; give up at the limit. -/
def report (limit : Nat) (r : Report) : Parsing Unit := do
  modify fun p => { p with reports := p.reports ++ [r], panicking := true }
  if limit ≤ (← get).reports.length then throw .abandoned

/-- `synchronize`: take up reading again at the next boundary. -/
def synchronize : Parsing Unit := do
  modify fun p => { p with panicking := false }
  read Reader.synchronize

/-- Run a step; an error in it is reported, and reading taken up again. -/
def attempt {α : Type} (limit : Nat) (x : Parsing α) : Parsing (Option α) :=
  tryCatch (some <$> x) fun
    | .failure (.syntaxError e) => do
      report limit (.nested e)
      synchronize
      return none
    | h => throw h

/-- Run a step; a flaw in it becomes an error of a construct. -/
def within {α : Type} (construct : Construct) (x : Parsing α) : Parsing α :=
  tryCatch x fun
    | .failure (.flaw f) => read (Reader.fail (.flawed construct f))
    | h => throw h

/-- `is_at_end`: nothing is left to be read. -/
def atEnd : Parsing Bool := return (← get).cursor.atEnd

/-- Parts of one kind, as long as there are `more`, but `n` turns at most; parts with
errors are left out. -/
def partsUpTo {α : Type} (limit : Nat) (more : Parsing Bool) (part : Parsing α) :
    Nat → Parsing (List α)
  | 0 => return []
  | n + 1 => do
    if ← more then
      let found ← attempt limit part
      return found.toList ++ (← partsUpTo limit more part n)
    else return []

/-- Parts of one kind, as long as there are `more`; parts with errors are left out. -/
def parts {α : Type} (limit : Nat) (more : Parsing Bool) (part : Parsing α) :
    Parsing (List α) := do
  partsUpTo limit more part ((← get).turnsLeft limit)

/-- The next item starts a part. -/
def starts (kinds : List Kind) : Parsing Bool := read (Reader.looksAt kinds)

/-- The body of a function goes on: neither its closing brace nor the end is next. -/
def inBody : Parsing Bool := do
  if ← starts [.rbrace] then return false
  return !(← atEnd)

/-- The statements of a body and its closing brace, the opening one already read. -/
def body (limit : Nat) : Parsing (List Node) := do
  let nodes ← parts limit inBody (read Reader.statement)
  if ← atEnd then read (Reader.fail .unclosedBody)
  let _ ← read (Reader.expect .rbrace)
  return nodes

/-- `parse_function`: a function, its head and its body. -/
def function (limit : Nat) : Parsing FunctionDef := do
  let (ret, name, params) ← read Reader.functionHead
  within (.function (some name)) do
    return ⟨name, params, ret.name, ← body limit⟩

/-- The version directive that a program may start with. -/
def leadingVersion (limit : Nat) : Parsing (Option String) := do
  if ← starts [.version] then attempt limit (read Reader.version) else return none

/-- What stands before the functions of a program: its version, imports and lets. -/
def preamble (limit : Nat) : Parsing (Option String × List String × List Node) := do
  let version ← leadingVersion limit
  let imports ← parts limit (starts [.importWord]) (read Reader.importDirective)
  let lets ← parts limit (starts [.letWord]) (read Reader.letStatement)
  return (version, imports, lets)

/-- Nothing may be left behind the functions of a program; what is left is reported once. -/
def ending (limit : Nat) : Parsing Unit := do
  match (← get).cursor.rest with
  | [] => return ()
  | i :: _ =>
    let _ ← read (Reader.part i.text)
    report limit (.unexpectedToken (← read (Reader.part i.whole)))

/-- `_parse_program`: version, imports, lets and functions in this order, and nothing behind
them. -/
def program (limit : Nat) : Parsing Program := do
  let (version, imports, lets) ← preamble limit
  let functions ← parts limit (starts [.int, .void]) (function limit)
  ending limit
  return { version, imports := some imports, functions, statements := lets }

/-- `parse`: a whole program, unless a flaw between its parts ends parsing. -/
def parse (limit : Nat) : Parsing (Option Program) :=
  tryCatch (some <$> program limit) fun
    | .failure f => do
      report limit (.fatal f)
      return none
    | .abandoned => throw .abandoned

end Parsing

/-- `get_errors`: the messages of all errors a parser has taken note of. -/
def Parser.messages (p : Parser) : List String := p.reports.map Report.message

end LetCall
