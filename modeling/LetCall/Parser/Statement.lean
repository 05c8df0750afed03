import LetCall.Parser.Expression

/-!
# LetCall.Parser.Statement

Reading the parts of a program that stand on their own: the version directive, imports,
the heads of functions and statements.
-/

namespace LetCall.Reader

/-- `parse_version`: a version directive; its text may not be empty. -/
def version : Reader String :=
  within .versionDirective do
    let _ ← expect .version
    let i ← expect .string
    let text := stripQuotes (← part i.text)
    if text = "" then failAt .emptyVersion i
    return text

/-- `parse_import`: an import. -/
def importDirective : Reader String :=
  within .importStatement do
    let _ ← expect .importWord
    let name ← expectName .emptyModuleName
    let _ ← expect .semi
    return name

/-- `parse_let_statement`: a let, which no semicolon ends. -/
def letStatement : Reader Node :=
  within .letStatement do
    let _ ← expect .letWord
    let name ← expectText .ident
    let _ ← expect .assign
    return .letIn name (← expression)

/-- `parse_parameter`: a type and a name. -/
def parameter : Reader Param :=
  within .parameter do
    let type ← expectText .ident
    let name ← expectName .emptyParameterName
    return ⟨type, name⟩

/-- The parameters of a function, in parentheses. -/
def parameters : Reader (List Param) := do
  let _ ← expect .lparen
  fromCursor fun c => listToParen parameter c.rest.length

/-- The first part of `parse_function`: the word for its return type, its name and
parameters, and the brace that opens its body. -/
def functionHead : Reader (Kind × String × List Param) := do
  let (ret, i, name) ← within (.function none) do
    let ret ← part (← take).kind
    let i ← expect .ident
    return (ret, i, ← part i.text)
  within (.function (some name)) do
    if name = "" then failAt .emptyFunctionName i
    let params ← parameters
    let _ ← expect .lbrace
    return (ret, name, params)

/-- `parse_call_statement`: a call that stands as a statement. -/
def callStatement : Reader Node :=
  within .callStatement do
    let e ← call
    let _ ← expect .semi
    return e

/-- `parse_return`: a return, with or without a value. -/
def returnStatement : Reader Node :=
  within .returnStatement do
    let _ ← expect .returnWord
    let value ← if ← looksAt [.semi] then pure .absent else expression
    let _ ← expect .semi
    return .ret value

/-- `parse_statement`: a statement of a function body. -/
def statement : Reader Node := do
  if ← looksAt [.returnWord] then returnStatement
  else if ← looksAt [.letWord] then letStatement
  else if ← looksAt [.ident] then callStatement
  else
    match ← current? with
    | none => fail (.unexpectedStatement none)
    | some i => failAt (.unexpectedStatement (some (← part i.kind))) i

end LetCall.Reader
