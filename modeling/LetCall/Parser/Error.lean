import LetCall.Parser.Item

/-!
# LetCall.Parser.Error

What goes wrong while parsing, and the words for it.  A `SyntaxError` stops the
construct that is being read; a `Report` is what a parser keeps of it when it goes on.
-/

namespace LetCall

/-- The constructs that turn a flaw inside them into an error of their own. -/
inductive Construct where
  | versionDirective | importStatement | letStatement
  /-- A function, by its name once that has been read. -/
  | function (name : Option String)
  | parameter | callStatement | callExpression | returnStatement
  deriving DecidableEq, Repr

/-- A construct in words. -/
def Construct.text : Construct → String
  | versionDirective => "version directive"
  | importStatement => "import statement"
  | letStatement => "let statement"
  | function name => let n := name.getD "unknown"; s!"function '{n}'"
  | parameter => "parameter"
  | callStatement => "call statement"
  | callExpression => "call expression"
  | returnStatement => "return statement"

/-- Why a construct cannot be read. -/
inductive SyntaxError.Cause where
  | expected (want got : Kind) (text : String)
  | expectedAtEnd (want : Kind)
  | emptyVersion
  | emptyModuleName
  | emptyFunctionName
  | emptyParameterName
  | unclosedBody
  /-- No statement starts like this, or there is nothing left. -/
  | unexpectedStatement (kind : Option Kind)
  | unexpectedInExpression (kind : Kind) (text : String)
  | expressionAtEnd
  | invalidNumber (text : String)
  | flawed (construct : Construct) (flaw : Flaw)
  deriving DecidableEq, Repr

/-- A cause in words. -/
def SyntaxError.Cause.text : SyntaxError.Cause → String
  | expected want got text => s!"Expected {want.name}, got {got.name} ('{text}')"
  | expectedAtEnd want => s!"Expected {want.name}, but reached end of file"
  | emptyVersion => "Version string cannot be empty"
  | emptyModuleName => "Module name cannot be empty"
  | emptyFunctionName => "Function name cannot be empty"
  | emptyParameterName => "Parameter name cannot be empty"
  | unclosedBody => "Unexpected end of file, expected '\x7d'"
  | unexpectedStatement (some k) => s!"Unexpected statement token: {k.name}"
  | unexpectedStatement none => "Unexpected statement token: EOF"
  | unexpectedInExpression k text => s!"Unexpected token in expression: {k.name} ('{text}')"
  | expressionAtEnd => "Unexpected end of file in expression"
  | invalidNumber text => s!"Invalid number format: {text}"
  | flawed c f => s!"Error parsing {c.text}: {f.message}"

/-- A message led by the place it is about, if there is one. -/
def withSite (site : Option Token) (text : String) : String :=
  match site with
  | some t => s!"Parse error at line {t.line}, column {t.column}: {text}"
  | none => s!"Parse error: {text}"

/-- A construct that cannot be read: why, and the token at fault if there is one. -/
structure SyntaxError where
  cause : SyntaxError.Cause
  site : Option Token
  deriving DecidableEq, Repr

namespace SyntaxError

/-- The cause in words. -/
def text (e : SyntaxError) : String := e.cause.text

/-- The whole message, which leads with the place. -/
def message (e : SyntaxError) : String := withSite e.site e.text

end SyntaxError

/-- How reading a construct fails. -/
inductive Failure where
  | syntaxError (e : SyntaxError)
  | flaw (f : Flaw)
  deriving DecidableEq, Repr

/-- A failure in words. -/
def Failure.message : Failure → String
  | syntaxError e => e.message
  | flaw f => f.message

/-- An error that a parser has taken note of. -/
inductive Report where
  /-- An error of a construct, after which parsing went on. -/
  | nested (e : SyntaxError)
  /-- A token that no part of a program starts with. -/
  | unexpectedToken (t : Token)
  /-- A failure that ended parsing. -/
  | fatal (f : Failure)
  /-- A note from outside. -/
  | note (message : String) (site : Option Token)
  deriving DecidableEq, Repr

/-- A report in words. -/
def Report.message : Report → String
  | nested e => withSite none e.message
  | unexpectedToken t => withSite (some t) s!"Unexpected token '{t.text}'"
  | fatal f => withSite none s!"Fatal parse error: {f.message}"
  | note m site => withSite site m

end LetCall
