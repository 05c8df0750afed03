/-!
# LetCall.Token

Tokens of the language: what kind of lexeme one is, its text, and where in the
source it starts.  Kinds are an open set, because a token list may come from
elsewhere than the lexer: `Kind.other` stands for every further name.

Main statements: a position after a text has one more line for each line feed, and
reading a kind's name gives the kind back.
-/

namespace LetCall

/-! ## kinds -/

/-- The kinds of token; `int` is both the integer literal of the lexer and the
return type that starts a function for the parser. -/
inductive Kind where
  | version | importWord | returnWord | fnWord | letWord | constWord | castWord
  | toStringWord | toIntWord | toFloatWord | toBoolWord
  | intType | floatType | boolType | stringType | voidType
  | boolLiteral
  | assign | plus | minus | multiply | divide | modulo | power
  | eq | ne | lt | le | gt | ge
  | and | or | not
  | string | float | int
  | ident | lparen | rparen | lbrace | rbrace | lbracket | rbracket
  | colon | semi | comma | dot | arrow | langle | rangle
  | whitespace | comment
  | number | void
  | other (name : String)
  deriving DecidableEq, Repr

namespace Kind

/-- The name under which a kind is written in messages. -/
def name : Kind → String
  | version => "VERSION" | importWord => "IMPORT" | returnWord => "RETURN" | fnWord => "FN"
  | letWord => "LET" | constWord => "CONST" | castWord => "CAST"
  | toStringWord => "TO_STRING" | toIntWord => "TO_INT" | toFloatWord => "TO_FLOAT"
  | toBoolWord => "TO_BOOL"
  | intType => "INT_TYPE" | floatType => "FLOAT_TYPE" | boolType => "BOOL_TYPE"
  | stringType => "STRING_TYPE" | voidType => "VOID_TYPE"
  | boolLiteral => "BOOL_LITERAL"
  | assign => "ASSIGN" | plus => "PLUS" | minus => "MINUS" | multiply => "MULTIPLY"
  | divide => "DIVIDE" | modulo => "MODULO" | power => "POWER"
  | eq => "EQ" | ne => "NE" | lt => "LT" | le => "LE" | gt => "GT" | ge => "GE"
  | and => "AND" | or => "OR" | not => "NOT"
  | string => "STRING" | float => "FLOAT" | int => "INT"
  | ident => "IDENT" | lparen => "LPAREN" | rparen => "RPAREN" | lbrace => "LBRACE"
  | rbrace => "RBRACE" | lbracket => "LBRACKET" | rbracket => "RBRACKET"
  | colon => "COLON" | semi => "SEMI" | comma => "COMMA" | dot => "DOT" | arrow => "ARROW"
  | langle => "LANGLE" | rangle => "RANGLE"
  | whitespace => "WHITESPACE" | comment => "COMMENT"
  | number => "NUMBER" | void => "VOID"
  | other n => n

/-- The kinds that have a constructor of their own. -/
def named : List Kind :=
  [version, importWord, returnWord, fnWord, letWord, constWord, castWord, toStringWord,
    toIntWord, toFloatWord, toBoolWord, intType, floatType, boolType, stringType, voidType,
    boolLiteral, assign, plus, minus, multiply, divide, modulo, power, eq, ne, lt, le, gt, ge,
    and, or, not, string, float, int, ident, lparen, rparen, lbrace, rbrace, lbracket, rbracket,
    colon, semi, comma, dot, arrow, langle, rangle, whitespace, comment, number, void]

/-- The kind of a given name. -/
def ofName (n : String) : Kind := (named.find? (·.name == n)).getD (other n)

/-- Every kind of a name of its own is read back from its name. -/
theorem ofName_name {k : Kind} (h : k ∈ named) : ofName k.name = k := by
  revert k; decide

/-- Every name is the name of the kind read from it. -/
theorem name_ofName (n : String) : (ofName n).name = n := by
  unfold ofName
  cases h : named.find? (·.name == n) with
  | none => rfl
  | some k => simpa using List.find?_some h

/-! ## classification -/

/-- Number literals. -/
def isNumericLiteral (k : Kind) : Bool := [int, float].contains k

/-- Words that name a type. -/
def isTypeWord (k : Kind) : Bool :=
  [intType, floatType, boolType, stringType, voidType].contains k

/-- Literals of every type. -/
def isLiteral (k : Kind) : Bool := [int, float, string, boolLiteral].contains k

/-- Operators that take two operands. -/
def isBinaryOperator (k : Kind) : Bool :=
  [plus, minus, multiply, divide, modulo, power, eq, ne, lt, le, gt, ge, and, or].contains k

/-- Operators that take one operand. -/
def isUnaryOperator (k : Kind) : Bool := [minus, not].contains k

/-- Operators of either arity. -/
def isOperator (k : Kind) : Bool := k.isBinaryOperator || k.isUnaryOperator

/-- How tightly an operator binds; zero for what is no operator. -/
def precedence : Kind → Nat
  | or => 1
  | and => 2
  | eq | ne => 3
  | lt | le | gt | ge => 4
  | plus | minus => 5
  | multiply | divide | modulo => 6
  | power => 7
  | not => 8
  | _ => 0

end Kind

/-! ## positions -/

/-- A place in the source: line and column count from one, the offset from zero. -/
structure Position where
  line : Nat := 1
  column : Nat := 1
  offset : Nat := 0
  deriving DecidableEq, Repr

namespace Position

/-- The start of a source. -/
def start : Position := {}

/-- The place after one character. -/
def advance (p : Position) (c : Char) : Position :=
  if c = '\n' then ⟨p.line + 1, 1, p.offset + 1⟩ else ⟨p.line, p.column + 1, p.offset + 1⟩

/-- The place after a text. -/
def advanceAll (p : Position) (cs : List Char) : Position := cs.foldl advance p

@[simp] theorem advanceAll_nil (p : Position) : p.advanceAll [] = p := rfl

@[simp] theorem advanceAll_cons (p : Position) (c : Char) (cs : List Char) :
    p.advanceAll (c :: cs) = (p.advance c).advanceAll cs := rfl

theorem advanceAll_append (p : Position) (as bs : List Char) :
    p.advanceAll (as ++ bs) = (p.advanceAll as).advanceAll bs := by
  simp [advanceAll]

/-- The offset counts the characters passed. -/
theorem offset_advanceAll (p : Position) (cs : List Char) :
    (p.advanceAll cs).offset = p.offset + cs.length := by
  induction cs generalizing p with
  | nil => rfl
  | cons c cs ih =>
    have h : (p.advance c).offset = p.offset + 1 := by unfold advance; split <;> rfl
    rw [advanceAll_cons, ih, h, List.length_cons]; omega

/-- The line counts the line feeds passed. -/
theorem line_advanceAll (p : Position) (cs : List Char) :
    (p.advanceAll cs).line = p.line + cs.count '\n' := by
  induction cs generalizing p with
  | nil => rfl
  | cons c cs ih =>
    rw [advanceAll_cons, ih, List.count_cons]
    by_cases h : c = '\n'
    · simp [advance, h]; omega
    · simp [advance, h]

end Position

/-! ## tokens -/

/-- A token: its kind, its text as it stands in the source, and where it starts.
Lines and columns are integers because a token list may come from elsewhere. -/
structure Token where
  kind : Kind
  text : String
  line : Int
  column : Int
  deriving DecidableEq, Repr

/-- Give tokens the kinds that `rename` sends theirs to, all at once. -/
def Token.rename (rename : Kind → Kind) (t : Token) : Token := { t with kind := rename t.kind }

end LetCall
