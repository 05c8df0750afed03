import LetCall.Token
import LetCall.Token.Pattern
import LetCall.Text.Printable

/-!
# LetCall.Token.Lexer

Cutting a source into tokens.  The rules are tried in order and the first that fits
wins: there is no longest match and no word boundary, so a reserved word is cut off
the front of a longer name, and a rule behind one that fits at the same places
never fires.

Main definitions: `tokenize`, which stops at the first place where no rule fits, and
`recover`, which reports every such place and goes on behind it.
-/

namespace LetCall

/-- A rule of the lexer: text of this shape is a token of this kind. -/
structure Rule where
  kind : Kind
  pattern : Pattern

/-- The rules, in the order in which they are tried. -/
def rules : List Rule :=
  [⟨.version, .words ["@version"]⟩, ⟨.importWord, .words ["import"]⟩,
    ⟨.returnWord, .words ["return"]⟩, ⟨.fnWord, .words ["fn"]⟩, ⟨.letWord, .words ["let"]⟩,
    ⟨.constWord, .words ["const"]⟩, ⟨.castWord, .words ["cast"]⟩,
    ⟨.toStringWord, .words ["to_string"]⟩, ⟨.toIntWord, .words ["to_int"]⟩,
    ⟨.toFloatWord, .words ["to_float"]⟩, ⟨.toBoolWord, .words ["to_bool"]⟩,
    ⟨.intType, .words ["int"]⟩, ⟨.floatType, .words ["float"]⟩, ⟨.boolType, .words ["bool"]⟩,
    ⟨.stringType, .words ["string"]⟩, ⟨.voidType, .words ["void"]⟩,
    ⟨.boolLiteral, .words ["true", "false"]⟩,
    ⟨.assign, .words ["="]⟩, ⟨.plus, .words ["+"]⟩, ⟨.minus, .words ["-"]⟩,
    ⟨.multiply, .words ["*"]⟩, ⟨.divide, .words ["/"]⟩, ⟨.modulo, .words ["%"]⟩,
    ⟨.power, .words ["**"]⟩,
    ⟨.eq, .words ["=="]⟩, ⟨.ne, .words ["!="]⟩, ⟨.lt, .words ["<"]⟩, ⟨.le, .words ["<="]⟩,
    ⟨.gt, .words [">"]⟩, ⟨.ge, .words [">="]⟩,
    ⟨.and, .words ["&&"]⟩, ⟨.or, .words ["||"]⟩, ⟨.not, .words ["!"]⟩,
    ⟨.string, .quoted⟩, ⟨.float, .decimal⟩, ⟨.int, .integer⟩, ⟨.ident, .identifier⟩,
    ⟨.lparen, .words ["("]⟩, ⟨.rparen, .words [")"]⟩, ⟨.lbrace, .words ["\x7b"]⟩,
    ⟨.rbrace, .words ["\x7d"]⟩, ⟨.lbracket, .words ["["]⟩, ⟨.rbracket, .words ["]"]⟩,
    ⟨.colon, .words [":"]⟩, ⟨.semi, .words [";"]⟩, ⟨.comma, .words [","]⟩, ⟨.dot, .words ["."]⟩,
    ⟨.arrow, .words ["->"]⟩, ⟨.langle, .words ["<"]⟩, ⟨.rangle, .words [">"]⟩,
    ⟨.whitespace, .blanks⟩, ⟨.comment, .lineComment⟩]

/-- Kinds that separate tokens and leave none behind. -/
def Kind.isLayout (k : Kind) : Bool := k == .whitespace || k == .comment

/-! ## one lexeme -/

/-- A lexeme cut off the front of a text: its kind, its characters and what follows. -/
structure Lexeme where
  kind : Kind
  chars : List Char
  rest : List Char
  deriving Repr

/-- The lexeme a rule cuts off the front of a text. -/
def Rule.lexeme? (r : Rule) (cs : List Char) : Option Lexeme :=
  (r.pattern.cut? cs).map fun (l, rest) => ⟨r.kind, l, rest⟩

/-- The lexeme of the first rule that fits at the front of a text. -/
def lexeme? (cs : List Char) : Option Lexeme := rules.findSome? (·.lexeme? cs)

/-- A lexeme is not empty, and lexeme and rest make up the text. -/
theorem lexeme?_eq_some {cs : List Char} {x : Lexeme} (h : lexeme? cs = some x) :
    x.chars ≠ [] ∧ x.chars ++ x.rest = cs := by
  obtain ⟨r, _, hr⟩ := List.exists_of_findSome?_eq_some h
  obtain ⟨⟨l, rest⟩, hcut, rfl⟩ := Option.map_eq_some_iff.mp hr
  exact Pattern.cut?_eq_some hcut

/-- What follows a lexeme is shorter than the text it was cut from. -/
theorem length_rest_lt_of_lexeme? {cs : List Char} {x : Lexeme} (h : lexeme? cs = some x) :
    x.rest.length < cs.length := by
  obtain ⟨hne, happ⟩ := lexeme?_eq_some h
  have := List.length_pos_iff.mpr hne
  rw [← happ, List.length_append]; omega

/-- The token of a lexeme that starts at `p`; layout leaves none. -/
def Lexeme.token? (x : Lexeme) (p : Position) : Option Token :=
  if x.kind.isLayout then none else some ⟨x.kind, String.ofList x.chars, p.line, p.column⟩

/-! ## errors -/

/-- Why no rule fits at a place. -/
inductive LexError.Cause where
  /-- A double quote that is never closed. -/
  | unterminated
  /-- A character that starts no lexeme. -/
  | unexpected (c : Char)
  deriving DecidableEq, Repr

/-- A place where no rule fits, and why. -/
structure LexError where
  cause : LexError.Cause
  position : Position
  deriving DecidableEq, Repr

namespace LexError

/-- The error at a place where a text goes on with `c` and `cs` and no rule fits: behind a
double quote the closing one is looked for, and any other character is unexpected. -/
def here (p : Position) (c : Char) (cs : List Char) : LexError :=
  ⟨if c = '"' ∧ cs.dropWhile (· != '"') = [] then .unterminated else .unexpected c, p⟩

/-- The cause in words; a character that does not print is given by its code. -/
def Cause.text : Cause → String
  | unterminated => "Unterminated string literal"
  | unexpected c =>
    if Text.isPrintable c then s!"Unexpected character '{c}'"
    else s!"Unexpected character (ASCII {c.toNat})"

/-- The cause in words. -/
def text (e : LexError) : String := e.cause.text

/-- The whole message, which leads with the place. -/
def message (e : LexError) : String :=
  s!"Lexer error at line {e.position.line}, column {e.position.column}: {e.text}"

end LexError

/-! ## whole texts -/

/-- The tokens of a text that starts at `p`, or the first place where no rule fits. -/
def tokenizeFrom (p : Position) : List Char → Except LexError (List Token)
  | [] => .ok []
  | c :: cs =>
    match _h : lexeme? (c :: cs) with
    | none => .error (.here p c cs)
    | some x =>
      (tokenizeFrom (p.advanceAll x.chars) x.rest).map ((x.token? p).toList ++ ·)
termination_by cs => cs.length
decreasing_by exact length_rest_lt_of_lexeme? _h

/-- `tokenize`: the tokens of a source, or the first place where no rule fits. -/
def tokenize (code : String) : Except LexError (List Token) :=
  tokenizeFrom .start code.toList

/-- The tokens of a text that starts at `p`, with every place where no rule fits:
such a character separates tokens as a blank does. -/
def recoverFrom (p : Position) : List Char → List Token × List LexError
  | [] => ([], [])
  | c :: cs =>
    match _h : lexeme? (c :: cs) with
    | none =>
      let (tokens, errors) := recoverFrom (p.advance c) cs
      (tokens, .here p c cs :: errors)
    | some x =>
      let (tokens, errors) := recoverFrom (p.advanceAll x.chars) x.rest
      ((x.token? p).toList ++ tokens, errors)
termination_by cs => cs.length
decreasing_by
  · simp
  · exact length_rest_lt_of_lexeme? _h

/-- `tokenize_with_recovery`: the tokens of a source and all places where no rule fits. -/
def recover (code : String) : List Token × List LexError :=
  recoverFrom .start code.toList

end LetCall
