import LetCall.Parser

/-!
# LetCall.Proofs.Grammar

The grammar of programs, as the trees of its derivations:

```
Program    = [version string] Import* Let* Function*
Import     = import Name ;
Let        = let ident = Expression
Function   = (int | void) Name ( [Parameter (, Parameter)*] ) { Statement* }
Parameter  = ident Name
Statement  = return [Expression] ; | Let | Call ;
Call       = Name ( [Expression (, Expression)*] )
Expression = Operand ((+ | -) Operand)*
Operand    = - Operand | string | number | ident | Call | ( Expression )
```

A leaf of a tree is a token with the proof that it may stand there, so a tree is a
derivation and nothing else.  Each tree has its `tokens`, read from left to right, and
what it stands for: a `node` for expressions and statements, `parsed` for larger parts.

Which tokens may lead a tree is said by its `leads_tokens`; an expression `Stops` before
tokens that do not go on with it.
-/

namespace LetCall.Grammar

/-! ## leaves -/

/-- A token of a given kind. -/
abbrev TokenOf (k : Kind) := { t : Token // t.kind = k }

/-- A name that may not be empty. -/
abbrev Name := { t : Token // t.kind = .ident ∧ t.text ≠ "" }

/-- An operator between two operands. -/
abbrev Sign := { t : Token // t.kind = .plus ∨ t.kind = .minus }

/-- A number whose text can be read. -/
abbrev Numeral := { t : Token // t.kind = .number ∧ (Numeric.readInt? t.text).isSome }

/-- The number a numeral stands for. -/
def Numeral.value (t : Numeral) : Int := (Numeric.readInt? t.1.text).get t.2.2

/-! ## expressions -/

mutual

/-- An operand, which may have minus signs before it. -/
inductive Operand where
  | negated (sign : TokenOf .minus) (x : Operand)
  | text (t : TokenOf .string)
  | numeral (t : Numeral)
  | name (t : TokenOf .ident)
  | call (c : Call)
  | enclosed (opening : TokenOf .lparen) (e : Expression) (closing : TokenOf .rparen)

/-- Operands joined by plus and minus. -/
inductive Expression where
  | mk (first : Operand) (more : Terms)

/-- The operands of an expression behind its first, each with its sign. -/
inductive Terms where
  | nil
  | cons (sign : Sign) (x : Operand) (more : Terms)

/-- A call. -/
inductive Call where
  | mk (name : Name) (opening : TokenOf .lparen) (args : Arguments) (closing : TokenOf .rparen)

/-- The arguments of a call, if there are any. -/
inductive Arguments where
  | none
  | some (first : Expression) (more : MoreArguments)

/-- The arguments of a call behind its first, each with its comma. -/
inductive MoreArguments where
  | nil
  | cons (comma : TokenOf .comma) (e : Expression) (more : MoreArguments)

end

mutual

/-- The tokens of an operand. -/
def Operand.tokens : Operand → List Token
  | .negated sign x => sign.1 :: x.tokens
  | .text t => [t.1]
  | .numeral t => [t.1]
  | .name t => [t.1]
  | .call c => c.tokens
  | .enclosed opening e closing => opening.1 :: (e.tokens ++ [closing.1])

/-- The tokens of an expression. -/
def Expression.tokens : Expression → List Token
  | .mk first more => first.tokens ++ more.tokens

/-- The tokens of further operands. -/
def Terms.tokens : Terms → List Token
  | .nil => []
  | .cons sign x more => sign.1 :: (x.tokens ++ more.tokens)

/-- The tokens of a call. -/
def Call.tokens : Call → List Token
  | .mk name opening args closing => name.1 :: opening.1 :: (args.tokens ++ [closing.1])

/-- The tokens of arguments. -/
def Arguments.tokens : Arguments → List Token
  | .none => []
  | .some first more => first.tokens ++ more.tokens

/-- The tokens of further arguments. -/
def MoreArguments.tokens : MoreArguments → List Token
  | .nil => []
  | .cons comma e more => comma.1 :: (e.tokens ++ more.tokens)

end

mutual

/-- What an operand stands for: parentheses leave no trace. -/
def Operand.node : Operand → Node
  | .negated sign x => .un sign.1.text x.node
  | .text t => .str (Reader.stripQuotes t.1.text)
  | .numeral t => .num (.int (Numeral.value t))
  | .name t => .var t.1.text
  | .call c => c.node
  | .enclosed _ e _ => e.node

/-- What an expression stands for. -/
def Expression.node : Expression → Node
  | .mk first more => more.node first.node

/-- What further operands make of an expression read so far: the earlier ones bind
first. -/
def Terms.node : Terms → Node → Node
  | .nil, left => left
  | .cons sign x more, left => more.node (.bin sign.1.text left x.node)

/-- What a call stands for. -/
def Call.node : Call → Node
  | .mk name _ args _ => .call name.1.text args.nodes

/-- What arguments stand for. -/
def Arguments.nodes : Arguments → List Node
  | .none => []
  | .some first more => first.node :: more.nodes

/-- What further arguments stand for. -/
def MoreArguments.nodes : MoreArguments → List Node
  | .nil => []
  | .cons _ e more => e.node :: more.nodes

end

/-! ## larger parts -/

/-- A version directive, whose text may not be empty. -/
structure Version where
  word : TokenOf .version
  text : { t : Token // t.kind = .string ∧ Reader.stripQuotes t.text ≠ "" }

/-- An import. -/
structure Import where
  word : TokenOf .importWord
  name : Name
  semi : TokenOf .semi

/-- A let. -/
structure Let where
  word : TokenOf .letWord
  name : TokenOf .ident
  assign : TokenOf .assign
  value : Expression

/-- A statement of a function body. -/
inductive Statement where
  | ret (word : TokenOf .returnWord) (value : Option Expression) (semi : TokenOf .semi)
  | letIn (l : Let)
  | call (c : Call) (semi : TokenOf .semi)

/-- A parameter: its type, which may be any word, and its name. -/
structure Parameter where
  type : TokenOf .ident
  name : Name

/-- The head of a function: everything before its body. -/
structure Header where
  ret : { t : Token // t.kind = .int ∨ t.kind = .void }
  name : Name
  opening : TokenOf .lparen
  params : Option (Parameter × List (TokenOf .comma × Parameter))
  closing : TokenOf .rparen
  brace : TokenOf .lbrace

/-- A function. -/
structure Function where
  header : Header
  body : List Statement
  brace : TokenOf .rbrace

/-- A program. -/
structure Program where
  version : Option Version
  imports : List Import
  lets : List Let
  functions : List Function

def Version.tokens (v : Version) : List Token := [v.word.1, v.text.1]

def Version.parsed (v : Version) : String := Reader.stripQuotes v.text.1.text

def Import.tokens (i : Import) : List Token := [i.word.1, i.name.1, i.semi.1]

def Import.parsed (i : Import) : String := i.name.1.text

def Let.tokens (l : Let) : List Token := l.word.1 :: l.name.1 :: l.assign.1 :: l.value.tokens

def Let.node (l : Let) : Node := .letIn l.name.1.text l.value.node

/-- The tokens of a statement. -/
def Statement.tokens : Statement → List Token
  | .ret word value semi => word.1 :: ((value.map Expression.tokens).getD [] ++ [semi.1])
  | .letIn l => l.tokens
  | .call c semi => c.tokens ++ [semi.1]

/-- What a statement stands for; a bare return has no value. -/
def Statement.node : Statement → Node
  | .ret _ value _ => .ret ((value.map Expression.node).getD .absent)
  | .letIn l => l.node
  | .call c _ => c.node

def Parameter.tokens (p : Parameter) : List Token := [p.type.1, p.name.1]

def Parameter.parsed (p : Parameter) : Param := ⟨p.type.1.text, p.name.1.text⟩

/-- The tokens of parameters, with commas between them. -/
def paramsTokens : Option (Parameter × List (TokenOf .comma × Parameter)) → List Token
  | none => []
  | some (first, more) => first.tokens ++ more.flatMap fun (comma, p) => comma.1 :: p.tokens

/-- What parameters stand for. -/
def paramsParsed : Option (Parameter × List (TokenOf .comma × Parameter)) → List Param
  | none => []
  | some (first, more) => first.parsed :: more.map (·.2.parsed)

/-- The tokens of the head of a function. -/
def Header.tokens (h : Header) : List Token :=
  h.ret.1 :: h.name.1 :: h.opening.1 :: (paramsTokens h.params ++ [h.closing.1, h.brace.1])

/-- The function that a head and the statements of a body make up. -/
def Header.withBody (h : Header) (body : List Node) : FunctionDef :=
  ⟨h.name.1.text, paramsParsed h.params, h.ret.1.kind.name, body⟩

def Function.tokens (f : Function) : List Token :=
  f.header.tokens ++ (f.body.flatMap Statement.tokens ++ [f.brace.1])

def Function.parsed (f : Function) : FunctionDef := f.header.withBody (f.body.map Statement.node)

/-- The tokens of a program. -/
def Program.tokens (p : Program) : List Token :=
  (p.version.map Version.tokens).getD [] ++ (p.imports.flatMap Import.tokens ++
    (p.lets.flatMap Let.tokens ++ p.functions.flatMap Function.tokens))

/-- What a program stands for. -/
def Program.parsed (p : Program) : LetCall.Program where
  version := p.version.map Version.parsed
  imports := some (p.imports.map Import.parsed)
  functions := p.functions.map Function.parsed
  statements := p.lets.map Let.node

/-! ## what leads and what follows -/

/-- Whether the first of some tokens is of one of some kinds. -/
def leads (kinds : List Kind) (ts : List Token) : Bool := ts.head?.any (kinds.contains ·.kind)

@[simp] theorem leads_nil (kinds : List Kind) : leads kinds [] = false := rfl

@[simp] theorem leads_cons (kinds : List Kind) (t : Token) (ts : List Token) :
    leads kinds (t :: ts) = kinds.contains t.kind := rfl

/-- The kind of an operand's first token. -/
def Operand.kind : Operand → Kind
  | .negated .. => .minus
  | .text _ => .string
  | .numeral _ => .number
  | .name _ | .call _ => .ident
  | .enclosed .. => .lparen

/-- An operand is not empty and its first token is of its kind. -/
theorem Operand.exists_lead (x : Operand) : ∃ t ts, x.tokens = t :: ts ∧ t.kind = x.kind := by
  cases x with
  | negated sign x => exact ⟨sign.1, x.tokens, rfl, sign.2⟩
  | text t => exact ⟨t.1, [], rfl, t.2⟩
  | numeral t => exact ⟨t.1, [], rfl, t.2.1⟩
  | name t => exact ⟨t.1, [], rfl, t.2⟩
  | call c =>
    obtain ⟨name, opening, args, closing⟩ := c
    exact ⟨name.1, _, rfl, name.2.1⟩
  | enclosed opening e closing => exact ⟨opening.1, _, rfl, opening.2⟩

@[simp] theorem Operand.leads_tokens (kinds : List Kind) (x : Operand) (rest : List Token) :
    leads kinds (x.tokens ++ rest) = kinds.contains x.kind := by
  obtain ⟨t, ts, hx, ht⟩ := x.exists_lead
  rw [hx, List.cons_append, leads_cons, ht]

/-- The kinds that start an operand, and so an expression. -/
def operandKinds : List Kind := [.minus, .string, .number, .ident, .lparen]

theorem Expression.leads_tokens (e : Expression) (rest : List Token) :
    leads operandKinds (e.tokens ++ rest) = true := by
  obtain ⟨x, more⟩ := e
  rw [Expression.tokens, List.append_assoc, Operand.leads_tokens]
  cases x <;> rfl

/-- Whether the last token of an operand is a name. -/
def Operand.endsInName : Operand → Bool
  | .negated _ x => x.endsInName
  | .name _ => true
  | _ => false

/-- Whether an operand with further ones behind it ends in a name; `b` says it of the
first. -/
def Terms.endsInName : Terms → Bool → Bool
  | .nil, b => b
  | .cons _ x more, _ => more.endsInName x.endsInName

/-- Whether the last token of an expression is a name. -/
def Expression.endsInName : Expression → Bool
  | .mk first more => more.endsInName first.endsInName

/-- The tokens behind an operand do not go on with it: a name is not followed by an
opening parenthesis. -/
def Operand.Stops (x : Operand) (rest : List Token) : Prop :=
  x.endsInName = true → leads [.lparen] rest = false

/-- The tokens behind an expression do not go on with it: there is no further operand,
and a name at its end is not followed by an opening parenthesis. -/
def Expression.Stops (e : Expression) (rest : List Token) : Prop :=
  leads [.plus, .minus] rest = false ∧ (e.endsInName = true → leads [.lparen] rest = false)

/-- What leads further operands is no parenthesis, so an operand stops before them if
the whole expression stops. -/
theorem Operand.stops_terms {x : Operand} {more : Terms} {rest : List Token}
    (h : more.endsInName x.endsInName = true → leads [.lparen] rest = false) :
    x.Stops (more.tokens ++ rest) := by
  intro hx
  cases more with
  | nil => exact h hx
  | cons sign y more =>
    simp only [Terms.tokens, List.cons_append, leads_cons]
    rcases sign.2 with hs | hs <;> rw [hs] <;> rfl

/-- Arguments end before a comma or a closing parenthesis, where every expression stops. -/
theorem MoreArguments.stops (e : Expression) (more : MoreArguments) (closing : TokenOf .rparen)
    (rest : List Token) : e.Stops (more.tokens ++ closing.1 :: rest) := by
  cases more with
  | nil => simp [Expression.Stops, MoreArguments.tokens, closing.2]
  | cons comma e' more => simp [Expression.Stops, MoreArguments.tokens, comma.2]

/-- No expression goes on with these tokens. -/
def Ends (rest : List Token) : Prop := leads [.plus, .minus, .lparen] rest = false

theorem Expression.stops_of_ends {rest : List Token} (e : Expression) (h : Ends rest) :
    e.Stops rest := by
  cases rest with
  | nil => simp [Expression.Stops]
  | cons t ts =>
    simp only [Ends, leads_cons, List.contains_eq_mem, List.mem_cons, List.not_mem_nil, or_false,
      decide_eq_false_iff_not, not_or] at h
    simp [Expression.Stops, h.1, h.2.1, h.2.2]

/-- Tokens led by one of some kinds are not led by one of others. -/
theorem leads_eq_false_of_disjoint {starts kinds : List Kind} {ts : List Token}
    (hdisj : ∀ k ∈ starts, k ∉ kinds) (h : leads starts ts = true) : leads kinds ts = false := by
  cases ts with
  | nil => rfl
  | cons t ts =>
    have hmem : t.kind ∈ starts := by simpa using h
    simpa using hdisj _ hmem

/-- Tokens led by one of some kinds are led by one of more kinds. -/
theorem leads_mono {starts kinds : List Kind} {ts : List Token} (hsub : ∀ k ∈ starts, k ∈ kinds)
    (h : leads starts ts = true) : leads kinds ts = true := by
  cases ts with
  | nil => cases h
  | cons t ts =>
    have hmem : t.kind ∈ starts := by simpa using h
    simpa using hsub _ hmem

section Repeated

variable {δ : Type} {f : δ → List Token} {starts : List Kind}

/-- Parts in a row are led by one that starts a part, or by what follows them. -/
theorem leads_flatMap_eq_false (hlead : ∀ d rest, leads starts (f d ++ rest) = true)
    {kinds : List Kind} (hdisj : ∀ k ∈ starts, k ∉ kinds) {rest : List Token}
    (hrest : leads kinds rest = false) (ds : List δ) :
    leads kinds (ds.flatMap f ++ rest) = false := by
  cases ds with
  | nil => exact hrest
  | cons d ds =>
    rw [List.flatMap_cons, List.append_assoc]
    exact leads_eq_false_of_disjoint hdisj (hlead d _)

end Repeated

/-- Every expression stops before a semicolon. -/
theorem Expression.stops_semi (e : Expression) (semi : TokenOf .semi) (rest : List Token) :
    e.Stops (semi.1 :: rest) :=
  e.stops_of_ends (by simp [Ends, semi.2])

/-- The kind of a statement's first token. -/
def Statement.kind : Statement → Kind
  | .ret .. => .returnWord
  | .letIn _ => .letWord
  | .call .. => .ident

@[simp] theorem Statement.leads_tokens (kinds : List Kind) (s : Statement) (rest : List Token) :
    leads kinds (s.tokens ++ rest) = kinds.contains s.kind := by
  cases s with
  | ret word value semi => rw [Statement.kind, ← word.2]; rfl
  | letIn l => rw [Statement.kind, ← l.word.2]; rfl
  | call c semi =>
    obtain ⟨name, opening, args, closing⟩ := c
    rw [Statement.kind, ← name.2.1]; rfl

@[simp] theorem Version.leads_tokens (kinds : List Kind) (v : Version) (rest : List Token) :
    leads kinds (v.tokens ++ rest) = kinds.contains .version := by
  rw [← v.word.2]; rfl

@[simp] theorem Import.leads_tokens (kinds : List Kind) (i : Import) (rest : List Token) :
    leads kinds (i.tokens ++ rest) = kinds.contains .importWord := by
  rw [← i.word.2]; rfl

@[simp] theorem Let.leads_tokens (kinds : List Kind) (l : Let) (rest : List Token) :
    leads kinds (l.tokens ++ rest) = kinds.contains .letWord := by
  rw [← l.word.2]; rfl

theorem Function.leads_tokens (f : Function) (rest : List Token) :
    leads [.int, .void] (f.tokens ++ rest) = true := by
  have : leads [.int, .void] (f.tokens ++ rest) = [.int, .void].contains f.header.ret.1.kind := rfl
  rw [this]
  rcases f.header.ret.2 with h | h <;> rw [h] <;> rfl

/-! ## the sections of a program -/

/-- The functions of a program are led by nothing but a return type. -/
theorem leads_functions {kinds : List Kind} (hdisj : ∀ k ∈ [Kind.int, .void], k ∉ kinds)
    (fs : List Function) : leads kinds (fs.flatMap Function.tokens) = false := by
  have := leads_flatMap_eq_false Function.leads_tokens hdisj (leads_nil kinds) fs
  rwa [List.append_nil] at this

/-- The lets and functions of a program are led by nothing but a let or a return type. -/
theorem leads_lets {kinds : List Kind} (hdisj : ∀ k ∈ [Kind.letWord, .int, .void], k ∉ kinds)
    (ls : List Let) (fs : List Function) :
    leads kinds (ls.flatMap Let.tokens ++ fs.flatMap Function.tokens) = false :=
  @leads_flatMap_eq_false _ _ [.letWord] (by simp) _ (by simp_all) _
    (leads_functions (by simp_all) fs) ls

/-- Without its version, a program is led by nothing but an import, a let or a return
type. -/
theorem leads_imports {kinds : List Kind}
    (hdisj : ∀ k ∈ [Kind.importWord, .letWord, .int, .void], k ∉ kinds)
    (is : List Import) (ls : List Let) (fs : List Function) :
    leads kinds (is.flatMap Import.tokens ++
      (ls.flatMap Let.tokens ++ fs.flatMap Function.tokens)) = false :=
  @leads_flatMap_eq_false _ _ [.importWord] (by simp) _ (by simp_all) _
    (leads_lets (by simp_all) ls fs) is

end LetCall.Grammar
