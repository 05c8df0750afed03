import LetCall.Proofs.Parsing.Acceptance
import LetCall.Proofs.Source
import LetCall.Proofs.Source.Numerals

/-!
# LetCall.Proofs.Source.RoundTrip

A program that is written as source text is read back from it.  The lexer cuts the text
into the words it was written with, and those words, under the names that the parser has
for their kinds, have a derivation that stands for the program; so completeness of parsing
gives the program back.

Main statement: `parse_tokenize_of_spells`.
-/

namespace LetCall

/-! ## literals -/

/-- The quotes around a text are dropped again. -/
theorem stripQuotes_quoted {s : String} (hs : '"' ∉ s.toList) :
    Reader.stripQuotes (Word.quoted s).text = s := by
  obtain ⟨cs, rfl⟩ : ∃ cs, s = String.ofList cs := ⟨s.toList, by simp⟩
  rw [String.toList_ofList] at hs
  have hchars : ∀ c ∈ cs, (c == '"') = false := by
    intro c hc
    rw [beq_eq_false_iff_ne]
    rintro rfl
    exact hs hc
  cases cs with
  | nil => rfl
  | cons c cs =>
    have hc : (c == '"') = false := hchars c List.mem_cons_self
    have hback : (c :: cs).reverse.dropWhile (· == '"') = (c :: cs).reverse :=
      dropWhile_eq_self fun d hd => hchars d (List.mem_reverse.mp hd)
    have hback' : (c :: cs ++ ['"']).reverse.dropWhile (· == '"') = (c :: cs).reverse := by
      rw [List.reverse_append, List.reverse_singleton, List.singleton_append]
      exact hback
    simp only [Reader.stripQuotes, Word.quoted, String.toList_ofList]
    rw [List.dropWhile_cons_of_pos rfl, List.cons_append, List.dropWhile_cons_of_neg (by simp [hc]),
      ← List.cons_append, hback', List.reverse_reverse]

/-- The decimal digits of a number are read as that number. -/
theorem readInt?_decimalDigits {n : Nat} (hn : Numeric.digitCount n ≤ Numeric.digitLimit) :
    Numeric.readInt? (Numeric.decimalDigits n) = some (n : Int) := by
  have hchars : (Numeric.decimalDigits n).toList = Nat.toDigits 10 n := String.toList_ofList
  have hdigits : List.Forall₂ Text.IsDigitOf (Nat.toDigits 10 n)
      ((Nat.toDigits 10 n).map fun c => c.toNat - 48) := by
    refine List.forall₂_map_right_iff.mpr (List.forall₂_same.mpr fun c hc => ?_)
    rw [← Text.digitValue?_eq_some_iff]
    exact Text.digitValue?_of_isDigit (Nat.isDigit_of_mem_toDigits (by decide) (by decide) hc)
  have hvalue : Numeric.ofDigits ((Nat.toDigits 10 n).map fun c => c.toNat - 48) = n := by
    rw [Numeric.ofDigits, List.foldl_map]
    exact Nat.ofDigitChars_ten_toDigits
  have hlength : (Numeric.decimalDigits n).length ≤ Numeric.digitLimit := by
    rw [← String.length_toList, hchars]
    exact hn
  rw [← hchars] at hdigits
  rw [Numeric.readInt?_of_digits hdigits (by rw [hchars]; exact Nat.toDigits_ne_nil),
    if_pos hlength, ← Numeric.ofDigits_eq, hchars, hvalue]

/-! ## words for the parser -/

/-- The kind that the parser knows for one of the lexer: the words for return types and the
integer literals go under other names there. -/
def Kind.forParser : Kind → Kind
  | .intType => .int
  | .voidType => .void
  | .int => .number
  | k => k

/-- A word as the parser knows it. -/
def Word.forParser (w : Word) : Word := ⟨w.kind.forParser, w.text⟩

/-- Tokens for the parser that are occurrences of words, one of each. -/
def Occur (ts : List Token) (ws : List Word) : Prop := ts.map Token.word = ws.map Word.forParser

@[simp] theorem occur_nil {ts : List Token} : Occur ts [] ↔ ts = [] := by simp [Occur]

@[simp] theorem occur_cons {ts : List Token} {w : Word} {ws : List Word} :
    Occur ts (w :: ws) ↔ ∃ t ts', ts = t :: ts' ∧ t.word = w.forParser ∧ Occur ts' ws := by
  simp [Occur, List.map_eq_cons_iff]

@[simp] theorem occur_append {ts : List Token} {ws ws' : List Word} :
    Occur ts (ws ++ ws') ↔ ∃ a b, ts = a ++ b ∧ Occur a ws ∧ Occur b ws' := by
  simp [Occur, List.map_eq_append_iff]

/-- Wherever the words occur, they have a derivation that stands for `x`. -/
def Derives {δ ν : Type} (tokens : δ → List Token) (parsed : δ → ν) (ws : List Word) (x : ν) :
    Prop :=
  ∀ ts, Occur ts ws → ∃ d, tokens d = ts ∧ parsed d = x

theorem derives_nil {δ ν : Type} {tokens : δ → List Token} {parsed : δ → ν} (d : δ)
    (h : tokens d = []) : Derives tokens parsed [] (parsed d) := by
  intro ts hts
  rw [occur_nil] at hts
  exact ⟨d, by rw [h, hts], rfl⟩

/-- Parts in a row are derived if each of them is. -/
theorem derives_flatMap {δ ν : Type} {tokens : δ → List Token} {parsed : δ → ν}
    {f : ν → List Word} {xs : List ν} (h : ∀ x ∈ xs, Derives tokens parsed (f x) x) :
    Derives (List.flatMap tokens) (List.map parsed) (xs.flatMap f) xs := by
  induction xs with
  | nil => exact derives_nil [] rfl
  | cons x xs ih =>
    intro ts hts
    rw [List.flatMap_cons, occur_append] at hts
    obtain ⟨a, b, rfl, ha, hb⟩ := hts
    obtain ⟨d, rfl, rfl⟩ := h x List.mem_cons_self a ha
    obtain ⟨ds, rfl, hds⟩ := ih (fun y hy => h y (List.mem_cons_of_mem _ hy)) b hb
    exact ⟨d :: ds, List.flatMap_cons, by rw [List.map_cons, hds]⟩

namespace Grammar

/-- Further operands with one more behind them. -/
def Terms.snoc : Terms → Sign → Operand → Terms
  | .nil, sign, x => .cons sign x .nil
  | .cons sign' y more, sign, x => .cons sign' y (more.snoc sign x)

theorem Terms.tokens_snoc (more : Terms) (sign : Sign) (x : Operand) :
    (more.snoc sign x).tokens = more.tokens ++ sign.1 :: x.tokens := by
  cases more with
  | nil => simp [snoc, tokens]
  | cons sign' y more => simp [snoc, tokens, more.tokens_snoc sign x]

theorem Terms.node_snoc (more : Terms) (sign : Sign) (x : Operand) (left : Node) :
    (more.snoc sign x).node left = .bin sign.1.text (more.node left) x.node := by
  cases more with
  | nil => simp [snoc, node]
  | cons sign' y more => simp [snoc, node, more.node_snoc sign x]

end Grammar

open Grammar

/-- An occurrence of a word is a leaf of its kind. -/
def leaf {t : Token} {w : Word} (h : t.word = w.forParser) : TokenOf w.kind.forParser :=
  ⟨t, congrArg Word.kind h⟩

theorem text_of_word {t : Token} {w : Word} (h : t.word = w.forParser) : t.text = w.text :=
  congrArg Word.text h

/-- An occurrence of a name is no empty token. -/
theorem isName_token {t : Token} {s : String} (hs : Word.IsName s)
    (h : t.word = (Word.name s).forParser) : t.kind = .ident ∧ t.text ≠ "" := by
  have htext : t.text = s := text_of_word h
  refine ⟨congrArg Word.kind h, ?_⟩
  rw [htext]
  rintro rfl
  cases hs.1

theorem sign_token {t : Token} {op : String} (hop : op = "+" ∨ op = "-")
    (h : t.word = (Word.sign op).forParser) : (t.kind = .plus ∨ t.kind = .minus) ∧ t.text = op := by
  rcases hop with rfl | rfl
  · exact ⟨.inl (congrArg Word.kind h), text_of_word h⟩
  · exact ⟨.inr (congrArg Word.kind h), text_of_word h⟩

/-! ## expressions -/

/-- An expression is derived from its words, and as an operand where one is wanted. -/
structure Node.Derived (e : Node) : Prop where
  expression : Derives Expression.tokens Expression.node e.words e
  operand : Derives Operand.tokens Operand.node e.operandWords e

theorem Node.derived_of_operand {e : Node} (hsum : e.isSum = false)
    (h : Derives Operand.tokens Operand.node e.words e) : e.Derived := by
  refine ⟨fun ts hts => ?_, ?_⟩
  · obtain ⟨x, rfl, rfl⟩ := h ts hts
    exact ⟨.mk x .nil, by simp [Expression.tokens, Terms.tokens], rfl⟩
  · rw [Node.operandWords, hsum]
    exact h

theorem Node.derived_of_sum {e : Node} (hsum : e.isSum = true)
    (h : Derives Expression.tokens Expression.node e.words e) : e.Derived := by
  refine ⟨h, fun ts hts => ?_⟩
  simp only [Node.operandWords, hsum, if_true, Word.enclosed, occur_cons, occur_append,
    occur_nil] at hts
  obtain ⟨opening, _, rfl, hopening, _, _, rfl, hinner, closing, _, rfl, hclosing, rfl⟩ := hts
  obtain ⟨d, rfl, rfl⟩ := h _ hinner
  exact ⟨.enclosed (leaf hopening) d (leaf hclosing), rfl, rfl⟩

/-- Arguments behind the first are derived, each with its comma. -/
theorem derives_moreArguments {es : List Node}
    (h : ∀ e ∈ es, Derives Expression.tokens Expression.node e.words e) :
    Derives MoreArguments.tokens MoreArguments.nodes
      ((es.map Node.words).flatMap (Word.comma :: ·)) es := by
  induction es with
  | nil => exact derives_nil MoreArguments.nil rfl
  | cons e es ih =>
    intro ts hts
    simp only [List.map_cons, List.flatMap_cons, List.cons_append, occur_cons, occur_append] at hts
    obtain ⟨comma, _, rfl, hcomma, a, b, rfl, ha, hb⟩ := hts
    obtain ⟨d, rfl, rfl⟩ := h e List.mem_cons_self a ha
    obtain ⟨more, rfl, hmore⟩ := ih (fun e' he' => h e' (List.mem_cons_of_mem _ he')) b hb
    exact ⟨.cons (leaf hcomma) d more, rfl, congrArg (d.node :: ·) hmore⟩

theorem derives_arguments {args : List Node}
    (h : ∀ e ∈ args, Derives Expression.tokens Expression.node e.words e) :
    Derives Arguments.tokens Arguments.nodes (Word.separated (args.map Node.words)) args := by
  cases args with
  | nil => exact derives_nil Arguments.none rfl
  | cons e es =>
    intro ts hts
    simp only [List.map_cons, Word.separated, occur_append] at hts
    obtain ⟨a, b, rfl, ha, hb⟩ := hts
    obtain ⟨d, rfl, rfl⟩ := h e List.mem_cons_self a ha
    obtain ⟨more, rfl, hmore⟩ :=
      derives_moreArguments (fun e' he' => h e' (List.mem_cons_of_mem _ he')) b hb
    exact ⟨.some d more, rfl, congrArg (d.node :: ·) hmore⟩

theorem derives_call {f : String} {args : List Node} (hf : Word.IsName f)
    (h : ∀ e ∈ args, Derives Expression.tokens Expression.node e.words e) :
    Derives Call.tokens Call.node (Node.call f args).words (.call f args) := by
  intro ts hts
  simp only [Node.words_call, Word.enclosed, occur_cons, occur_append, occur_nil] at hts
  obtain ⟨name, _, rfl, hname, opening, _, rfl, hopening, _, _, rfl, hinner, closing, _, rfl,
    hclosing, rfl⟩ := hts
  obtain ⟨as, rfl, has⟩ := derives_arguments h _ hinner
  exact ⟨.mk ⟨name, isName_token hf hname⟩ (leaf hopening) as (leaf hclosing), rfl,
    congrArg₂ Node.call (text_of_word hname) has⟩

/-- A sum goes on with the derivation of its left operand. -/
theorem derives_sum {op : String} {l r : Node} (hop : op = "+" ∨ op = "-") (hl : l.Derived)
    (hr : r.Derived) :
    Derives Expression.tokens Expression.node (Node.bin op l r).words (.bin op l r) := by
  intro ts hts
  simp only [Node.words_bin, occur_cons, occur_append] at hts
  obtain ⟨_, _, rfl, hleft, t, _, rfl, ht, hright⟩ := hts
  obtain ⟨⟨first, more⟩, rfl, rfl⟩ := hl.expression _ hleft
  obtain ⟨x, rfl, rfl⟩ := hr.operand _ hright
  obtain ⟨hkind, rfl⟩ := sign_token hop ht
  refine ⟨.mk first (more.snoc ⟨t, hkind⟩ x), ?_, ?_⟩
  · simp [Expression.tokens, Terms.tokens_snoc]
  · simp [Expression.node, Terms.node_snoc]

/-- Every expression that can be written is derived from its words. -/
theorem Node.IsExpression.derived {e : Node} (h : e.IsExpression) : e.Derived := by
  -- both at once: a sum takes its left operand as an expression and its right one as an operand
  induction h with
  | @str s hs =>
    refine derived_of_operand rfl fun ts hts => ?_
    simp only [words, occur_cons, occur_nil] at hts
    obtain ⟨t, _, rfl, ht, rfl⟩ := hts
    have htext : Reader.stripQuotes t.text = s := by
      rw [text_of_word ht, stripQuotes_quoted hs]
    exact ⟨.text (leaf ht), rfl, congrArg Node.str htext⟩
  | @num n hn =>
    refine derived_of_operand rfl fun ts hts => ?_
    simp only [words, occur_cons, occur_nil] at hts
    obtain ⟨t, _, rfl, ht, rfl⟩ := hts
    have hread : Numeric.readInt? t.text = some (n : Int) := by
      rw [text_of_word ht]
      exact readInt?_decimalDigits hn
    refine ⟨.numeral ⟨t, congrArg Word.kind ht, by rw [hread]; rfl⟩, rfl, ?_⟩
    simp [Operand.node, Numeral.value, hread]
  | @var x hx =>
    refine derived_of_operand rfl fun ts hts => ?_
    simp only [words, occur_cons, occur_nil] at hts
    obtain ⟨t, _, rfl, ht, rfl⟩ := hts
    exact ⟨.name (leaf ht), rfl, congrArg Node.var (text_of_word ht)⟩
  | call hf _ ih =>
    refine derived_of_operand rfl fun ts hts => ?_
    obtain ⟨c, rfl, hc⟩ := derives_call hf (fun e he => (ih e he).expression) ts hts
    exact ⟨.call c, rfl, hc⟩
  | bin hop _ _ ihl ihr => exact derived_of_sum rfl (derives_sum hop ihl ihr)
  | neg _ ih =>
    refine derived_of_operand rfl fun ts hts => ?_
    simp only [words_un, occur_cons] at hts
    obtain ⟨t, _, rfl, ht, hinner⟩ := hts
    obtain ⟨x, rfl, rfl⟩ := ih.operand _ hinner
    exact ⟨.negated (leaf ht) x, rfl, congrArg (Node.un · x.node) (text_of_word ht)⟩

/-! ## larger parts -/

theorem Node.IsLet.derives {s : Node} (h : s.IsLet) :
    Derives Let.tokens Let.node s.statementWords s := by
  obtain ⟨hx, he⟩ := h
  intro ts hts
  simp only [Node.statementWords, occur_cons] at hts
  obtain ⟨word, _, rfl, hword, name, _, rfl, hname, assign, _, rfl, hassign, hvalue⟩ := hts
  obtain ⟨d, rfl, rfl⟩ := he.derived.expression _ hvalue
  exact ⟨⟨leaf hword, leaf hname, leaf hassign, d⟩, rfl,
    congrArg (Node.letIn · d.node) (text_of_word hname)⟩

theorem Node.IsStatement.derives {s : Node} (h : s.IsStatement) :
    Derives Statement.tokens Statement.node s.statementWords s := by
  intro ts hts
  cases h with
  | letIn hs =>
    obtain ⟨l, rfl, rfl⟩ := hs.derives ts hts
    exact ⟨.letIn l, rfl, rfl⟩
  | call he =>
    simp only [Node.statementWords, occur_cons, occur_append, occur_nil] at hts
    obtain ⟨a, _, rfl, ha, semi, _, rfl, hsemi, rfl⟩ := hts
    cases he with
    | call hf hargs =>
      obtain ⟨c, rfl, hc⟩ := derives_call hf (fun e he => (hargs e he).derived.expression) a ha
      exact ⟨.call c (leaf hsemi), rfl, hc⟩
  | ret he =>
    simp only [Node.statementWords, occur_cons, occur_append, occur_nil] at hts
    obtain ⟨word, _, rfl, hword, a, _, rfl, ha, semi, _, rfl, hsemi, rfl⟩ := hts
    obtain ⟨d, rfl, rfl⟩ := he.derived.expression a ha
    exact ⟨.ret (leaf hword) (some d) (leaf hsemi), rfl, rfl⟩
  | bareRet =>
    simp only [Node.statementWords, Node.words, List.nil_append, occur_cons, occur_nil] at hts
    obtain ⟨word, _, rfl, hword, semi, _, rfl, hsemi, rfl⟩ := hts
    exact ⟨.ret (leaf hword) none (leaf hsemi), rfl, rfl⟩

theorem Param.derives {p : Param} (h : Word.IsName p.type ∧ Word.IsName p.name) :
    Derives Parameter.tokens Parameter.parsed p.words p := by
  intro ts hts
  simp only [Param.words, occur_cons, occur_nil] at hts
  obtain ⟨type, _, rfl, htype, name, _, rfl, hname, rfl⟩ := hts
  exact ⟨⟨leaf htype, name, isName_token h.2 hname⟩, rfl,
    congrArg₂ Param.mk (text_of_word htype) (text_of_word hname)⟩

theorem derives_params {ps : List Param}
    (h : ∀ p ∈ ps, Word.IsName p.type ∧ Word.IsName p.name) :
    Derives paramsTokens paramsParsed (Word.separated (ps.map Param.words)) ps := by
  cases ps with
  | nil => exact derives_nil none rfl
  | cons p ps =>
    -- a further parameter is derived together with the comma before it
    have hone : ∀ q ∈ ps, Derives (fun d : TokenOf .comma × Parameter => d.1.1 :: d.2.tokens)
        (·.2.parsed) (Word.comma :: q.words) q := by
      intro q hq ts hts
      obtain ⟨comma, _, rfl, hcomma, hrest⟩ := occur_cons.mp hts
      obtain ⟨d, rfl, rfl⟩ := Param.derives (h q (List.mem_cons_of_mem p hq)) _ hrest
      exact ⟨(leaf hcomma, d), rfl, rfl⟩
    intro ts hts
    simp only [List.map_cons, Word.separated, List.flatMap_map, occur_append] at hts
    obtain ⟨a, b, rfl, ha, hb⟩ := hts
    obtain ⟨d, rfl, rfl⟩ := Param.derives (h p List.mem_cons_self) a ha
    obtain ⟨ds, rfl, hds⟩ := derives_flatMap hone b hb
    exact ⟨some (d, ds), rfl, congrArg (d.parsed :: ·) hds⟩

theorem returnType_token {t : Token} {ret : String}
    (hret : ret = Kind.int.name ∨ ret = Kind.void.name)
    (h : t.word = (Word.returnType ret).forParser) :
    (t.kind = .int ∨ t.kind = .void) ∧ t.kind.name = ret := by
  rcases hret with rfl | rfl
  · have hkind : t.kind = .int := congrArg Word.kind h
    simp [hkind]
  · have hkind : t.kind = .void := congrArg Word.kind h
    simp [hkind]

theorem FunctionDef.Writable.derives {f : FunctionDef} (h : f.Writable) :
    Derives Function.tokens Function.parsed f.words f := by
  obtain ⟨fname, params, ret, body⟩ := f
  intro ts hts
  simp only [FunctionDef.words, Word.enclosed, List.cons_append, List.append_assoc,
    List.nil_append, occur_cons, occur_append, occur_nil] at hts
  obtain ⟨t, _, rfl, ht, name, _, rfl, hname, opening, _, rfl, hopening, _, _, rfl, hparams,
    closing, _, rfl, hclosing, lbrace, _, rfl, hlbrace, _, _, rfl, hbody, rbrace, _, rfl,
    hrbrace, rfl⟩ := hts
  obtain ⟨hkind, rfl⟩ := returnType_token h.ret ht
  obtain ⟨ps, rfl, rfl⟩ := derives_params h.params _ hparams
  obtain ⟨ss, rfl, rfl⟩ := derives_flatMap (fun s hs => (h.body s hs).derives) _ hbody
  let header : Header :=
    ⟨⟨t, hkind⟩, ⟨name, isName_token h.name hname⟩, leaf hopening, ps, leaf hclosing, leaf hlbrace⟩
  refine ⟨⟨header, ss, leaf hrbrace⟩, ?_, ?_⟩
  · simp [header, Function.tokens, Header.tokens, leaf]
  · have htext : name.text = fname := text_of_word hname
    simp [header, Function.parsed, Header.withBody, htext]

theorem derives_version {version : Option String}
    (h : ∀ v ∈ version, v ≠ "" ∧ '"' ∉ v.toList) :
    Derives (fun d : Option Version => (d.map Version.tokens).getD []) (·.map Version.parsed)
      ((version.map versionWords).getD []) version := by
  cases version with
  | none => exact derives_nil none rfl
  | some v =>
    intro ts hts
    simp only [Option.map_some, Option.getD_some, versionWords, occur_cons, occur_nil] at hts
    obtain ⟨word, _, rfl, hword, t, _, rfl, ht, rfl⟩ := hts
    obtain ⟨hne, hquote⟩ := h v rfl
    have htext : Reader.stripQuotes t.text = v := by
      rw [text_of_word ht, stripQuotes_quoted hquote]
    refine ⟨some ⟨leaf hword, t, congrArg Word.kind ht, ?_⟩, rfl, congrArg some htext⟩
    rw [htext]
    exact hne

theorem derives_import {name : String} (h : Word.IsName name) :
    Derives Import.tokens Import.parsed (importWords name) name := by
  intro ts hts
  simp only [importWords, occur_cons, occur_nil] at hts
  obtain ⟨word, _, rfl, hword, t, _, rfl, ht, semi, _, rfl, hsemi, rfl⟩ := hts
  exact ⟨⟨leaf hword, ⟨t, isName_token h ht⟩, leaf hsemi⟩, rfl, text_of_word ht⟩

/-- Every program that can be written is derived from its words. -/
theorem Program.Writable.derives {p : Program} (h : p.Writable) :
    Derives Grammar.Program.tokens Grammar.Program.parsed p.words p := by
  obtain ⟨version, imports, functions, statements⟩ := p
  obtain ⟨names, rfl⟩ := Option.isSome_iff_exists.mp h.imported
  intro ts hts
  simp only [Program.words, occur_append] at hts
  obtain ⟨_, _, rfl, hversion, _, _, rfl, himports, _, _, rfl, hlets, hfunctions⟩ := hts
  obtain ⟨v, rfl, rfl⟩ := derives_version h.version _ hversion
  obtain ⟨is, rfl, his⟩ := derives_flatMap (fun n hn => derives_import (h.imports n hn)) _ himports
  obtain ⟨ls, rfl, rfl⟩ := derives_flatMap (fun s hs => (h.statements s hs).derives) _ hlets
  obtain ⟨fs, rfl, rfl⟩ := derives_flatMap (fun f hf => (h.functions f hf).derives) _ hfunctions
  refine ⟨⟨v, is, ls, fs⟩, rfl, ?_⟩
  have hnames : is.map Import.parsed = names := his
  simp [Grammar.Program.parsed, hnames]

/-! ## the round trip -/

/-- Under the parser's names, the tokens of a text are occurrences of its words. -/
theorem occur_rename (ts : List Token) :
    Occur (ts.map (Token.rename Kind.forParser)) (ts.map Token.word) := by
  simp [Occur, Token.rename, Token.word, Word.forParser]

/-- **Round trip of programs.**  A program that can be written has a source text.  Every
text that spells its words, with any blanks between them, is cut into tokens, and from
these, under the parser's names for their kinds, the parser reads that very program, to the
last token and without a report. -/
theorem parse_tokenize_of_spells {p : Program} (hp : p.Writable) :
    Spells p.source p.words ∧
    ∀ code, Spells code p.words →
      ∃ tokens, tokenize code = .ok tokens ∧ tokens.map Token.word = p.words ∧
        ∀ limit, Parsing.parse limit (.ofTokens (tokens.map (Token.rename Kind.forParser))) =
          .ok (some p) ⟨⟨[], tokens.length⟩, [], false⟩ := by
  refine ⟨spells_spaced p.words, fun code hcode => ?_⟩
  obtain ⟨tokens, htokens, hwords⟩ := exists_tokenize_of_spells hp.cut hcode
  refine ⟨tokens, htokens, hwords, fun limit => ?_⟩
  have hoccur := occur_rename tokens
  rw [hwords] at hoccur
  obtain ⟨d, hd, rfl⟩ := hp.derives _ hoccur
  rw [← hd, Parsing.parse_derived limit d, hd, List.length_map]

/-- A program with signs in front of numbers and of a difference, and differences to the
left and to the right of others. -/
def Program.signs : Program where
  version := some "1.0"
  imports := some ["math"]
  statements := [.letIn "a" (.un "-" (.bin "-" (.num (.int 7)) (.un "-" (.num (.int 2)))))]
  functions :=
    [⟨"main", [⟨"T", "n"⟩, ⟨"T", "k"⟩], Kind.int.name,
      [.letIn "c" (.bin "-" (.bin "-" (.var "n") (.num (.int 1)))
          (.bin "+" (.var "k") (.str "a b"))),
        .call "print" [.var "c", .call "f" []], .ret (.var "c")]⟩,
      ⟨"f", [], Kind.void.name, [.ret .absent]⟩]

theorem Program.writable_signs : Program.signs.Writable := by
  have hname : ∀ x ∈ ["T", "a", "c", "f", "k", "main", "math", "n", "print"], Word.IsName x := by
    decide
  have hnum : ∀ n < 10, Numeric.digitCount n ≤ Numeric.digitLimit := by decide
  have hglobal : (Node.un "-" (.bin "-" (.num (.int 7)) (.un "-" (.num (.int 2))))).IsExpression :=
    .neg (.bin (.inr rfl) (.num (hnum 7 (by decide))) (.neg (.num (hnum 2 (by decide)))))
  have hleft : (Node.bin "-" (.var "n") (.num (.int 1))).IsExpression :=
    .bin (.inr rfl) (.var (hname "n" (by simp))) (.num (hnum 1 (by decide)))
  have hright : (Node.bin "+" (.var "k") (.str "a b")).IsExpression :=
    .bin (.inl rfl) (.var (hname "k" (by simp))) (.str (by decide))
  have hc : (Node.var "c").IsExpression := .var (hname "c" (by simp))
  have hf : (Node.call "f" []).IsExpression := .call (hname "f" (by simp)) (by simp)
  have hprint : (Node.call "print" [.var "c", .call "f" []]).IsExpression :=
    .call (hname "print" (by simp)) (by simp [hc, hf])
  have hlet : (Node.letIn "c" (.bin "-" (.bin "-" (.var "n") (.num (.int 1)))
      (.bin "+" (.var "k") (.str "a b")))).IsLet :=
    .mk (hname "c" (by simp)) (.bin (.inr rfl) hleft hright)
  constructor
  case version => simp [signs]
  case imported => rfl
  case imports => simp [signs, hname]
  case statements =>
    have hlet : (Node.letIn "a" _).IsLet := .mk (hname "a" (by simp)) hglobal
    simp [signs, hlet]
  case functions =>
    simp only [signs, List.forall_mem_cons, List.not_mem_nil, false_imp_iff, implies_true, and_true]
    refine ⟨⟨hname "main" (by simp), .inl rfl, by simp [hname], ?_⟩,
      ⟨hname "f" (by simp), .inr rfl, by simp, ?_⟩⟩
    · simp [Node.IsStatement.letIn hlet, Node.IsStatement.call hprint, Node.IsStatement.ret hc]
    · simp [Node.IsStatement.bareRet]

/-- Its text, with single spaces, is read back. -/
theorem signs_read_back :
    Program.signs.Writable ∧
    Program.signs.source = "@version \"1.0\" import math ; let a = - ( 7 - - 2 ) " ++
      "int main ( T n , T k ) \x7b let c = n - 1 - ( k + \"a b\" ) " ++
      "print ( c , f ( ) ) ; return c ; \x7d void f ( ) \x7b return ; \x7d" ∧
    ∃ tokens, tokenize Program.signs.source = .ok tokens ∧
      Parsing.parse reportLimit (.ofTokens (tokens.map (Token.rename Kind.forParser))) =
        .ok (some Program.signs) ⟨⟨[], tokens.length⟩, [], false⟩ := by
  obtain ⟨hsource, hread⟩ := parse_tokenize_of_spells Program.writable_signs
  obtain ⟨tokens, htokens, _, hparse⟩ := hread _ hsource
  exact ⟨Program.writable_signs, by decide +kernel, tokens, htokens, hparse reportLimit⟩

end LetCall
