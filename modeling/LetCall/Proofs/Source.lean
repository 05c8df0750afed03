import LetCall.Numeric.Written
import LetCall.Proofs.Lexing
import LetCall.Tree

/-!
# LetCall.Proofs.Source

Programs as source text: the words a tree is written with, from left to right.

Sums lean to the left, so a sum is put in parentheses exactly where it is the right operand
of another or stands under a minus sign.  A let has no end mark; calls and returns end in
a semicolon.

Main definitions: `Program.words`, and `Program.Writable`, which says that all names,
texts and numbers of a program can be written.  Main statement: every word of a writable
program is cut off whole (`Program.Writable.cut`).
-/

namespace LetCall

/-! ## words -/

namespace Word

def comma : Word := ⟨.comma, ","⟩

def semi : Word := ⟨.semi, ";"⟩

def name (s : String) : Word := ⟨.ident, s⟩

/-- The word of a sign between two operands. -/
def sign (op : String) : Word := if op = "+" then ⟨.plus, "+"⟩ else ⟨.minus, "-"⟩

/-- The word of a return type, which is kept under the name of its kind. -/
def returnType (ret : String) : Word :=
  if ret = Kind.int.name then ⟨.intType, "int"⟩ else ⟨.voidType, "void"⟩

/-- Words in parentheses. -/
def enclosed (ws : List Word) : List Word := ⟨.lparen, "("⟩ :: (ws ++ [⟨.rparen, ")"⟩])

/-- Pieces with commas between them. -/
def separated : List (List Word) → List Word
  | [] => []
  | ws :: more => ws ++ more.flatMap (comma :: ·)

end Word

/-- Whether a node is a sum or a difference. -/
def Node.isSum : Node → Bool
  | .bin .. => true
  | _ => false

mutual

/-- The words of an expression. -/
def Node.words : Node → List Word
  | .str s => [.quoted s]
  | .num (.int n) => [.decimal n.toNat]
  | .var x => [.name x]
  | .call f args => .name f :: Word.enclosed (Word.separated (Node.wordsOfAll args))
  | .bin op l r => l.words ++ .sign op :: if r.isSum then Word.enclosed r.words else r.words
  | .un _ x => .sign "-" :: if x.isSum then Word.enclosed x.words else x.words
  | _ => []

/-- The words of each of some expressions. -/
def Node.wordsOfAll : List Node → List (List Word)
  | [] => []
  | e :: es => e.words :: Node.wordsOfAll es

end

theorem Node.wordsOfAll_eq (es : List Node) : Node.wordsOfAll es = es.map Node.words := by
  induction es with
  | nil => rfl
  | cons e es ih => rw [wordsOfAll, ih, List.map_cons]

/-- The words of an expression where an operand is wanted. -/
def Node.operandWords (e : Node) : List Word := if e.isSum then Word.enclosed e.words else e.words

/-- The words of a statement. -/
def Node.statementWords : Node → List Word
  | .letIn x e => ⟨.letWord, "let"⟩ :: .name x :: ⟨.assign, "="⟩ :: e.words
  | .ret e => ⟨.returnWord, "return"⟩ :: (e.words ++ [.semi])
  | e => e.words ++ [.semi]

def Param.words (p : Param) : List Word := [.name p.type, .name p.name]

/-- The words of a function. -/
def FunctionDef.words (f : FunctionDef) : List Word :=
  .returnType f.ret :: .name f.name :: (Word.enclosed (Word.separated (f.params.map Param.words)) ++
    ⟨.lbrace, "\x7b"⟩ :: (f.body.flatMap Node.statementWords ++ [⟨.rbrace, "\x7d"⟩]))

def importWords (name : String) : List Word := [⟨.importWord, "import"⟩, .name name, .semi]

def versionWords (v : String) : List Word := [⟨.version, "@version"⟩, .quoted v]

/-- The words of a program. -/
def Program.words (p : Program) : List Word :=
  (p.version.map versionWords).getD [] ++ ((p.imports.getD []).flatMap importWords ++
    (p.statements.flatMap Node.statementWords ++ p.functions.flatMap FunctionDef.words))

/-- The text of a program with one space between any two words. -/
def Program.source (p : Program) : String := String.ofList (spaced p.words)

/-! ## trees that can be written -/

/-- Expressions whose names, texts and numbers can be written. -/
inductive Node.IsExpression : Node → Prop
  | str {s : String} (hs : '"' ∉ s.toList) : IsExpression (.str s)
  | num {n : Nat} (hn : Numeric.digitCount n ≤ Numeric.digitLimit) : IsExpression (.num (.int n))
  | var {x : String} (hx : Word.IsName x) : IsExpression (.var x)
  | call {f : String} {args : List Node} (hf : Word.IsName f)
      (hargs : ∀ e ∈ args, IsExpression e) : IsExpression (.call f args)
  | bin {op : String} {l r : Node} (hop : op = "+" ∨ op = "-") (hl : IsExpression l)
      (hr : IsExpression r) : IsExpression (.bin op l r)
  | neg {x : Node} (hx : IsExpression x) : IsExpression (.un "-" x)

/-- Lets that can be written. -/
inductive Node.IsLet : Node → Prop
  | mk {x : String} {e : Node} (hx : Word.IsName x) (he : e.IsExpression) : IsLet (.letIn x e)

/-- Statements of function bodies that can be written. -/
inductive Node.IsStatement : Node → Prop
  | letIn {s : Node} (hs : s.IsLet) : IsStatement s
  | call {f : String} {args : List Node} (he : (Node.call f args).IsExpression) :
      IsStatement (.call f args)
  | ret {e : Node} (he : e.IsExpression) : IsStatement (.ret e)
  | bareRet : IsStatement (.ret .absent)

/-- Functions that can be written. -/
structure FunctionDef.Writable (f : FunctionDef) : Prop where
  name : Word.IsName f.name
  ret : f.ret = Kind.int.name ∨ f.ret = Kind.void.name
  params : ∀ p ∈ f.params, Word.IsName p.type ∧ Word.IsName p.name
  body : ∀ s ∈ f.body, s.IsStatement

/-- Programs that can be written. -/
structure Program.Writable (p : Program) : Prop where
  version : ∀ v ∈ p.version, v ≠ "" ∧ '"' ∉ v.toList
  imported : p.imports.isSome = true
  imports : ∀ name ∈ p.imports.getD [], Word.IsName name
  statements : ∀ s ∈ p.statements, s.IsLet
  functions : ∀ f ∈ p.functions, f.Writable

/-! ## the words are cut off whole -/

/-- Each of the words is cut off whole. -/
def AllCut (ws : List Word) : Prop := ∀ w ∈ ws, w.Cut

@[simp] theorem allCut_nil : AllCut [] := by simp [AllCut]

@[simp] theorem allCut_cons {w : Word} {ws : List Word} :
    AllCut (w :: ws) ↔ w.Cut ∧ AllCut ws := List.forall_mem_cons

@[simp] theorem allCut_append {ws ws' : List Word} :
    AllCut (ws ++ ws') ↔ AllCut ws ∧ AllCut ws' := List.forall_mem_append

theorem allCut_flatMap {α : Type} {f : α → List Word} {as : List α}
    (h : ∀ a ∈ as, AllCut (f a)) : AllCut (as.flatMap f) := by
  intro w hw
  obtain ⟨a, ha, hw⟩ := List.mem_flatMap.mp hw
  exact h a ha w hw

namespace Word

theorem cut_sign (op : String) : (sign op).Cut := by
  unfold sign
  split <;> exact cut_fixed (by decide)

theorem cut_returnType (ret : String) : (returnType ret).Cut := by
  unfold returnType
  split <;> exact cut_fixed (by decide)

theorem allCut_enclosed {ws : List Word} (h : AllCut ws) : AllCut (enclosed ws) := by
  have hopen : (Word.mk .lparen "(").Cut := cut_fixed (by decide)
  have hclose : (Word.mk .rparen ")").Cut := cut_fixed (by decide)
  simp [enclosed, h, hopen, hclose]

theorem allCut_separated {pieces : List (List Word)} (h : ∀ ws ∈ pieces, AllCut ws) :
    AllCut (separated pieces) := by
  cases pieces with
  | nil => simp [separated]
  | cons ws more =>
    have hmore : AllCut (more.flatMap (comma :: ·)) := by
      refine allCut_flatMap fun ws' hws' => ?_
      rw [allCut_cons]
      exact ⟨cut_fixed (by decide), h ws' (List.mem_cons_of_mem ws hws')⟩
    rw [separated, allCut_append]
    exact ⟨h ws List.mem_cons_self, hmore⟩

end Word

namespace Node

theorem allCut_operandWords {e : Node} (h : AllCut e.words) : AllCut e.operandWords := by
  unfold operandWords
  split
  · exact Word.allCut_enclosed h
  · exact h

theorem words_bin (op : String) (l r : Node) :
    (Node.bin op l r).words = l.words ++ .sign op :: r.operandWords := by
  rw [words, operandWords]

theorem words_un (op : String) (x : Node) : (Node.un op x).words = .sign "-" :: x.operandWords := by
  rw [words, operandWords]

theorem words_call (f : String) (args : List Node) :
    (Node.call f args).words = .name f :: Word.enclosed (Word.separated (args.map words)) := by
  rw [words, wordsOfAll_eq]

theorem IsExpression.cut {e : Node} (h : e.IsExpression) : AllCut e.words := by
  induction h with
  | str hs => simp [words, Word.cut_quoted hs]
  | num hn => simp [words, Word.cut_decimal]
  | var hx => simp [words, Word.name, Word.cut_name hx]
  | @call f args hf _ ih =>
    have hargs : AllCut (Word.separated (args.map words)) := by
      apply Word.allCut_separated
      simpa using ih
    rw [words_call, allCut_cons]
    exact ⟨Word.cut_name hf, Word.allCut_enclosed hargs⟩
  | bin _ _ _ ihl ihr =>
    rw [words_bin, allCut_append, allCut_cons]
    exact ⟨ihl, Word.cut_sign _, allCut_operandWords ihr⟩
  | neg _ ih =>
    rw [words_un, allCut_cons]
    exact ⟨Word.cut_sign _, allCut_operandWords ih⟩

theorem IsLet.cut {s : Node} (h : s.IsLet) : AllCut s.statementWords := by
  obtain ⟨hx, he⟩ := h
  have hword : (Word.mk .letWord "let").Cut := Word.cut_fixed (by decide)
  have hassign : (Word.mk .assign "=").Cut := Word.cut_fixed (by decide)
  simp [statementWords, hword, hassign, Word.name, Word.cut_name hx, he.cut]

theorem IsStatement.cut {s : Node} (h : s.IsStatement) : AllCut s.statementWords := by
  have hword : (Word.mk .returnWord "return").Cut := Word.cut_fixed (by decide)
  have hsemi : Word.semi.Cut := Word.cut_fixed (by decide)
  cases h with
  | letIn hs => exact hs.cut
  | call he => simp [statementWords, he.cut, hsemi]
  | ret he => simp [statementWords, he.cut, hword, hsemi]
  | bareRet => simp [statementWords, words, hword, hsemi]

end Node

theorem FunctionDef.Writable.cut {f : FunctionDef} (h : f.Writable) : AllCut f.words := by
  have hopen : (Word.mk .lbrace "\x7b").Cut := Word.cut_fixed (by decide)
  have hclose : (Word.mk .rbrace "\x7d").Cut := Word.cut_fixed (by decide)
  have hparams : AllCut (Word.separated (f.params.map Param.words)) := by
    refine Word.allCut_separated fun ws hws => ?_
    obtain ⟨p, hp, rfl⟩ := List.mem_map.mp hws
    simp [Param.words, Word.name, Word.cut_name (h.params p hp).1, Word.cut_name (h.params p hp).2]
  have hbody : AllCut (f.body.flatMap Node.statementWords) :=
    allCut_flatMap fun s hs => (h.body s hs).cut
  simp [words, Word.cut_returnType, Word.name, Word.cut_name h.name, Word.allCut_enclosed hparams,
    hopen, hclose, hbody]

/-- Every word of a program that can be written is cut off whole. -/
theorem Program.Writable.cut {p : Program} (h : p.Writable) : AllCut p.words := by
  have hversion : AllCut ((p.version.map versionWords).getD []) := by
    have hword : (Word.mk .version "@version").Cut := Word.cut_fixed (by decide)
    cases hv : p.version with
    | none => simp
    | some v => simp [versionWords, hword, Word.cut_quoted (h.version v hv).2]
  have himports : AllCut ((p.imports.getD []).flatMap importWords) := by
    have hword : (Word.mk .importWord "import").Cut := Word.cut_fixed (by decide)
    have hsemi : Word.semi.Cut := Word.cut_fixed (by decide)
    refine allCut_flatMap fun name hname => ?_
    simp [importWords, hword, hsemi, Word.name, Word.cut_name (h.imports name hname)]
  have hlets : AllCut (p.statements.flatMap Node.statementWords) :=
    allCut_flatMap fun s hs => (h.statements s hs).cut
  have hfunctions : AllCut (p.functions.flatMap FunctionDef.words) :=
    allCut_flatMap fun f hf => (h.functions f hf).cut
  simp [words, hversion, himports, hlets, hfunctions]

end LetCall
