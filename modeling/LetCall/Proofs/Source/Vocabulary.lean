import LetCall.Proofs.Lexing.Kinds
import LetCall.Proofs.Parsing.Termination

/-!
# LetCall.Proofs.Source.Vocabulary

What a program can be made of that is read from a source.  The lexer and the parser do not
agree on all kinds of token: there is no token that the parser would take for a number, and
what it takes for the return type of a function is an integer.  So programs read from a
source are plain (`Program.Plain`): they have no numbers, no operators but plus and minus,
and no names that begin with a reserved word.

Main statement: `plain_of_parse`, for every text and also where errors were recovered from.
-/

namespace LetCall

/-! ## plain programs -/

/-- Nodes without numbers, with plus and minus for operators, and with names that do not
begin with a reserved word. -/
inductive Node.Plain : Node → Prop
  | absent : Plain .absent
  | str (s : String) : Plain (.str s)
  | var {name : String} (h : Unreserved name) : Plain (.var name)
  | call {name : String} {args : List Node} (h : Unreserved name) (hargs : ∀ n ∈ args, Plain n) :
      Plain (.call name args)
  | bin {op : String} {left right : Node} (h : op = "+" ∨ op = "-") (hleft : Plain left)
      (hright : Plain right) : Plain (.bin op left right)
  | un {operand : Node} (h : Plain operand) : Plain (.un "-" operand)
  | letIn {name : String} {value : Node} (h : Unreserved name) (hvalue : Plain value) :
      Plain (.letIn name value)
  | ret {value : Node} (h : Plain value) : Plain (.ret value)

/-- Functions declared by an integer, with plain bodies and names that do not begin with a
reserved word. -/
structure FunctionDef.Plain (f : FunctionDef) : Prop where
  ret : f.ret = "INT"
  name : Unreserved f.name
  params : ∀ p ∈ f.params, Unreserved p.type ∧ Unreserved p.name
  body : ∀ n ∈ f.body, n.Plain

/-- Programs that are plain in all their parts. -/
structure Program.Plain (p : Program) : Prop where
  imports : ∃ names, p.imports = some names ∧ ∀ name ∈ names, Unreserved name
  statements : ∀ n ∈ p.statements, n.Plain
  functions : ∀ f ∈ p.functions, f.Plain

namespace Grammar

/-! ## trees of lexed tokens -/

-- by recursion on the tree; the tokens of a part are among those of the whole
mutual

theorem Operand.plain (x : Operand) (h : ∀ t ∈ x.tokens, t.Lexed) : x.node.Plain := by
  cases x with
  | negated sign x =>
    simp only [Operand.tokens, List.forall_mem_cons] at h
    rw [Operand.node, h.1.minus sign.2]
    exact .un (Operand.plain x h.2)
  | text t => exact .str _
  | numeral t =>
    simp only [Operand.tokens, List.forall_mem_singleton] at h
    exact (h.ne_number t.2.1).elim
  | name t =>
    simp only [Operand.tokens, List.forall_mem_singleton] at h
    exact .var (h.unreserved t.2)
  | call c => exact Call.plain c h
  | enclosed opening e closing =>
    simp only [Operand.tokens, List.forall_mem_cons, List.forall_mem_append] at h
    exact Expression.plain e h.2.1
termination_by structural x

theorem Expression.plain (e : Expression) (h : ∀ t ∈ e.tokens, t.Lexed) : e.node.Plain := by
  obtain ⟨first, more⟩ := e
  simp only [Expression.tokens, List.forall_mem_append] at h
  exact Terms.plain more h.2 (Operand.plain first h.1)
termination_by structural e

theorem Terms.plain (m : Terms) (h : ∀ t ∈ m.tokens, t.Lexed) {left : Node}
    (hleft : left.Plain) : (m.node left).Plain := by
  cases m with
  | nil => exact hleft
  | cons sign x more =>
    simp only [Terms.tokens, List.forall_mem_cons, List.forall_mem_append] at h
    have hsign : sign.1.text = "+" ∨ sign.1.text = "-" := sign.2.imp h.1.plus h.1.minus
    exact Terms.plain more h.2.2 (.bin hsign hleft (Operand.plain x h.2.1))
termination_by structural m

theorem Call.plain (c : Call) (h : ∀ t ∈ c.tokens, t.Lexed) : c.node.Plain := by
  obtain ⟨name, opening, args, closing⟩ := c
  simp only [Call.tokens, List.forall_mem_cons, List.forall_mem_append] at h
  exact .call (h.1.unreserved name.2.1) (Arguments.plain args h.2.2.1)
termination_by structural c

theorem Arguments.plain (args : Arguments) (h : ∀ t ∈ args.tokens, t.Lexed) :
    ∀ n ∈ args.nodes, n.Plain := by
  cases args with
  | none => simp [Arguments.nodes]
  | some first more =>
    simp only [Arguments.tokens, List.forall_mem_append] at h
    simp only [Arguments.nodes, List.forall_mem_cons]
    exact ⟨Expression.plain first h.1, MoreArguments.plain more h.2⟩
termination_by structural args

theorem MoreArguments.plain (more : MoreArguments) (h : ∀ t ∈ more.tokens, t.Lexed) :
    ∀ n ∈ more.nodes, n.Plain := by
  cases more with
  | nil => simp [MoreArguments.nodes]
  | cons comma e more =>
    simp only [MoreArguments.tokens, List.forall_mem_cons, List.forall_mem_append] at h
    simp only [MoreArguments.nodes, List.forall_mem_cons]
    exact ⟨Expression.plain e h.2.1, MoreArguments.plain more h.2.2⟩
termination_by structural more

end

theorem Let.plain (l : Let) (h : ∀ t ∈ l.tokens, t.Lexed) : l.node.Plain := by
  simp only [Let.tokens, List.forall_mem_cons] at h
  exact .letIn (h.2.1.unreserved l.name.2) (l.value.plain h.2.2.2)

theorem Statement.plain (s : Statement) (h : ∀ t ∈ s.tokens, t.Lexed) : s.node.Plain := by
  cases s with
  | ret word value semi =>
    cases value with
    | none => exact .ret .absent
    | some e =>
      simp only [Statement.tokens, Option.map_some, Option.getD_some, List.forall_mem_cons,
        List.forall_mem_append] at h
      exact .ret (e.plain h.2.1)
  | letIn l => exact l.plain h
  | call c semi =>
    simp only [Statement.tokens, List.forall_mem_append] at h
    exact c.plain h.1

theorem Parameter.plain (p : Parameter) (h : ∀ t ∈ p.tokens, t.Lexed) :
    Unreserved p.parsed.type ∧ Unreserved p.parsed.name := by
  simp only [Parameter.tokens, List.forall_mem_cons] at h
  exact ⟨h.1.unreserved p.type.2, h.2.1.unreserved p.name.2.1⟩

theorem paramsParsed_plain (params : Option (Parameter × List (TokenOf .comma × Parameter)))
    (h : ∀ t ∈ paramsTokens params, t.Lexed) :
    ∀ p ∈ paramsParsed params, Unreserved p.type ∧ Unreserved p.name := by
  cases params with
  | none => simp [paramsParsed]
  | some ps =>
    obtain ⟨first, more⟩ := ps
    simp only [paramsTokens, List.forall_mem_append] at h
    simp only [paramsParsed, List.forall_mem_cons]
    refine ⟨first.plain h.1, fun p hp => ?_⟩
    obtain ⟨⟨comma, p⟩, hmem, rfl⟩ := List.mem_map.mp hp
    refine p.plain fun t ht => h.2 t (List.mem_flatMap.mpr ⟨_, hmem, ?_⟩)
    exact List.mem_cons_of_mem _ ht

/-- A head of lexed tokens makes a plain function of a plain body, and starts with digits. -/
theorem Header.plain (h : Header) (htokens : ∀ t ∈ h.tokens, t.Lexed) {body : List Node}
    (hbody : ∀ n ∈ body, n.Plain) :
    (h.withBody body).Plain ∧ Pattern.IsRun Text.isDigit h.ret.1.text.toList := by
  simp only [Header.tokens, List.forall_mem_cons, List.forall_mem_append] at htokens
  obtain ⟨hret, hname, _, hparams, _⟩ := htokens
  have hint : h.ret.1.kind = .int := h.ret.2.resolve_right hret.ne_void
  refine ⟨⟨?_, hname.unreserved h.name.2.1, paramsParsed_plain h.params hparams, hbody⟩,
    hret.digits hint⟩
  rw [Header.withBody, hint]
  rfl

end Grammar

namespace Parsing

open Grammar

/-! ## programs read from a source -/

/-- Every part that was salvaged was read from tokens of its own. -/
theorem Salvaged.exists_segment {α : Type} {P : Nat → List Token → α → Prop} {n : Nat}
    {used : List Token} {as : List α} (h : Salvaged P n used as) {a : α} (ha : a ∈ as) :
    ∃ m before part after, used = before ++ (part ++ after) ∧ P m part a := by
  induction h with
  | nil => cases ha
  | @turn n m used used' found as hturn hs ih =>
    rcases List.mem_append.mp ha with ha | ha
    · cases found with
      | none => cases ha
      | some a' =>
        obtain rfl := List.mem_singleton.mp ha
        exact ⟨n, [], used, used', rfl, hturn⟩
    · obtain ⟨k, before, part, after, rfl, hpart⟩ := ih ha
      exact ⟨k, used ++ before, part, after, by simp, hpart⟩

theorem IsFunction.plain {n : Nat} {used : List Token} {f : FunctionDef} (h : IsFunction n used f)
    (hused : ∀ t ∈ used, t.Lexed) :
    f.Plain ∧ ∃ (header : Header) (rest : List Token), used = header.tokens ++ rest ∧
      f = header.withBody f.body ∧ Pattern.IsRun Text.isDigit header.ret.1.text.toList := by
  obtain ⟨header, inner, brace, nodes, rfl, hsalvaged, _, rfl⟩ := h
  simp only [List.forall_mem_append] at hused
  obtain ⟨hheader, hinner, _⟩ := hused
  have hnodes : ∀ e ∈ nodes, e.Plain := by
    intro e he
    obtain ⟨_, before, part, after, rfl, _, s, rfl, rfl⟩ := hsalvaged.exists_segment he
    simp only [List.forall_mem_append] at hinner
    exact s.plain hinner.2.1
  obtain ⟨hplain, hdigits⟩ := header.plain hheader hnodes
  exact ⟨hplain, header, _, rfl, rfl, hdigits⟩

/-- A program read from lexed tokens is plain, and the heads of its functions start with
digits. -/
theorem plain_of_parse {tokens : List Token} (hlexed : ∀ t ∈ tokens, t.Lexed) {limit : Nat}
    {r : Option LetCall.Program} {q : Parser} (h : parse limit (.ofTokens tokens) = .ok r q) :
    ∃ prog, r = some prog ∧ prog.Plain ∧ ∀ f ∈ prog.functions,
      ∃ (header : Header) (before after : List Token), tokens = before ++ (header.tokens ++ after) ∧
        f = header.withBody f.body ∧ Pattern.IsRun Text.isDigit header.ret.1.text.toList := by
  obtain ⟨prog, rfl, hprogram⟩ := isProgram_of_parse h
  obtain ⟨_, _, _, used₁, used₂, rest, names, _, rfl, hpreamble, hnames, hfunctions, _⟩ := hprogram
  obtain ⟨_, _, _, usedV, usedI, usedL, _, rfl, _, himports, hlets⟩ := hpreamble
  simp only [List.forall_mem_append] at hlexed
  obtain ⟨⟨_, himportTokens, hletTokens⟩, hfunctionTokens, _⟩ := hlexed
  refine ⟨prog, rfl, ⟨⟨names, hnames, fun name hname => ?_⟩, fun e he => ?_, fun f hf => ?_⟩,
    fun f hf => ?_⟩
  · obtain ⟨_, before, part, after, rfl, _, d, rfl, rfl⟩ := himports.exists_segment hname
    simp only [List.forall_mem_append, Import.tokens, List.forall_mem_cons] at himportTokens
    exact himportTokens.2.1.2.1.unreserved d.name.2.1
  · obtain ⟨_, before, part, after, rfl, _, d, rfl, rfl⟩ := hlets.exists_segment he
    simp only [List.forall_mem_append] at hletTokens
    exact d.plain hletTokens.2.1
  · obtain ⟨_, before, part, after, rfl, hfunction⟩ := hfunctions.exists_segment hf
    simp only [List.forall_mem_append] at hfunctionTokens
    exact (hfunction.plain hfunctionTokens.2.1).1
  · obtain ⟨_, before, part, after, rfl, hfunction⟩ := hfunctions.exists_segment hf
    simp only [List.forall_mem_append] at hfunctionTokens
    obtain ⟨_, header, inner, rfl, hbody, hdigits⟩ := hfunction.plain hfunctionTokens.2.1
    exact ⟨header, (usedV ++ (usedI ++ usedL)) ++ before, inner ++ (after ++ rest), by simp, hbody,
      hdigits⟩

end Parsing

end LetCall
