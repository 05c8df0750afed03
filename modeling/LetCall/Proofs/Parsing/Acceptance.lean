import LetCall.Proofs.Grammar.Unique
import LetCall.Proofs.Parsing.Termination
import LetCall.Proofs.Reading.Complete

/-!
# LetCall.Proofs.Parsing.Acceptance

The parser accepts exactly its grammar.  Soundness comes from what `parse_runs` tells of a
parser that has reported nothing: it has salvaged all parts of a program without a gap.
Completeness is shown here: the tokens of a derivation are read part by part as what they
stand for, without a report, whatever the limit is.

Main statements: `parse_derived` and `accepts_iff_derived`.
-/

namespace LetCall.Parsing

open Grammar

variable {α β : Type} (limit : Nat)

/-- A parser that has read the tokens `used` and stands before `rest`. -/
def past (p : Parser) (used rest : List Token) : Parser :=
  { p with cursor := .before rest (p.cursor.pos + used.length) }

theorem before_past (p : Parser) (used rest : List Token) : Before rest (past p used rest) := rfl

theorem past_nil {rest : List Token} {p : Parser} (hp : Before rest p) : past p [] rest = p := by
  rw [past, List.length_nil, Nat.add_zero, ← hp.cursor_eq]

theorem past_past (p : Parser) (used used' rest rest' : List Token) :
    past (past p used rest') used' rest = past p (used ++ used') rest := by
  simp only [past, Cursor.before, List.length_append, Nat.add_assoc]

/-- What a reader does with the tokens of a derivation, a parser does too. -/
theorem read_past {r : Reader α} {a : α} {used rest : List Token} {p : Parser}
    (hr : ∀ pos, r (.before (used ++ rest) pos) = .ok a (.before rest (pos + used.length)))
    (hp : Before (used ++ rest) p) : read r p = .ok a (past p used rest) := by
  have h := hr p.cursor.pos
  rw [← hp.cursor_eq] at h
  exact read_of_ok h

/-! ## loops over derived parts -/

/-- A loop reads parts that are derived one after the other: each of them as long as
`follow` holds of the tokens behind it. -/
theorem Loop.parts_derived {more : Parsing Bool} {part : Nat → Parsing α}
    {goesOn : List Token → Bool} (hl : Loop more part goesOn) {tokens : β → List Token}
    {value : β → α} (follow : List Token → Prop)
    (hpart : ∀ d rest p, follow rest → Before (tokens d ++ rest) p →
      part limit p = .ok (value d) (past p (tokens d) rest))
    (hgo : ∀ d rest, goesOn (tokens d ++ rest) = true) {rest : List Token}
    (hend : goesOn rest = false) (hfollow : ∀ ds : List β, follow (ds.flatMap tokens ++ rest))
    (ds : List β) {p : Parser} (hp : Before (ds.flatMap tokens ++ rest) p) :
    parts limit more (part limit) p =
      .ok (ds.map value) (past p (ds.flatMap tokens) rest) := by
  induction ds generalizing p with
  | nil =>
    have hrest : Before rest p := hp
    rw [hl.parts_of_not_more hrest hend, List.flatMap_nil, past_nil hrest]
    rfl
  | cons d ds ih =>
    rw [List.flatMap_cons, List.append_assoc] at hp
    have hfound : attempt limit (part limit) p = .ok (some (value d)) _ :=
      attempt_of_ok (hpart d _ p (hfollow ds) hp)
    rw [hl.parts_of_more hp (hgo d _), bind_of_ok hfound,
      bind_of_ok (ih (before_past p (tokens d) _)), past_past]
    rfl

/-! ## the parts of a program -/

theorem leads_statement (s : Statement) (rest : List Token) :
    leads Reader.statementKinds (s.tokens ++ rest) = true := by
  rw [Statement.leads_tokens]
  cases s <;> rfl

theorem bodyGoesOn_statement (s : Statement) (rest : List Token) :
    bodyGoesOn (s.tokens ++ rest) = true := by
  have hlead := leads_statement s rest
  have hbrace : leads [.rbrace] (s.tokens ++ rest) = false :=
    leads_eq_false_of_disjoint (by decide) hlead
  rw [bodyGoesOn, hbrace]
  cases h : s.tokens ++ rest with
  | nil =>
    rw [h] at hlead
    cases hlead
  | cons t ts => rfl

theorem statements_derived (body : List Statement) (brace : TokenOf .rbrace) (rest : List Token)
    {p : Parser} (hp : Before (body.flatMap Statement.tokens ++ brace.1 :: rest) p) :
    parts limit inBody (read Reader.statement) p =
      .ok (body.map Statement.node) (past p (body.flatMap Statement.tokens) (brace.1 :: rest)) := by
  have hend : bodyGoesOn (brace.1 :: rest) = false := by simp [bodyGoesOn, brace.2]
  refine loop_statements.parts_derived limit Ends ?_ bodyGoesOn_statement hend ?_ body hp
  · intro s rest p hrest hp
    exact read_past (fun pos => Reader.statement_before s rest pos hrest) hp
  · intro ds
    exact leads_flatMap_eq_false leads_statement (by decide) (by simp [brace.2]) ds

theorem body_derived (inner : List Statement) (brace : TokenOf .rbrace) (rest : List Token)
    {p : Parser} (hp : Before (inner.flatMap Statement.tokens ++ brace.1 :: rest) p) :
    body limit p = .ok (inner.map Statement.node)
      (past p (inner.flatMap Statement.tokens ++ [brace.1]) rest) := by
  have hexpect : ∀ {q : Parser}, Before (brace.1 :: rest) q →
      read (Reader.expect .rbrace) q = .ok (.token brace.1) (past q [brace.1] rest) :=
    fun hq => read_past (fun pos => Reader.expect_before brace.2 rest pos) hq
  unfold body
  rw [bind_of_ok (statements_derived limit inner brace rest hp),
    bind_of_ok (atEnd_before (before_past ..))]
  exact (bind_of_ok (hexpect (before_past ..))).trans (by rw [past_past]; rfl)

theorem function_derived (f : Function) (rest : List Token) {p : Parser}
    (hp : Before (f.tokens ++ rest) p) :
    function limit p = .ok f.parsed (past p f.tokens rest) := by
  obtain ⟨header, inner, brace⟩ := f
  have htokens : (Function.mk header inner brace).tokens ++ rest =
      header.tokens ++ (inner.flatMap Statement.tokens ++ brace.1 :: rest) := by
    simp [Function.tokens]
  rw [htokens] at hp
  have hhead := read_past (fun pos => Reader.functionHead_before header _ pos) hp
  have hbody := body_derived limit inner brace rest (before_past p header.tokens _)
  unfold function
  rw [bind_of_ok hhead]
  refine within_of_ok _ ?_
  rw [bind_of_ok hbody, past_past]
  rfl

theorem functions_derived (fs : List Function) {p : Parser}
    (hp : Before (fs.flatMap Function.tokens) p) :
    parts limit (starts [.int, .void]) (function limit) p =
      .ok (fs.map Function.parsed) (past p (fs.flatMap Function.tokens) []) := by
  rw [← List.append_nil (fs.flatMap Function.tokens)] at hp
  refine loop_functions.parts_derived limit (fun _ => True) ?_ Function.leads_tokens rfl
    (fun _ => trivial) fs hp
  intro f rest p _ hp
  exact function_derived limit f rest hp

theorem imports_derived (is : List Import) {rest : List Token}
    (hend : leads [.importWord] rest = false) {p : Parser}
    (hp : Before (is.flatMap Import.tokens ++ rest) p) :
    parts limit (starts [.importWord]) (read Reader.importDirective) p =
      .ok (is.map Import.parsed) (past p (is.flatMap Import.tokens) rest) := by
  refine loop_imports.parts_derived limit (fun _ => True) ?_ (by simp) hend (fun _ => trivial) is hp
  intro d rest p _ hp
  exact read_past (fun pos => Reader.importDirective_before d rest pos) hp

theorem lets_derived (ls : List Let) {rest : List Token} (hend : leads [.letWord] rest = false)
    (hrest : Ends rest) {p : Parser} (hp : Before (ls.flatMap Let.tokens ++ rest) p) :
    parts limit (starts [.letWord]) (read Reader.letStatement) p =
      .ok (ls.map Let.node) (past p (ls.flatMap Let.tokens) rest) := by
  have hlead : ∀ (d : Let) (rest : List Token), leads [.letWord] (d.tokens ++ rest) = true := by
    simp
  refine loop_lets.parts_derived limit Ends ?_ hlead hend ?_ ls hp
  · intro d rest p hrest hp
    exact read_past (fun pos => Reader.letStatement_before d rest pos hrest) hp
  · intro ds
    exact leads_flatMap_eq_false hlead (by decide) hrest ds

theorem leadingVersion_derived (v : Option Version) {rest : List Token}
    (hend : leads [.version] rest = false) {p : Parser}
    (hp : Before ((v.map Version.tokens).getD [] ++ rest) p) :
    leadingVersion limit p =
      .ok (v.map Version.parsed) (past p ((v.map Version.tokens).getD []) rest) := by
  unfold leadingVersion
  rw [bind_of_ok (starts_before _ hp)]
  cases v with
  | none =>
    have hrest : Before rest p := hp
    rw [Option.map_none, Option.getD_none, List.nil_append, hend, past_nil hrest]
    rfl
  | some d =>
    rw [Option.map_some, Option.getD_some] at hp ⊢
    have hlead : leads [.version] (d.tokens ++ rest) = true := by
      simp [Version.tokens, d.word.2]
    rw [hlead, if_pos rfl]
    exact attempt_of_ok (read_past (fun pos => Reader.version_before d rest pos) hp)

theorem preamble_derived (v : Option Version) (is : List Import) (ls : List Let)
    (fs : List Function) {p : Parser}
    (hp : Before ((v.map Version.tokens).getD [] ++ (is.flatMap Import.tokens ++
      (ls.flatMap Let.tokens ++ fs.flatMap Function.tokens))) p) :
    preamble limit p = .ok (v.map Version.parsed, is.map Import.parsed, ls.map Let.node)
      (past p ((v.map Version.tokens).getD [] ++ (is.flatMap Import.tokens ++
        ls.flatMap Let.tokens)) (fs.flatMap Function.tokens)) := by
  unfold preamble
  rw [bind_of_ok (leadingVersion_derived limit v (leads_imports (by decide) is ls fs) hp),
    bind_of_ok (imports_derived limit is (leads_lets (by decide) ls fs) (before_past ..)),
    bind_of_ok (lets_derived limit ls (leads_functions (by decide) fs)
      (leads_functions (by decide) fs) (before_past ..)), past_past, past_past]
  rfl

/-- **Completeness of parsing**: the tokens of a derivation are read as what it stands for,
to the last one and without a report, whatever the limit is. -/
theorem parse_derived (d : Grammar.Program) :
    parse limit (.ofTokens d.tokens) =
      .ok (some d.parsed) ⟨⟨[], d.tokens.length⟩, [], false⟩ := by
  obtain ⟨v, is, ls, fs⟩ := d
  refine parse_of_ok ?_
  unfold program
  rw [Program.tokens, bind_of_ok (preamble_derived limit v is ls fs (before_ofTokens _))]
  show (parts limit (starts [.int, .void]) (function limit) >>= _ : Parsing _) _ = _
  rw [bind_of_ok (functions_derived limit fs (before_past ..)),
    bind_of_ok (ending_of_nil (before_past ..) limit), past_past]
  simp only [past, Parser.ofTokens, Parser.ofItems, Cursor.before, List.append_assoc, Nat.zero_add]
  rfl

/-- **The parser accepts exactly its grammar.**  Parsing ends without a report if and only
if the tokens are derived as a program.  Then the derivation is unique, the program that
comes out is what it stands for, and no token is left. -/
theorem accepts_iff_derived (tokens : List Token) (limit : Nat) :
    ((∃ r p, parse limit (.ofTokens tokens) = .ok r p ∧ p.reports = []) ↔
      ∃ d : Grammar.Program, d.tokens = tokens) ∧
    ∀ d : Grammar.Program, d.tokens = tokens →
      parse limit (.ofTokens tokens) = .ok (some d.parsed) ⟨⟨[], tokens.length⟩, [], false⟩ ∧
      ∀ d' : Grammar.Program, d'.tokens = tokens → d' = d := by
  refine ⟨⟨?_, ?_⟩, ?_⟩
  · rintro ⟨r, p, hparse, hreports⟩
    rcases parse_runs tokens with ⟨prog, q, hsettles, _, hderived⟩ | ⟨s, r', hstalls, _⟩
    · obtain ⟨_, rfl, _⟩ := hsettles.eq_of_ok limit hparse
      obtain ⟨d, hd, _⟩ := hderived (by rw [hreports]; rfl)
      exact ⟨d, hd⟩
    · obtain ⟨q, hq⟩ := hstalls.exists_abandoned limit
      rw [hq] at hparse
      cases hparse
  · rintro ⟨d, rfl⟩
    exact ⟨_, _, parse_derived limit d, rfl⟩
  · rintro d rfl
    exact ⟨parse_derived limit d, fun d' hd' => Program.eq_of_tokens hd'⟩

/-- The derivation of a function that gives back a difference of a difference. -/
def differences : Grammar.Program :=
  let value : Expression :=
    .mk (.name ⟨⟨.ident, "a", 2, 8⟩, rfl⟩)
      (.cons ⟨⟨.minus, "-", 2, 10⟩, .inr rfl⟩ (.name ⟨⟨.ident, "b", 2, 12⟩, rfl⟩)
        (.cons ⟨⟨.minus, "-", 2, 14⟩, .inr rfl⟩
          (.numeral ⟨⟨.number, "1", 2, 16⟩, rfl, by decide⟩) .nil))
  let header : Header :=
    ⟨⟨⟨.int, "int", 1, 1⟩, .inl rfl⟩, ⟨⟨.ident, "main", 1, 5⟩, rfl, by decide⟩,
      ⟨⟨.lparen, "(", 1, 9⟩, rfl⟩, none, ⟨⟨.rparen, ")", 1, 10⟩, rfl⟩,
      ⟨⟨.lbrace, "\x7b", 1, 12⟩, rfl⟩⟩
  let ret : Statement :=
    .ret ⟨⟨.returnWord, "return", 2, 1⟩, rfl⟩ (some value) ⟨⟨.semi, ";", 2, 17⟩, rfl⟩
  ⟨none, [], [], [⟨header, [ret], ⟨⟨.rbrace, "\x7d", 3, 1⟩, rfl⟩⟩]⟩

/-- The left difference is the operand of the right one. -/
theorem differences_lean_left :
    ∃ tokens, differences.tokens = tokens ∧ tokens.length = 13 ∧
      parse reportLimit (.ofTokens tokens) =
        .ok (some { functions := [⟨"main", [], Kind.int.name,
            [.ret (.bin "-" (.bin "-" (.var "a") (.var "b")) (.num (.int 1)))]⟩] })
          ⟨⟨[], 13⟩, [], false⟩ :=
  ⟨_, rfl, rfl, ((accepts_iff_derived differences.tokens reportLimit).2 _ rfl).1⟩

end LetCall.Parsing
