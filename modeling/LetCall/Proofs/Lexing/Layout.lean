import LetCall.Proofs.Lexing.Seams

/-!
# LetCall.Proofs.Lexing.Layout

How the tokens of a text lie in it.  A text is laid out as blanks, lexemes that leave a
token, and single characters at which no rule fits (`Laid`), and lexing follows such a
layout from left to right, whatever the text (`recover_laid`).

Main statement: the tokens of a text and the blanks around them make up the whole text, and
each token carries the line and the column at which it stands in it
(`tokenize_loses_nothing`).
-/

namespace LetCall

/-! ## places in a text -/

/-- The line on which a text goes on behind `before`. -/
def lineAfter (before : List Char) : Nat := 1 + before.count '\n'

/-- The column at which a text goes on behind `before`: one more than there are characters
behind the last line feed. -/
def columnAfter (before : List Char) : Nat := 1 + (before.reverse.takeWhile (· != '\n')).length

theorem line_advanceAll_start (cs : List Char) :
    (Position.start.advanceAll cs).line = lineAfter cs :=
  Position.line_advanceAll _ cs

theorem offset_advanceAll_start (cs : List Char) :
    (Position.start.advanceAll cs).offset = cs.length := by
  simp [Position.offset_advanceAll, Position.start]

theorem column_advanceAll_start (cs : List Char) :
    (Position.start.advanceAll cs).column = columnAfter cs := by
  -- the last character decides whether a new line begins, so the induction is from the back
  have hback : ∀ rs : List Char, (Position.start.advanceAll rs.reverse).column =
      1 + (rs.takeWhile (· != '\n')).length := by
    intro rs
    induction rs with
    | nil => rfl
    | cons c rs ih =>
      rw [List.reverse_cons, Position.advanceAll_append, Position.advanceAll_cons,
        Position.advanceAll_nil, Position.advance]
      by_cases hc : c = '\n'
      · simp [hc]
      · simp [hc, ih]
        omega
  rw [columnAfter, ← hback, List.reverse_reverse]

/-- A token stands behind `before` in a text. -/
def Token.StandsAfter (t : Token) (before : List Char) : Prop :=
  t.line = lineAfter before ∧ t.column = columnAfter before

/-! ## layouts -/

/-- A text that stands behind `before`, as the lexer sees it: blanks, lexemes that leave a
token, and characters at which no rule fits. -/
inductive Laid : List Char → List Char → List Token → List LexError → Prop
  | nil (before : List Char) : Laid before [] [] []
  | blank {before gap cs : List Char} {tokens : List Token} {errors : List LexError}
      (hgap : AllBlank gap) (h : Laid (before ++ gap) cs tokens errors) :
      Laid before (gap ++ cs) tokens errors
  | token {before cs : List Char} {tokens : List Token} {errors : List LexError} (t : Token)
      (hlexeme : lexeme? (t.text.toList ++ cs) = some ⟨t.kind, t.text.toList, cs⟩)
      (hkept : t.kind.isLayout = false) (hplace : t.StandsAfter before)
      (h : Laid (before ++ t.text.toList) cs tokens errors) :
      Laid before (t.text.toList ++ cs) (t :: tokens) errors
  | error {before cs : List Char} {tokens : List Token} {errors : List LexError} (c : Char)
      (hnone : lexeme? (c :: cs) = none) (h : Laid (before ++ [c]) cs tokens errors) :
      Laid before (c :: cs) tokens (.here (Position.start.advanceAll before) c cs :: errors)

/-- The lexemes that leave no token are made of blanks: comments are never found. -/
theorem allBlank_of_isLayout {cs : List Char} {x : Lexeme} (h : lexeme? cs = some x)
    (hlayout : x.kind.isLayout = true) : AllBlank x.chars := by
  have hrules : ∀ r ∈ rules, r.kind.isLayout = true →
      r.pattern = .blanks ∨ r.pattern = .lineComment := by
    simp [rules, Kind.isLayout]
  obtain ⟨_, r, hkind, hwins⟩ := lexeme?_eq_some_iff.mp h
  rw [← hkind] at hlayout
  have hshape := hwins.shape
  rcases hrules r hwins.mem hlayout with hp | hp
  · rw [hp] at hshape
    exact hshape.2
  · exact (hwins.ne_lineComment hp).elim

/-- Lexing follows a layout of the text. -/
theorem recoverFrom_laid {p : Position} {before : List Char}
    (hp : p = Position.start.advanceAll before) (cs : List Char) :
    Laid before cs (recoverFrom p cs).1 (recoverFrom p cs).2 := by
  fun_induction recoverFrom p cs generalizing before with
  | case1 p => exact .nil before
  | case2 p c cs hnone tokens errors hrest ih =>
    have hbehind : p.advance c = Position.start.advanceAll (before ++ [c]) := by
      rw [hp, Position.advanceAll_append]
      rfl
    have hlaid := ih hbehind
    rw [hrest] at hlaid
    rw [hp]
    exact .error c hnone hlaid
  | case3 p c cs x hx tokens errors hrest ih =>
    obtain ⟨_, happ⟩ := lexeme?_eq_some hx
    have hbehind : p.advanceAll x.chars = Position.start.advanceAll (before ++ x.chars) := by
      rw [hp, Position.advanceAll_append]
    have hlaid := ih hbehind
    rw [hrest] at hlaid
    rw [← happ] at hx ⊢
    cases hlayout : x.kind.isLayout with
    | true =>
      simp only [Lexeme.token?, hlayout, if_true, Option.toList_none, List.nil_append]
      exact .blank (allBlank_of_isLayout hx hlayout) hlaid
    | false =>
      simp only [Lexeme.token?, hlayout, Bool.false_eq_true, if_false, Option.toList_some,
        List.singleton_append]
      have hplace : Token.StandsAfter ⟨x.kind, String.ofList x.chars, p.line, p.column⟩ before := by
        rw [hp, line_advanceAll_start, column_advanceAll_start]
        exact ⟨rfl, rfl⟩
      have htoken := @Laid.token before x.rest tokens errors
        ⟨x.kind, String.ofList x.chars, p.line, p.column⟩
      simp only [String.toList_ofList] at htoken
      exact htoken hx hlayout hplace hlaid

/-- The tokens and the errors of a source lie in it. -/
theorem recover_laid (code : String) : Laid [] code.toList (recover code).1 (recover code).2 :=
  recoverFrom_laid rfl code.toList

/-- A token in a text is a lexeme of it. -/
theorem Laid.exists_lexeme {before cs : List Char} {tokens : List Token} {errors : List LexError}
    (h : Laid before cs tokens errors) {t : Token} (ht : t ∈ tokens) :
    t.kind.isLayout = false ∧ ∃ rest : List Char,
      lexeme? (t.text.toList ++ rest) = some ⟨t.kind, t.text.toList, rest⟩ := by
  induction h with
  | nil before => cases ht
  | blank hgap h ih => exact ih ht
  | @token before cs tokens errors t' hlexeme hkept hplace h ih =>
    rcases List.mem_cons.mp ht with rfl | ht
    · exact ⟨hkept, cs, hlexeme⟩
    · exact ih ht
  | error c hnone h ih => exact ih ht

/-! ## texts without errors -/

/-- Tokens, each with what stands between it and the next. -/
def spread (pieces : List (Token × List Char)) : List Char :=
  pieces.flatMap fun (t, gap) => t.text.toList ++ gap

/-- Where every character belongs to a blank or to a token, the text is some blanks and then
the tokens, each with the blanks behind it. -/
theorem Laid.exists_spread {before cs : List Char} {tokens : List Token}
    (h : Laid before cs tokens []) :
    ∃ (lead : List Char) (pieces : List (Token × List Char)),
      pieces.map Prod.fst = tokens ∧ AllBlank lead ∧ (∀ piece ∈ pieces, AllBlank piece.2) ∧
      cs = lead ++ spread pieces ∧
      ∀ front t gap back, pieces = front ++ (t, gap) :: back →
        t.text ≠ "" ∧ t.StandsAfter (before ++ lead ++ spread front) := by
  generalize herrors : ([] : List LexError) = errors at h
  induction h with
  | nil before =>
    refine ⟨[], [], rfl, by simp [AllBlank], by simp, rfl, fun front t gap back h => ?_⟩
    simp at h
  | @blank before gap cs tokens errors hgap h ih =>
    obtain ⟨lead, pieces, htokens, hlead, hgaps, hcs, hplaces⟩ := ih herrors
    refine ⟨gap ++ lead, pieces, htokens, ?_, hgaps, ?_, fun front t gap' back hpieces => ?_⟩
    · intro c hc
      rcases List.mem_append.mp hc with hc | hc
      · exact hgap c hc
      · exact hlead c hc
    · rw [hcs, List.append_assoc]
    · simpa using hplaces front t gap' back hpieces
  | @token before cs tokens errors t hlexeme hkept hplace h ih =>
    obtain ⟨lead, pieces, htokens, hlead, hgaps, hcs, hplaces⟩ := ih herrors
    have htext : t.text ≠ "" := by
      intro hempty
      have hne := (lexeme?_eq_some hlexeme).1
      simp [hempty] at hne
    refine ⟨[], (t, lead) :: pieces, ?_, by simp [AllBlank], ?_, ?_, ?_⟩
    · rw [List.map_cons, htokens]
    · simpa [hlead] using hgaps
    · simp [spread, hcs]
    · intro front t' gap back hpieces
      cases front with
      | nil =>
        cases hpieces
        exact ⟨htext, by simpa [spread] using hplace⟩
      | cons piece front =>
        rw [List.cons_append, List.cons.injEq] at hpieces
        obtain ⟨rfl, hpieces⟩ := hpieces
        simpa [spread] using hplaces front t' gap back hpieces
  | error c hnone h ih => cases herrors

/-- Lexing without an error loses nothing: the text is the tokens with blanks around them,
no token is empty, and each stands on its line and at its column. -/
theorem tokenize_loses_nothing {code : String} {tokens : List Token}
    (h : tokenize code = .ok tokens) :
    ∃ (lead : List Char) (pieces : List (Token × List Char)),
      pieces.map Prod.fst = tokens ∧ AllBlank lead ∧ (∀ piece ∈ pieces, AllBlank piece.2) ∧
      code.toList = lead ++ spread pieces ∧
      ∀ front t gap back, pieces = front ++ (t, gap) :: back →
        t.text ≠ "" ∧ t.StandsAfter (lead ++ spread front) := by
  have hlaid := recover_laid code
  rw [tokenize_eq_ok_iff.mp h] at hlaid
  simpa using hlaid.exists_spread

/-- A quoted text over two lines moves what follows it on to the second line. -/
theorem quotation_over_lines : ∃ (lead : List Char) (pieces : List (Token × List Char)),
    pieces.map Prod.fst = [⟨.string, "\"a\nb\"", 1, 1⟩, ⟨.semi, ";", 2, 3⟩,
      ⟨.minus, "-", 3, 2⟩, ⟨.int, "3", 3, 3⟩] ∧
    AllBlank lead ∧ (∀ piece ∈ pieces, AllBlank piece.2) ∧
    "\"a\nb\";\n -3".toList = lead ++ spread pieces ∧
    ∀ front t gap back, pieces = front ++ (t, gap) :: back →
      t.text ≠ "" ∧ t.StandsAfter (lead ++ spread front) := by
  apply tokenize_loses_nothing
  rw [tokenize,
    tokenizeFrom_of_lexeme? (x := ⟨.string, "\"a\nb\"".toList, ";\n -3".toList⟩) rfl,
    tokenizeFrom_of_lexeme? (x := ⟨.semi, ";".toList, "\n -3".toList⟩) rfl,
    tokenizeFrom_of_lexeme? (x := ⟨.whitespace, "\n ".toList, "-3".toList⟩) rfl,
    tokenizeFrom_of_lexeme? (x := ⟨.minus, "-".toList, "3".toList⟩) rfl,
    tokenizeFrom_of_lexeme? (x := ⟨.int, "3".toList, []⟩) rfl, tokenizeFrom]
  rfl

end LetCall
