import LetCall.Proofs.Lexing.Layout

/-!
# LetCall.Proofs.Lexing.Composition

Texts that are put together from texts that have been lexed.  Two sources one below the other
have the tokens of both, those of the lower one moved down; and the lexemes of a source, taken
out of it and set apart by spaces, are found again.

Main statements: lexing is compositional at line ends (`tokenize_append_line`), and lexing the
texts of all tokens again gives the same words (`tokenize_respaced`).
-/

namespace LetCall

/-! ## places further down -/

/-- A place with more lines and more characters before its line. -/
def Position.lower (lines chars : Nat) (p : Position) : Position :=
  ⟨p.line + lines, p.column, p.offset + chars⟩

/-- A token further down. -/
def Token.lower (lines : Nat) (t : Token) : Token := { t with line := t.line + lines }

/-- An error further down. -/
def LexError.lower (lines chars : Nat) (e : LexError) : LexError :=
  { e with position := e.position.lower lines chars }

section Lower

variable (lines chars : Nat)

theorem Position.advance_lower (p : Position) (c : Char) :
    (p.lower lines chars).advance c = (p.advance c).lower lines chars := by
  by_cases hc : c = '\n' <;> simp [advance, lower, hc, Nat.add_right_comm]

theorem Position.advanceAll_lower (p : Position) (cs : List Char) :
    (p.lower lines chars).advanceAll cs = (p.advanceAll cs).lower lines chars := by
  induction cs generalizing p with
  | nil => rfl
  | cons c cs ih => rw [advanceAll_cons, advance_lower, ih, advanceAll_cons]

theorem Lexeme.token?_lower (x : Lexeme) (p : Position) :
    x.token? (p.lower lines chars) = (x.token? p).map (Token.lower lines) := by
  cases h : x.kind.isLayout <;> simp [token?, h, Token.lower, Position.lower]

/-- A text further down has the same tokens and errors, moved down with it. -/
theorem recoverFrom_lower (p : Position) (cs : List Char) :
    recoverFrom (p.lower lines chars) cs =
      ((recoverFrom p cs).1.map (Token.lower lines),
        (recoverFrom p cs).2.map (LexError.lower lines chars)) := by
  fun_induction recoverFrom p cs with
  | case1 p => rw [recoverFrom]; rfl
  | case2 p c cs hnone tokens errors hrest ih =>
    rw [recoverFrom_of_none hnone, Position.advance_lower, ih, hrest]
    rfl
  | case3 p c cs x hx tokens errors hrest ih =>
    rw [recoverFrom_of_lexeme? hx, Position.advanceAll_lower, ih, hrest, Lexeme.token?_lower]
    cases x.token? p <;> rfl

end Lower

/-! ## sources one below the other -/

/-- Behind a text and a line feed, everything is as many lines further down as the text has. -/
theorem Position.advanceAll_line (cs : List Char) :
    start.advanceAll (cs ++ ['\n']) = start.lower (lineAfter cs) (cs.length + 1) := by
  have hline := line_advanceAll_start cs
  have hoffset := offset_advanceAll_start cs
  rw [advanceAll_append, advanceAll_cons, advanceAll_nil, advance, if_pos rfl, hline, hoffset]
  simp [lower, start, Nat.add_comm]

/-- A source without errors keeps its tokens above another one, whose tokens and errors are
moved down. -/
theorem recover_append_line {a b : String} (h : (recover a).2 = []) :
    recover (a ++ "\n" ++ b) =
      ((recover a).1 ++ (recover b).1.map (Token.lower (lineAfter a.toList)),
        (recover b).2.map (LexError.lower (lineAfter a.toList) (a.length + 1))) := by
  have hbreaks : Breaks ('\n' :: b.toList) := by simp [Breaks]; decide
  have hgap : AllBlank ['\n'] := by simp [AllBlank]; decide
  have hcode : (a ++ "\n" ++ b).toList = a.toList ++ '\n' :: b.toList := by simp
  have hbelow := recoverFrom_blanks hgap (Position.start.advanceAll a.toList) b.toList
  rw [← Position.advanceAll_append, Position.advanceAll_line, recoverFrom_lower,
    List.singleton_append] at hbelow
  unfold recover at h ⊢
  rw [hcode, recoverFrom_append h hbreaks, hbelow, String.length_toList]

/-- **Lexing is compositional at line ends.**  Below a source that has been lexed, the tokens
of another one are moved down by the lines of the first; so is the error if there is one, and
it has so many more characters before it. -/
theorem tokenize_append_line {a b : String} {tokens : List Token} (h : tokenize a = .ok tokens) :
    (∀ tokens', tokenize b = .ok tokens' → tokenize (a ++ "\n" ++ b) =
      .ok (tokens ++ tokens'.map (Token.lower (lineAfter a.toList)))) ∧
    ∀ e, tokenize b = .error e → tokenize (a ++ "\n" ++ b) =
      .error (e.lower (lineAfter a.toList) (a.length + 1)) := by
  rw [tokenize_eq_ok_iff] at h
  have hlines := recover_append_line (b := b) (congrArg Prod.snd h)
  constructor
  · intro tokens' hb
    rw [tokenize_eq_ok_iff] at hb ⊢
    rw [hlines, h, hb]
    rfl
  · intro e hb
    rw [tokenize_eq_error_iff] at hb ⊢
    rw [hlines, List.head?_map, hb]
    rfl

/-- A quoted text of two lines moves what stands below it down by two. -/
theorem quotation_moves_down :
    tokenize "\"a\nb\"" = .ok [⟨.string, "\"a\nb\"", 1, 1⟩] ∧
    tokenize ("\"a\nb\"" ++ "\n" ++ " -3") = .ok [⟨.string, "\"a\nb\"", 1, 1⟩,
      ⟨.minus, "-", 3, 2⟩, ⟨.int, "3", 3, 3⟩] ∧
    tokenize ("\"a\nb\"" ++ "\n" ++ "-\"") = .error ⟨.unterminated, ⟨3, 2, 7⟩⟩ := by
  have habove : tokenize "\"a\nb\"" = .ok [⟨.string, "\"a\nb\"", 1, 1⟩] := by
    rw [tokenize, tokenizeFrom_of_lexeme? (x := ⟨.string, "\"a\nb\"".toList, []⟩) rfl,
      tokenizeFrom]
    rfl
  have hminus : tokenize " -3" = .ok [⟨.minus, "-", 1, 2⟩, ⟨.int, "3", 1, 3⟩] := by
    rw [tokenize, tokenizeFrom_of_lexeme? (x := ⟨.whitespace, " ".toList, "-3".toList⟩) rfl,
      tokenizeFrom_of_lexeme? (x := ⟨.minus, "-".toList, "3".toList⟩) rfl,
      tokenizeFrom_of_lexeme? (x := ⟨.int, "3".toList, []⟩) rfl, tokenizeFrom]
    rfl
  have hquote : tokenize "-\"" = .error ⟨.unterminated, ⟨1, 2, 1⟩⟩ := by
    have hnone : lexeme? ['"'] = none := rfl
    rw [tokenize_eq_error_iff, recover, recoverFrom_of_lexeme? (x := ⟨.minus, ['-'], ['"']⟩) rfl,
      recoverFrom_of_none hnone]
    rfl
  exact ⟨habove, (tokenize_append_line habove).1 _ hminus, (tokenize_append_line habove).2 _ hquote⟩

/-! ## lexemes set apart -/

/-- What has been cut off a text as a whole is so before any blank. -/
theorem Word.cut_of_lexeme? {w : Word} {rest : List Char} (hkept : w.kind.isLayout = false)
    (h : lexeme? (w.text.toList ++ rest) = some ⟨w.kind, w.text.toList, rest⟩) : w.Cut := by
  have halone := lexeme?_of_front h List.nil_prefix
  rw [List.append_nil] at halone
  refine ⟨hkept, fun rest' hbreaks => ?_⟩
  cases htext : w.text.toList with
  | nil =>
    obtain ⟨hne, _⟩ := lexeme?_eq_some h
    exact (hne htext).elim
  | cons c cs =>
    rw [htext] at halone
    cases hblank : Text.isBlank c with
    | true =>
      -- a run of blanks leaves no token
      rw [lexeme?_of_isBlank hblank, Option.some_inj] at halone
      have hkind : Kind.whitespace = w.kind := congrArg Lexeme.kind halone
      rw [← hkind] at hkept
      cases hkept
    | false => exact lexeme?_append halone hblank hbreaks

theorem intercalate_text (ws : List Word) :
    " ".intercalate (ws.map Word.text) = String.ofList (spaced ws) := by
  fun_induction spaced ws with
  | case1 => rfl
  | case2 w => simp
  | case3 w ws hne ih =>
    obtain ⟨v, vs, rfl⟩ := List.exists_cons_of_ne_nil hne
    rw [List.map_cons, List.map_cons, String.intercalate_cons_cons, ← List.map_cons, ih]
    simp [← String.toList_inj]

/-- **Re-lexing is stable.**  The texts of all tokens of a source, joined by single spaces, are
lexed into the same words. -/
theorem tokenize_respaced {code : String} {tokens : List Token} (h : tokenize code = .ok tokens) :
    ∃ tokens', tokenize (" ".intercalate (tokens.map Token.text)) = .ok tokens' ∧
      tokens'.map Token.word = tokens.map Token.word := by
  have hlaid := recover_laid code
  rw [tokenize_eq_ok_iff.mp h] at hlaid
  have hcut : ∀ w ∈ tokens.map Token.word, w.Cut := by
    intro w hw
    obtain ⟨t, ht, rfl⟩ := List.mem_map.mp hw
    obtain ⟨hkept, rest, hlexeme⟩ := hlaid.exists_lexeme ht
    exact Word.cut_of_lexeme? hkept hlexeme
  have hjoin : " ".intercalate (tokens.map Token.text) =
      String.ofList (spaced (tokens.map Token.word)) := by
    rw [← intercalate_text, List.map_map]
    rfl
  rw [hjoin]
  exact exists_tokenize_of_spells hcut (spells_spaced _)

/-- A reserved word and the name behind it are two words with or without a space. -/
theorem letter_respaced :
    tokenize "letter-1" = .ok [⟨.letWord, "let", 1, 1⟩, ⟨.ident, "ter", 1, 4⟩,
      ⟨.minus, "-", 1, 7⟩, ⟨.int, "1", 1, 8⟩] ∧
    ∃ tokens, tokenize (" ".intercalate ["let", "ter", "-", "1"]) = .ok tokens ∧
      tokens.map Token.word = [⟨.letWord, "let"⟩, ⟨.ident, "ter"⟩, ⟨.minus, "-"⟩, ⟨.int, "1"⟩] := by
  have h : tokenize "letter-1" = .ok [⟨.letWord, "let", 1, 1⟩, ⟨.ident, "ter", 1, 4⟩,
      ⟨.minus, "-", 1, 7⟩, ⟨.int, "1", 1, 8⟩] := by
    rw [tokenize, tokenizeFrom_of_lexeme? (x := ⟨.letWord, "let".toList, "ter-1".toList⟩) rfl,
      tokenizeFrom_of_lexeme? (x := ⟨.ident, "ter".toList, "-1".toList⟩) rfl,
      tokenizeFrom_of_lexeme? (x := ⟨.minus, "-".toList, "1".toList⟩) rfl,
      tokenizeFrom_of_lexeme? (x := ⟨.int, "1".toList, []⟩) rfl, tokenizeFrom]
    rfl
  exact ⟨h, tokenize_respaced h⟩

end LetCall
