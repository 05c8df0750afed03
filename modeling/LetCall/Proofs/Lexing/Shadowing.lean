import LetCall.Proofs.Lexing.Kinds

/-!
# LetCall.Proofs.Lexing.Shadowing

What the order of the rules takes away.  A rule for a fixed word never wins if an earlier rule
fixes a word that its own begins with, and a rule for literals or names wins only where none of
the leading words stands.

Main statement: which kinds have no tokens, which texts are never numbers or names, and that a
slash outside of a quotation is always a division (`tokenize_shadowed`).
-/

namespace LetCall

/-! ## rules that never win -/

/-- Rules for fixed words before which another rule fixes a word that theirs begin with. -/
def Rule.isShadowed (r : Rule) : Bool :=
  r.isFixed && r.fixedWords.all fun w =>
    ((rules.takeWhile (·.kind != r.kind)).flatMap Rule.fixedWords).any fun v =>
      !v.toList.isEmpty && v.toList.isPrefixOf w.toList

/-- The kinds of these rules. -/
def shadowedKinds : List Kind := [.power, .eq, .le, .ge, .arrow, .langle, .rangle]

theorem isShadowed_of_kind :
    rules.all (fun r => r.isShadowed == shadowedKinds.contains r.kind) = true := by decide +kernel

namespace Rule.Wins

variable {r : Rule} {l cs : List Char}

/-- A rule that wins is not shadowed: the earlier word would have been cut off. -/
theorem not_isShadowed (h : r.Wins l cs) : r.isShadowed = false := by
  obtain ⟨before, after, hrules, hidle⟩ := h.first
  refine Bool.eq_false_iff.mpr fun hshadowed => ?_
  simp only [isShadowed, ← eq_takeWhile_of_split hrules, Bool.and_eq_true, List.all_eq_true,
    List.any_eq_true, Bool.not_eq_true', List.isPrefixOf_iff_prefix] at hshadowed
  obtain ⟨hfixed, hwords⟩ := hshadowed
  have hshape := h.shape
  cases hp : r.pattern with
  | words ws =>
    rw [hp] at hshape
    obtain ⟨_, w, hw, rfl⟩ := hshape
    have hmem : w ∈ r.fixedWords := by simpa [fixedWords, hp] using hw
    obtain ⟨v, hv, hne, hlead⟩ := hwords w hmem
    refine not_prefix_of_fixedWords hidle hv ?_ (hlead.trans h.leads)
    simpa using hne
  | _ => simp [isFixed, hp] at hfixed

/-- Numbers have no sign. -/
theorem unsigned (h : r.Wins l cs) (hkind : r.kind = .int ∨ r.kind = .float) :
    ¬ ['-'] <+: l := by
  have hminus : "-" ∈ leadingWords := by decide
  refine h.not_leading ?_ hminus
  rcases hkind with hkind | hkind <;> simp [hkind]

end Rule.Wins

/-! ## slashes -/

theorem words_of_slash : rules.all (fun r => r.kind == .divide ||
    r.fixedWords.all fun w => !w.toList.contains '/') = true := by decide +kernel

/-- A slash is part of a quotation or a lexeme for itself. -/
theorem Rule.Wins.kind_of_slash {r : Rule} {l cs : List Char} (h : r.Wins l cs)
    (hslash : '/' ∈ l) : r.kind = .string ∨ r.kind = .divide := by
  have hdigit : Text.isDigit '/' = false := by decide
  have hsign : ∀ {sign : List Char}, Pattern.IsSign sign → '/' ∉ sign := by
    rintro sign (rfl | rfl) <;> decide
  have hrun : ∀ {ds : List Char}, Pattern.IsRun Text.isDigit ds → '/' ∉ ds := by
    intro ds hds hmem
    cases hdigit.symm.trans (hds.2 _ hmem)
  have hshape := h.shape
  cases hp : r.pattern with
  | words ws =>
    rw [hp] at hshape
    obtain ⟨_, w, hw, rfl⟩ := hshape
    have hmem : w ∈ r.fixedWords := by simpa [fixedWords, hp] using hw
    have htable := List.all_eq_true.mp words_of_slash r h.mem
    simp only [Bool.or_eq_true, beq_iff_eq, List.all_eq_true] at htable
    rcases htable with hkind | hwords
    · exact .inr hkind
    · simpa [hslash] using hwords w hmem
  | quoted =>
    have hrules : ∀ r ∈ rules, r.pattern = .quoted → r.kind = .string := by simp [rules]
    exact .inl (hrules r h.mem hp)
  | decimal =>
    rw [hp] at hshape
    obtain ⟨sign, ds, fs, hs, hds, hfs, rfl⟩ := hshape
    simp [hsign hs, hrun hds, hrun hfs] at hslash
  | integer =>
    rw [hp] at hshape
    obtain ⟨sign, ds, hs, hds, rfl⟩ := hshape
    simp [hsign hs, hrun hds] at hslash
  | identifier =>
    rw [hp] at hshape
    obtain ⟨c, cs', hc, hcs', rfl⟩ := hshape
    have hrest : Pattern.isIdentRest '/' = false := by decide
    rcases List.mem_cons.mp hslash with rfl | hmem
    · cases hrest.symm.trans (isIdentRest_of_isIdentStart hc)
    · cases hrest.symm.trans (hcs' _ hmem)
  | blanks =>
    rw [hp] at hshape
    have hblank : Text.isBlank '/' = false := by decide
    cases hblank.symm.trans (hshape.2 _ hslash)
  | lineComment => exact (h.ne_lineComment hp).elim

/-- A character of a text lies in a token, which may begin before it and end behind it. -/
def Token.Holds (t : Token) (before : List Char) (c : Char) (after : List Char) : Prop :=
  ∃ front head tail back, before = front ++ head ∧ after = tail ++ back ∧
    t.StandsAfter front ∧ t.text.toList = head ++ c :: tail

/-- A character of two texts one behind the other stands in the first or in the second. -/
theorem append_eq_append_cons {u v before after : List Char} {c : Char}
    (h : u ++ v = before ++ c :: after) :
    (∃ tail, u = before ++ c :: tail ∧ after = tail ++ v) ∨
      ∃ head, before = u ++ head ∧ v = head ++ c :: after := by
  rcases List.append_eq_append_iff.mp h with ⟨head, hbefore, hv⟩ | ⟨rest, hu, hrest⟩
  · exact .inr ⟨head, hbefore, hv⟩
  · cases rest with
    | nil => exact .inr ⟨[], by simpa using hu.symm, by simpa using hrest.symm⟩
    | cons d tail =>
      obtain ⟨rfl, hafter⟩ := List.cons.inj hrest
      exact .inl ⟨tail, hu, hafter⟩

theorem slash_not_mem_of_allBlank {gap : List Char} (h : AllBlank gap) : '/' ∉ gap := by
  have hslash : Text.isBlank '/' = false := by decide
  intro hmem
  cases hslash.symm.trans (h _ hmem)

/-- The lexeme of a token is a division, or a quotation, or holds no slash. -/
theorem slash_of_lexeme {t : Token} {cs : List Char}
    (h : lexeme? (t.text.toList ++ cs) = some ⟨t.kind, t.text.toList, cs⟩) :
    t.word = ⟨.divide, "/"⟩ ∨ t.kind = .string ∨
      t.kind ≠ .divide ∧ t.kind ≠ .string ∧ '/' ∉ t.text.toList := by
  have hdivide : ⟨.divide, .words ["/"]⟩ ∈ rules := by simp [rules]
  obtain ⟨_, r, hkind, hwins⟩ := lexeme?_eq_some_iff.mp h
  simp only at hkind hwins
  by_cases hk : t.kind = .divide
  · have htext : t.text = "/" := String.toList_inj.mp (hwins.eq_word hdivide (hkind.trans hk))
    simp [Token.word, hk, htext]
  · by_cases hs : t.kind = .string
    · exact .inr (.inl hs)
    · refine .inr (.inr ⟨hk, hs, fun hslash => ?_⟩)
      rcases hwins.kind_of_slash hslash with h | h
      · exact hs (hkind.symm.trans h)
      · exact hk (hkind.symm.trans h)

/-- Every slash of a text lies in a quotation or is a token for itself. -/
theorem Laid.exists_slash {before cs : List Char} {tokens : List Token}
    (h : Laid before cs tokens []) {head after : List Char} (hcs : cs = head ++ '/' :: after) :
    (∃ t ∈ tokens, t.kind = .string ∧ t.Holds (before ++ head) '/' after) ∨
      ⟨.divide, "/", lineAfter (before ++ head), columnAfter (before ++ head)⟩ ∈ tokens := by
  generalize herrors : ([] : List LexError) = errors at h
  induction h generalizing head with
  | nil before => simp at hcs
  | @blank before gap cs tokens errors hgap h ih =>
    rcases append_eq_append_cons hcs with ⟨tail, rfl, _⟩ | ⟨head', rfl, hcs'⟩
    · exact (slash_not_mem_of_allBlank hgap (by simp)).elim
    · simpa using ih hcs' herrors
  | @token before cs tokens errors t hlexeme hkept hplace h ih =>
    rcases append_eq_append_cons hcs with ⟨tail, htext, hafter⟩ | ⟨head', rfl, hcs'⟩
    · rcases slash_of_lexeme hlexeme with hword | hkind | ⟨_, _, hnot⟩
      · obtain ⟨kind, text, line, column⟩ := t
        obtain ⟨rfl, rfl⟩ := Word.mk.inj hword
        obtain ⟨hline, hcolumn⟩ := hplace
        obtain rfl : head = [] := by
          cases head with
          | nil => rfl
          | cons c head => simp at htext
        refine .inr ?_
        simp only [List.append_nil, ← hline, ← hcolumn]
        exact List.mem_cons_self
      · have hholds : t.Holds (before ++ head) '/' after :=
          ⟨before, head, tail, cs, rfl, hafter, hplace, htext⟩
        exact .inl ⟨t, List.mem_cons_self, hkind, hholds⟩
      · exact (hnot (by simp [htext])).elim
    · have hrest := ih hcs' herrors
      rw [List.append_assoc] at hrest
      rcases hrest with ⟨u, hu, hstring⟩ | hdivide
      · exact .inl ⟨u, List.mem_cons_of_mem t hu, hstring⟩
      · exact .inr (List.mem_cons_of_mem t hdivide)
  | error c hnone h ih => cases herrors

/-- The text of all tokens of a kind. -/
def textOf (kind : Kind) (tokens : List Token) : List Char :=
  (tokens.filter (·.kind == kind)).flatMap (·.text.toList)

/-- There are as many divisions as there are slashes outside of quotations. -/
theorem Laid.count_slash {before cs : List Char} {tokens : List Token}
    (h : Laid before cs tokens []) :
    tokens.countP (·.kind == .divide) + (textOf .string tokens).count '/' = cs.count '/' := by
  generalize herrors : ([] : List LexError) = errors at h
  induction h with
  | nil before => rfl
  | @blank before gap cs tokens errors hgap h ih =>
    rw [List.count_append, List.count_eq_zero_of_not_mem (slash_not_mem_of_allBlank hgap),
      Nat.zero_add]
    exact ih herrors
  | @token before cs tokens errors t hlexeme hkept hplace h ih =>
    rw [List.count_append, ← ih herrors]
    rcases slash_of_lexeme hlexeme with hword | hkind | ⟨hdivide, hstring, hnot⟩
    · obtain ⟨kind, text, line, column⟩ := t
      obtain ⟨rfl, rfl⟩ := Word.mk.inj hword
      simp [textOf]
      omega
    · simp [textOf, hkind]
      omega
    · simp [textOf, hdivide, hstring, List.count_eq_zero_of_not_mem hnot]
  | error c hnone h ih => cases herrors

/-! ## names -/

theorem reserved_of_isIdentStart : ruleWords.all (fun w => reservedWords.contains w ||
    w.toList.head?.any fun c => !Pattern.isIdentStart c) = true := by decide +kernel

/-- An identifier that begins with no reserved word is a name. -/
theorem isName_of_unreserved {w : String} (hw : Pattern.identifier.Shape w.toList)
    (h : Unreserved w) : Word.IsName w := by
  obtain ⟨c, cs, hc, hcs, hchars⟩ := hw
  refine ⟨by simp [hchars, hc], ?_, fun v hv hlead => ?_⟩
  · simpa [hchars, isIdentRest_of_isIdentStart hc] using hcs
  · have htable := List.all_eq_true.mp reserved_of_isIdentStart v hv
    simp only [Bool.or_eq_true, List.contains_iff_mem] at htable
    rcases htable with hreserved | hstart
    · exact h v hreserved hlead
    · cases hv' : v.toList with
      | nil => simp [hv'] at hstart
      | cons d ds =>
        rw [hchars, hv', List.cons_prefix_cons] at hlead
        simp [hv', hlead.1, hc] at hstart

/-- An identifier is one token, a name, just if it begins with no reserved word. -/
theorem tokenize_eq_ident_iff {w : String} (hw : Pattern.identifier.Shape w.toList) :
    tokenize w = .ok [⟨.ident, w, 1, 1⟩] ↔ Unreserved w := by
  constructor
  · intro h
    have hmem : ⟨.ident, w, 1, 1⟩ ∈ (recover w).1 := by simp [tokenize_eq_ok_iff.mp h]
    exact (lexed_of_mem_recover hmem).unreserved rfl
  · intro h
    have hcut := Word.cut_name (isName_of_unreserved hw h)
    have hbreaks : Breaks [] := by simp [Breaks]
    have htokens := hcut.tokenizeFrom_append hbreaks .start
    rw [List.append_nil, tokenizeFrom] at htokens
    exact htokens

/-! ## what is left -/

/-- **What the order of the rules takes away.**  Where lexing succeeds there are no tokens of the
shadowed kinds, no comments and no blanks among the tokens, no number has a sign, and no name
begins with a reserved word.  Every slash that is not part of a quotation is a division of its
own, so there are as many divisions as there are such slashes, and none of them begins a comment.
An identifier by itself is a single name just if it begins with no reserved word. -/
theorem tokenize_shadowed :
    (∀ code tokens, tokenize code = .ok tokens →
      (∀ t ∈ tokens, t.kind ∉ shadowedKinds ∧ t.kind ≠ .comment ∧ t.kind ≠ .whitespace ∧
        (t.kind = .int ∨ t.kind = .float → ¬ ['-'] <+: t.text.toList) ∧
        (t.kind = .ident → Unreserved t.text)) ∧
      (∀ before after, code.toList = before ++ '/' :: after →
        (∃ t ∈ tokens, t.kind = .string ∧ t.Holds before '/' after) ∨
          ⟨.divide, "/", lineAfter before, columnAfter before⟩ ∈ tokens) ∧
      tokens.countP (·.kind == .divide) + (textOf .string tokens).count '/' =
        code.toList.count '/') ∧
    ∀ w : String, Pattern.identifier.Shape w.toList →
      (tokenize w = .ok [⟨.ident, w, 1, 1⟩] ↔ Unreserved w) := by
  refine ⟨fun code tokens h => ?_, fun w hw => tokenize_eq_ident_iff hw⟩
  have hlaid := recover_laid code
  have hlexed := fun t => @lexed_of_mem_recover code t
  rw [tokenize_eq_ok_iff.mp h] at hlaid hlexed
  refine ⟨fun t ht => ?_, fun before after hcode => ?_, hlaid.count_slash⟩
  · obtain ⟨hlayout, _⟩ := hlaid.exists_lexeme ht
    obtain ⟨r, rest, hkind, hwins⟩ := hlaid.exists_wins ht
    have hshadowed := List.all_eq_true.mp isShadowed_of_kind r hwins.mem
    rw [hwins.not_isShadowed, hkind] at hshadowed
    refine ⟨by simpa using hshadowed, ?_, ?_, ?_, (hlexed t ht).unreserved⟩
    · rintro hcomment
      simp [Kind.isLayout, hcomment] at hlayout
    · rintro hblank
      simp [Kind.isLayout, hblank] at hlayout
    · rw [← hkind]
      exact hwins.unsigned
  · simpa using hlaid.exists_slash hcode

/-- Two slashes are two divisions, a quoted one is none, and a word that begins with a reserved
one is no name. -/
theorem slashes_and_letter :
    let tokens : List Token := [⟨.ident, "a", 1, 1⟩, ⟨.divide, "/", 1, 2⟩, ⟨.divide, "/", 1, 3⟩,
      ⟨.string, "\"/\"", 1, 4⟩]
    tokenize "a//\"/\"" = .ok tokens ∧
    (∃ t ∈ tokens, t.kind = .string ∧ t.Holds ['a', '/', '/', '"'] '/' ['"']) ∧
    tokens.countP (·.kind == .divide) + (textOf .string tokens).count '/' = 3 ∧
    Pattern.identifier.Shape "letter".toList ∧
    tokenize "letter" ≠ .ok [⟨.ident, "letter", 1, 1⟩] := by
  intro tokens
  have htokens : tokenize "a//\"/\"" = .ok tokens := by
    rw [tokenize, tokenizeFrom_of_lexeme? (x := ⟨.ident, "a".toList, "//\"/\"".toList⟩) rfl,
      tokenizeFrom_of_lexeme? (x := ⟨.divide, "/".toList, "/\"/\"".toList⟩) rfl,
      tokenizeFrom_of_lexeme? (x := ⟨.divide, "/".toList, "\"/\"".toList⟩) rfl,
      tokenizeFrom_of_lexeme? (x := ⟨.string, "\"/\"".toList, []⟩) rfl, tokenizeFrom]
    rfl
  have hrest : "etter".toList.all Pattern.isIdentRest = true := by decide
  have hletter : Pattern.identifier.Shape "letter".toList :=
    ⟨'l', "etter".toList, by decide, List.all_eq_true.mp hrest, rfl⟩
  obtain ⟨htext, hname⟩ := tokenize_shadowed
  obtain ⟨_, hslash, hcount⟩ := htext _ _ htokens
  refine ⟨htokens, ?_, hcount, hletter, fun h => ?_⟩
  · refine (hslash ['a', '/', '/', '"'] ['"'] rfl).resolve_right ?_
    decide
  · exact (hname "letter" hletter).mp h "let" (by decide) ⟨"ter".toList, rfl⟩

end LetCall
