import LetCall.Proofs.Lexing.Layout

/-!
# LetCall.Proofs.Lexing.Kinds

What the tokens of a source can be.  A token of a kind is what the one rule for that kind
makes of a text at which all rules before it are idle; so the order of the rules says which
texts are left for each kind.

Main statement: no name begins with a reserved word, no integer has a sign, and there are
no tokens of the kinds that have no rule (`lexed_of_mem_recover`).
-/

namespace LetCall

/-! ## reserved words -/

/-- The words that stand for themselves wherever a name could begin. -/
def reservedWords : List String :=
  ["import", "return", "fn", "let", "const", "cast", "to_string", "to_int", "to_float", "to_bool",
    "int", "float", "bool", "string", "void", "true", "false"]

/-- A text that does not begin with a reserved word. -/
def Unreserved (s : String) : Prop := ∀ w ∈ reservedWords, ¬ w.toList <+: s.toList

/-- The words that a rule fixes. -/
def Rule.fixedWords (r : Rule) : List String :=
  match r.pattern with
  | .words ws => ws
  | _ => []

/-- The words of the rules that come before all others. -/
def leadingWords : List String := leadingRules.flatMap Rule.fixedWords

theorem reservedWords_lead : reservedWords.all leadingWords.contains = true := by decide

theorem leadingWords_ne_nil : leadingWords.all (!·.toList.isEmpty) = true := by decide

/-- Where rules are idle, none of their words leads. -/
theorem not_prefix_of_fixedWords {rs : List Rule} {cs : List Char} (hidle : ∀ r ∈ rs, r.Idle cs)
    {w : String} (hw : w ∈ rs.flatMap Rule.fixedWords) (hne : w.toList ≠ []) :
    ¬ w.toList <+: cs := by
  intro hlead
  obtain ⟨r, hr, hfixed⟩ := List.mem_flatMap.mp hw
  refine hidle r hr w.toList hlead ?_
  unfold Rule.fixedWords at hfixed
  split at hfixed
  · next ws hp =>
    rw [hp]
    exact ⟨hne, w, hfixed, rfl⟩
  · cases hfixed

/-- Where the leading rules are idle, none of their words leads. -/
theorem not_prefix_of_idle {cs : List Char} (hidle : ∀ r ∈ leadingRules, r.Idle cs) {w : String}
    (hw : w ∈ leadingWords) : ¬ w.toList <+: cs :=
  not_prefix_of_fixedWords hidle hw (by simpa using List.all_eq_true.mp leadingWords_ne_nil w hw)

/-! ## the rules for some kinds -/

namespace Rule.Wins

variable {r : Rule} {l cs : List Char}

/-- The only lexeme of a rule for a single word is that word. -/
theorem eq_word (h : r.Wins l cs) {k : Kind} {w : String} (hmem : ⟨k, .words [w]⟩ ∈ rules)
    (hkind : r.kind = k) : l = w.toList := by
  obtain ⟨front, back, hrules⟩ := List.append_of_mem hmem
  obtain ⟨rfl, _⟩ := h.idle_of_split hrules hkind
  obtain ⟨_, w', hw', rfl⟩ := h.shape
  rw [List.mem_singleton.mp hw']

/-- The rules for literals and names win only where no leading word stands. -/
theorem not_leading (h : r.Wins l cs) (hkind : r.kind ∈ [.string, .float, .int, .ident])
    {w : String} (hw : w ∈ leadingWords) : ¬ w.toList <+: l := by
  have hrules : ∀ r ∈ rules, r.kind ∈ [.string, .float, .int, .ident] → r.isFixed = false := by
    simp [rules, isFixed]
  have hr := hrules r h.mem hkind
  obtain ⟨before, after, hrules, hidle⟩ := h.first
  have hleading : leadingRules <+: before := by
    rw [leadingRules, hrules, List.takeWhile_append, List.takeWhile_cons_of_neg (by simp [hr]),
      List.append_nil]
    split
    · exact List.prefix_refl _
    · exact List.takeWhile_prefix _
  intro hlead
  refine not_prefix_of_idle (fun r' hr' => hidle r' (hleading.subset hr')) hw ?_
  exact hlead.trans h.leads

/-- A name does not begin with a reserved word. -/
theorem unreserved (h : r.Wins l cs) (hkind : r.kind = .ident) :
    ∀ w ∈ reservedWords, ¬ w.toList <+: l := by
  intro w hw
  have hword : w ∈ leadingWords := by simpa using List.all_eq_true.mp reservedWords_lead w hw
  exact h.not_leading (by simp [hkind]) hword

/-- An integer has no sign, since the rule for the minus comes first. -/
theorem digits (h : r.Wins l cs) (hkind : r.kind = .int) : Pattern.IsRun Text.isDigit l := by
  have hpattern : ∀ r ∈ rules, r.kind = .int → r.pattern = .integer := by simp [rules]
  have hminus : "-" ∈ leadingWords := by decide
  have hshape := h.shape
  rw [hpattern r h.mem hkind] at hshape
  obtain ⟨sign, ds, hsign, hds, rfl⟩ := hshape
  rcases hsign with rfl | rfl
  · exact hds
  · exact (h.not_leading (by simp [hkind]) hminus ⟨ds, rfl⟩).elim

end Rule.Wins

/-! ## tokens -/

/-- What is known of a token by its kind. -/
structure Token.Lexed (t : Token) : Prop where
  ne_number : t.kind ≠ .number
  ne_void : t.kind ≠ .void
  digits : t.kind = .int → Pattern.IsRun Text.isDigit t.text.toList
  plus : t.kind = .plus → t.text = "+"
  minus : t.kind = .minus → t.text = "-"
  unreserved : t.kind = .ident → Unreserved t.text

/-- A token in a text is what the rule for its kind makes of it. -/
theorem Laid.exists_wins {before cs : List Char} {tokens : List Token} {errors : List LexError}
    (h : Laid before cs tokens errors) {t : Token} (ht : t ∈ tokens) :
    ∃ (r : Rule) (rest : List Char), r.kind = t.kind ∧
      r.Wins t.text.toList (t.text.toList ++ rest) := by
  obtain ⟨_, rest, hlexeme⟩ := h.exists_lexeme ht
  obtain ⟨_, r, hkind, hwins⟩ := lexeme?_eq_some_iff.mp hlexeme
  exact ⟨r, rest, hkind, hwins⟩

theorem lexed_of_mem_recover {code : String} {t : Token} (ht : t ∈ (recover code).1) :
    t.Lexed := by
  have hkinds : ∀ r ∈ rules, r.kind ≠ .number ∧ r.kind ≠ .void := by simp [rules]
  obtain ⟨r, rest, hkind, hwins⟩ := (recover_laid code).exists_wins ht
  refine ⟨?_, ?_, fun h => ?_, fun h => ?_, fun h => ?_, fun h => ?_⟩
  · rw [← hkind]
    exact (hkinds r hwins.mem).1
  · rw [← hkind]
    exact (hkinds r hwins.mem).2
  · exact hwins.digits (hkind.trans h)
  · have hplus : ⟨.plus, .words ["+"]⟩ ∈ rules := by simp [rules]
    exact String.toList_inj.mp (hwins.eq_word hplus (hkind.trans h))
  · have hminus : ⟨.minus, .words ["-"]⟩ ∈ rules := by simp [rules]
    exact String.toList_inj.mp (hwins.eq_word hminus (hkind.trans h))
  · exact hwins.unreserved (hkind.trans h)

end LetCall
