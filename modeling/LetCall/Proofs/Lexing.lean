import LetCall.Numeric.Round
import LetCall.Token.Lexer
import Mathlib.Data.List.TakeWhile

/-!
# LetCall.Proofs.Lexing

Lexing a text that is made of words with blanks between them.  The rules are tried in
order and know no word boundaries, so what is cut off the front of a text depends on all
rules before the one that fits; a blank behind a word is what keeps it from being cut
short or run on.

Main statements: fixed words, names, quoted texts and decimal numbers are cut off whole
where a blank or nothing follows (`Word.cut_fixed`, `Word.cut_name`, `Word.cut_quoted`,
`Word.cut_decimal`), and such words are the tokens of a text written with blanks between
them (`exists_tokenize_of_spells`).
-/

namespace LetCall

/-! ## words -/

/-- A lexeme apart from its place: its kind and its text. -/
structure Word where
  kind : Kind
  text : String
  deriving DecidableEq, Repr

/-- The word that a token is an occurrence of. -/
def Token.word (t : Token) : Word := ⟨t.kind, t.text⟩

/-- Blank characters only. -/
def AllBlank (cs : List Char) : Prop := ∀ c ∈ cs, Text.isBlank c = true

/-- Nothing follows, or a blank. -/
def Breaks (cs : List Char) : Prop := ∀ c ∈ cs.head?, Text.isBlank c = true

/-- A word is cut off the front of a text as a whole wherever a blank or nothing follows. -/
structure Word.Cut (w : Word) : Prop where
  kept : w.kind.isLayout = false
  lexeme : ∀ rest, Breaks rest →
    lexeme? (w.text.toList ++ rest) = some ⟨w.kind, w.text.toList, rest⟩

/-! ## classes of characters -/

theorem isDigit_eq_false {c : Char}
    (h : ∀ z ∈ Text.zeros, ¬ (z ≤ c.toNat ∧ c.toNat < z + 10)) : Text.isDigit c = false := by
  have hnone : Text.digitValue? c = none := by
    unfold Text.digitValue?
    rw [List.findSome?_eq_none_iff]
    intro z hz
    rw [if_neg (h z hz)]
  rw [Text.isDigit, hnone]
  rfl

/-- Where the blanks are among the code points. -/
theorem toNat_of_isBlank {c : Char} (h : Text.isBlank c = true) :
    c.toNat ≤ 32 ∨ c.toNat = 133 ∨ c.toNat = 160 ∨ c.toNat = 5760 ∨
      (8192 ≤ c.toNat ∧ c.toNat ≤ 12288) := by
  simp only [Text.isBlank, Bool.or_eq_true, Bool.and_eq_true, decide_eq_true_eq, beq_iff_eq] at h
  omega

/-- Where the letters of names are among the code points. -/
theorem toNat_of_isIdentStart {c : Char} (h : Pattern.isIdentStart c = true) :
    (65 ≤ c.toNat ∧ c.toNat ≤ 90) ∨ (97 ≤ c.toNat ∧ c.toNat ≤ 122) ∨ c.toNat = 95 := by
  have halpha : c.isAlpha = (decide (65 ≤ c.val ∧ c.val ≤ 90) ||
      (decide (97 ≤ c.val) && decide (c.val ≤ 122))) := rfl
  simp only [Pattern.isIdentStart, halpha, Bool.or_eq_true, Bool.and_eq_true, decide_eq_true_eq,
    beq_iff_eq] at h
  rcases h with (⟨h, h'⟩ | ⟨h, h'⟩) | rfl
  · exact .inl ⟨h, h'⟩
  · exact .inr (.inl ⟨h, h'⟩)
  · exact .inr (.inr rfl)

theorem not_isDigit_of_isBlank {c : Char} (h : Text.isBlank c = true) : Text.isDigit c = false := by
  have hzeros : ∀ z ∈ Text.zeros, z = 48 ∨ (1632 ≤ z ∧ z + 10 ≤ 5760) ∨
      (5761 ≤ z ∧ z + 10 ≤ 8192) ∨ 12289 ≤ z := by decide
  have hc := toNat_of_isBlank h
  refine isDigit_eq_false fun z hz hrange => ?_
  have hz' := hzeros z hz
  omega

/-- The ASCII digits are among the digits. -/
theorem isDigit_of_isDigit {c : Char} (h : c.isDigit = true) : Text.isDigit c = true := by
  rw [Text.isDigit, Text.digitValue?_of_isDigit h]
  rfl

theorem not_isBlank_of_isDigit {c : Char} (h : c.isDigit = true) : Text.isBlank c = false := by
  refine Bool.eq_false_iff.mpr fun hblank => ?_
  have hdigit := isDigit_of_isDigit h
  rw [not_isDigit_of_isBlank hblank] at hdigit
  cases hdigit

theorem not_isDigit_of_isIdentStart {c : Char} (h : Pattern.isIdentStart c = true) :
    Text.isDigit c = false := by
  have hzeros : ∀ z ∈ Text.zeros, z = 48 ∨ 1632 ≤ z := by decide
  have hc := toNat_of_isIdentStart h
  refine isDigit_eq_false fun z hz hrange => ?_
  have hz' := hzeros z hz
  omega

theorem not_isIdentStart_of_isBlank {c : Char} (h : Text.isBlank c = true) :
    Pattern.isIdentStart c = false := by
  have hc := toNat_of_isBlank h
  refine Bool.eq_false_iff.mpr fun hstart => ?_
  have hc' := toNat_of_isIdentStart hstart
  omega

theorem not_isIdentRest_of_isBlank {c : Char} (h : Text.isBlank c = true) :
    Pattern.isIdentRest c = false := by
  have hstart := not_isIdentStart_of_isBlank h
  have hdigit : c.isDigit = false := by
    refine Bool.eq_false_iff.mpr fun hd => ?_
    rw [not_isBlank_of_isDigit hd] at h
    cases h
  simp only [Pattern.isIdentStart, Bool.or_eq_false_iff] at hstart
  simp [Pattern.isIdentRest, Char.isAlphanum, hstart.1, hstart.2, hdigit]

/-- A character of a class is none that is not of it. -/
theorem ne_of_class {P : Char → Bool} {c d : Char} (hc : P c = true) (hd : P d = false) :
    c ≠ d := by
  rintro rfl
  rw [hc] at hd
  cases hd

/-! ## rules -/

/-- All words that the rules fix, in their order. -/
def ruleWords : List String :=
  rules.flatMap fun r => match r.pattern with | .words ws => ws | _ => []

/-- A rule for fixed words. -/
def Rule.isFixed (r : Rule) : Bool := match r.pattern with | .words _ => true | _ => false

/-- At the front of `cs` there is none of the words that the rules fix. -/
def NoWord (cs : List Char) : Prop := ∀ w ∈ ruleWords, ¬ w.toList <+: cs

/-- The characters of a class stand in none of the words that the rules fix. -/
def unusedInWords (P : Char → Bool) : Bool := ruleWords.all fun w => w.toList.all fun c => !P c

theorem eq_false_of_unused {P : Char → Bool} (hP : unusedInWords P = true) {w : String}
    (hw : w ∈ ruleWords) {c : Char} (hc : c ∈ w.toList) : P c = false := by
  have hword := List.all_eq_true.mp hP w hw
  simpa using List.all_eq_true.mp hword c hc

theorem unused_isBlank : unusedInWords Text.isBlank = true := by decide

theorem unused_isDigit : unusedInWords Text.isDigit = true := by decide +kernel

theorem unused_quote : unusedInWords (· == '"') = true := by decide

/-- A text does not start with a fixed word if no such word has its first character. -/
theorem noWord_cons {P : Char → Bool} (hP : unusedInWords P = true) {c : Char} (hc : P c = true)
    (cs : List Char) : NoWord (c :: cs) := by
  have hne : ∀ w ∈ ruleWords, w.toList ≠ [] := by decide
  intro w hw hlead
  cases hchars : w.toList with
  | nil => exact hne w hw hchars
  | cons d ds =>
    rw [hchars, List.cons_prefix_cons] at hlead
    have hfalse := eq_false_of_unused hP hw (by rw [hchars]; exact List.mem_cons_self)
    rw [hlead.1, hc] at hfalse
    cases hfalse

/-- Rules for fixed words fit only where there is such a word. -/
theorem lexeme?_of_isFixed {r : Rule} (hr : r ∈ rules) (hfixed : r.isFixed = true) {cs : List Char}
    (hcs : NoWord cs) : r.lexeme? cs = none := by
  obtain ⟨kind, pattern⟩ := r
  cases pattern with
  | words ws =>
    have hcut : (Pattern.words ws).cut? cs = none := by
      refine List.findSome?_eq_none_iff.mpr fun w hw => if_neg fun h => ?_
      have hmem : w ∈ ruleWords := List.mem_flatMap.mpr ⟨_, hr, hw⟩
      exact hcs w hmem (List.isPrefixOf_iff_prefix.mp h.2)
    rw [Rule.lexeme?, hcut]
    rfl
  | _ => cases hfixed

/-- The first rule that fits wins. -/
theorem lexeme?_of_rule {before after : List Rule} {r : Rule} {cs l rest : List Char}
    (hrules : rules = before ++ r :: after) (hbefore : ∀ r' ∈ before, r'.lexeme? cs = none)
    (hr : r.pattern.cut? cs = some (l, rest)) : lexeme? cs = some ⟨r.kind, l, rest⟩ := by
  have hlexeme : r.lexeme? cs = some ⟨r.kind, l, rest⟩ := by
    rw [Rule.lexeme?, hr]
    rfl
  exact List.findSome?_eq_some_iff.mpr ⟨before, r, after, hrules, hlexeme, hbefore⟩

/-- The rules for fixed words that come before all others. -/
def leadingRules : List Rule := rules.takeWhile Rule.isFixed

/-- The rules for fixed words that come behind the one for names. -/
def trailingRules : List Rule := (rules.drop (leadingRules.length + 4)).takeWhile Rule.isFixed

/-- The rules for quoted texts and numbers. -/
def literalRules : List Rule := [⟨.string, .quoted⟩, ⟨.float, .decimal⟩, ⟨.int, .integer⟩]

theorem lexeme?_of_leading {r : Rule} (hr : r ∈ leadingRules) {cs : List Char} (hcs : NoWord cs) :
    r.lexeme? cs = none :=
  lexeme?_of_isFixed (List.takeWhile_subset _ hr) (List.all_eq_true.mp List.all_takeWhile r hr) hcs

theorem lexeme?_of_trailing {r : Rule} (hr : r ∈ trailingRules) {cs : List Char} (hcs : NoWord cs) :
    r.lexeme? cs = none :=
  lexeme?_of_isFixed (List.mem_of_mem_drop (List.takeWhile_subset _ hr))
    (List.all_eq_true.mp List.all_takeWhile r hr) hcs

/-! ## patterns that do not fit -/

theorem cutQuoted?_eq_none {c : Char} (hc : c ≠ '"') (cs : List Char) :
    Pattern.cutQuoted? (c :: cs) = none := by
  unfold Pattern.cutQuoted?
  split
  · next h =>
    cases h
    exact (hc rfl).elim
  · rfl

theorem cutSign_of_ne {c : Char} (hc : c ≠ '-') (cs : List Char) :
    Pattern.cutSign (c :: cs) = ([], c :: cs) := by
  unfold Pattern.cutSign
  split
  · next h =>
    cases h
    exact (hc rfl).elim
  · rfl

theorem cutInteger?_eq_none {c : Char} (hc : c ≠ '-') (hdigit : Text.isDigit c = false)
    (cs : List Char) : Pattern.cutInteger? (c :: cs) = none := by
  simp [Pattern.cutInteger?, cutSign_of_ne hc, Pattern.cutRun?, hdigit]

theorem cutDecimal?_eq_none {c : Char} (hc : c ≠ '-') (hdigit : Text.isDigit c = false)
    (cs : List Char) : Pattern.cutDecimal? (c :: cs) = none := by
  rw [Pattern.cutDecimal?, cutInteger?_eq_none hc hdigit]

theorem lexeme?_of_literal {c : Char} (hquote : c ≠ '"') (hsign : c ≠ '-')
    (hdigit : Text.isDigit c = false) (cs : List Char) {r : Rule} (hr : r ∈ literalRules) :
    r.lexeme? (c :: cs) = none := by
  have hnone : r.pattern.cut? (c :: cs) = none := by
    simp only [literalRules, List.mem_cons, List.not_mem_nil, or_false] at hr
    rcases hr with rfl | rfl | rfl
    · exact cutQuoted?_eq_none hquote cs
    · exact cutDecimal?_eq_none hsign hdigit cs
    · exact cutInteger?_eq_none hsign hdigit cs
  rw [Rule.lexeme?, hnone]
  rfl

/-! ## words that are cut off whole -/

/-- A run of characters of a class ends where a character follows that is not of it. -/
theorem takeWhile_append_of_breaks {P : Char → Bool} (hP : ∀ c, Text.isBlank c = true → P c = false)
    {cs rest : List Char} (hcs : ∀ c ∈ cs, P c = true) (hrest : Breaks rest) :
    (cs ++ rest).takeWhile P = cs ∧ (cs ++ rest).dropWhile P = rest := by
  rw [List.takeWhile_append_of_pos hcs, List.dropWhile_append_of_pos hcs]
  cases rest with
  | nil => simp
  | cons c rest =>
    have hc : ¬ P c = true := by simp [hP c (hrest c rfl)]
    rw [List.takeWhile_cons_of_neg hc, List.dropWhile_cons_of_neg hc, List.append_nil]
    exact ⟨rfl, rfl⟩

namespace Word

/-- The fixed words of programs. -/
def fixed : List Word :=
  [⟨.version, "@version"⟩, ⟨.importWord, "import"⟩, ⟨.letWord, "let"⟩, ⟨.returnWord, "return"⟩,
    ⟨.intType, "int"⟩, ⟨.voidType, "void"⟩, ⟨.assign, "="⟩, ⟨.plus, "+"⟩, ⟨.minus, "-"⟩,
    ⟨.lparen, "("⟩, ⟨.rparen, ")"⟩, ⟨.lbrace, "\x7b"⟩, ⟨.rbrace, "\x7d"⟩, ⟨.comma, ","⟩,
    ⟨.semi, ";"⟩]

theorem cut_fixed {w : Word} (h : w ∈ fixed) : w.Cut := by
  simp only [fixed, List.mem_cons, List.not_mem_nil, or_false] at h
  rcases h with rfl | rfl | rfl | rfl | rfl | rfl | rfl | rfl | rfl | rfl | rfl | rfl | rfl | rfl |
    rfl <;> exact ⟨rfl, fun _ _ => rfl⟩

/-- The word of a quoted text. -/
def quoted (s : String) : Word := ⟨.string, String.ofList ('"' :: (s.toList ++ ['"']))⟩

/-- A quoted text is cut off whole if it holds no quote itself. -/
theorem cut_quoted {s : String} (hs : '"' ∉ s.toList) : (quoted s).Cut := by
  refine ⟨rfl, fun rest _ => ?_⟩
  have hchars : ∀ c ∈ s.toList, (c != '"') = true := by
    intro c hc
    rw [bne_iff_ne]
    rintro rfl
    exact hs hc
  have hcut : Pattern.cutQuoted? ('"' :: (s.toList ++ ['"']) ++ rest) =
      some ('"' :: (s.toList ++ ['"']), rest) := by
    simp only [Pattern.cutQuoted?, List.cons_append, List.append_assoc, List.nil_append,
      List.takeWhile_append_of_pos hchars, List.dropWhile_append_of_pos hchars]
    rfl
  rw [quoted, String.toList_ofList]
  have hrules : rules = leadingRules ++ ⟨.string, .quoted⟩ ::
      rules.drop (leadingRules.length + 1) := rfl
  refine lexeme?_of_rule hrules (fun r hr => ?_) hcut
  exact lexeme?_of_leading hr (noWord_cons unused_quote rfl _)

/-- A name: an identifier that does not begin with one of the words that the rules fix. -/
def IsName (s : String) : Prop :=
  s.toList.head?.any Pattern.isIdentStart = true ∧ s.toList.all Pattern.isIdentRest = true ∧
    ∀ w ∈ ruleWords, ¬ w.toList <+: s.toList

instance (s : String) : Decidable (IsName s) := inferInstanceAs (Decidable (_ ∧ _ ∧ _))

/-- What breaks off a name does not make up a fixed word with it. -/
theorem noWord_append {cs rest : List Char} (hcs : NoWord cs) (hrest : Breaks rest) :
    NoWord (cs ++ rest) := by
  intro w hw hlead
  by_cases hlen : w.toList.length ≤ cs.length
  · exact hcs w hw (List.prefix_of_prefix_length_le hlead (List.prefix_append cs rest) hlen)
  · obtain ⟨t, ht⟩ := List.prefix_of_prefix_length_le (List.prefix_append cs rest) hlead
      (Nat.le_of_not_le hlen)
    rw [← ht, List.prefix_append_right_inj] at hlead
    cases t with
    | nil =>
      rw [← ht, List.append_nil] at hlen
      exact hlen (Nat.le_refl _)
    | cons d t =>
      obtain ⟨u, hu⟩ := hlead
      have hd := hrest d (by rw [← hu]; rfl)
      rw [eq_false_of_unused unused_isBlank hw (by rw [← ht]; simp)] at hd
      cases hd

/-- A name is cut off whole. -/
theorem cut_name {s : String} (hs : IsName s) : (Word.mk .ident s).Cut := by
  obtain ⟨hstart, hall, hword⟩ := hs
  refine ⟨rfl, fun rest hrest => ?_⟩
  cases hchars : s.toList with
  | nil =>
    rw [hchars] at hstart
    cases hstart
  | cons c cs =>
    rw [hchars] at hstart hall hword
    have hc : Pattern.isIdentStart c = true := hstart
    have hcs : ∀ d ∈ cs, Pattern.isIdentRest d = true := by
      intro d hd
      exact List.all_eq_true.mp hall d (List.mem_cons_of_mem c hd)
    have hdigit := not_isDigit_of_isIdentStart hc
    obtain ⟨htake, hdrop⟩ :=
      takeWhile_append_of_breaks (fun _ => not_isIdentRest_of_isBlank) hcs hrest
    have hcut : Pattern.cutIdentifier? (c :: cs ++ rest) = some (c :: cs, rest) := by
      rw [List.cons_append, Pattern.cutIdentifier?, if_pos hc, htake, hdrop]
    have hrules : rules = (leadingRules ++ literalRules) ++ ⟨.ident, .identifier⟩ ::
        rules.drop (leadingRules.length + 4) := rfl
    refine lexeme?_of_rule hrules (fun r hr => ?_) hcut
    rcases List.mem_append.mp hr with hr | hr
    · exact lexeme?_of_leading hr (noWord_append hword hrest)
    · exact lexeme?_of_literal (ne_of_class hc (by decide)) (ne_of_class hc (by decide)) hdigit _ hr

/-- Digits are cut off as an integer. -/
theorem cutInteger?_digits {d : Char} {ds rest : List Char} (hd : d ≠ '-')
    (hdigits : ∀ c ∈ d :: ds, Text.isDigit c = true) (hrest : Breaks rest) :
    Pattern.cutInteger? (d :: ds ++ rest) = some (d :: ds, rest) := by
  have hsign : Pattern.cutSign (d :: ds ++ rest) = ([], d :: ds ++ rest) :=
    cutSign_of_ne hd (ds ++ rest)
  obtain ⟨htake, hdrop⟩ :=
    takeWhile_append_of_breaks (fun _ => not_isDigit_of_isBlank) hdigits hrest
  rw [Pattern.cutInteger?, hsign, Pattern.cutRun?, htake, hdrop]
  rfl

/-- No point follows digits that are broken off by a blank. -/
theorem cutDecimal?_digits {d : Char} {ds rest : List Char} (hd : d ≠ '-')
    (hdigits : ∀ c ∈ d :: ds, Text.isDigit c = true) (hrest : Breaks rest) :
    Pattern.cutDecimal? (d :: ds ++ rest) = none := by
  rw [Pattern.cutDecimal?, cutInteger?_digits hd hdigits hrest]
  split
  · next h =>
    cases h
    cases hrest '.' rfl
  · rfl

/-- Digits of any script are cut off whole. -/
theorem cut_digits {s : String} (hne : s.toList ≠ [])
    (hdigits : ∀ c ∈ s.toList, Text.isDigit c = true) : (Word.mk .int s).Cut := by
  refine ⟨rfl, fun rest hrest => ?_⟩
  cases hds : s.toList with
  | nil => exact (hne hds).elim
  | cons d ds =>
    rw [hds] at hdigits
    have hd : Text.isDigit d = true := hdigits d List.mem_cons_self
    have hsign : d ≠ '-' := ne_of_class hd (by decide)
    have hrules : rules = (leadingRules ++ [⟨.string, .quoted⟩, ⟨.float, .decimal⟩]) ++
        ⟨.int, .integer⟩ :: rules.drop (leadingRules.length + 3) := rfl
    refine lexeme?_of_rule hrules (fun r hr => ?_) (cutInteger?_digits hsign hdigits hrest)
    simp only [List.mem_append, List.mem_cons, List.not_mem_nil, or_false] at hr
    rcases hr with hr | rfl | rfl
    · exact lexeme?_of_leading hr (noWord_cons unused_isDigit hd _)
    · exact congrArg (Option.map _) (cutQuoted?_eq_none (ne_of_class hd (by decide)) _)
    · exact congrArg (Option.map _) (cutDecimal?_digits hsign hdigits hrest)

/-- The word of a number without a sign. -/
def decimal (n : Nat) : Word := ⟨.int, Numeric.decimalDigits n⟩

/-- A decimal number is cut off whole. -/
theorem cut_decimal (n : Nat) : (decimal n).Cut := by
  have hchars : (Numeric.decimalDigits n).toList = Nat.toDigits 10 n := String.toList_ofList
  refine cut_digits ?_ fun c hc => ?_
  · rw [hchars]
    exact Nat.toDigits_ne_nil
  · rw [hchars] at hc
    exact isDigit_of_isDigit (Nat.isDigit_of_mem_toDigits (by decide) (by decide) hc)

end Word

/-- Blanks are cut off in one piece. -/
theorem lexeme?_of_isBlank {c : Char} (hc : Text.isBlank c = true) (cs : List Char) :
    lexeme? (c :: cs) =
      some ⟨.whitespace, c :: cs.takeWhile Text.isBlank, cs.dropWhile Text.isBlank⟩ := by
  have hword : NoWord (c :: cs) := noWord_cons unused_isBlank hc cs
  have hcut : Pattern.cutRun? Text.isBlank (c :: cs) =
      some (c :: cs.takeWhile Text.isBlank, cs.dropWhile Text.isBlank) := by
    rw [Pattern.cutRun?, List.takeWhile_cons_of_pos hc, List.dropWhile_cons_of_pos hc]
  have hident : (Rule.mk .ident .identifier).lexeme? (c :: cs) = none := by
    have hnone : Pattern.cutIdentifier? (c :: cs) = none := by
      rw [Pattern.cutIdentifier?, not_isIdentStart_of_isBlank hc]
      rfl
    exact congrArg (Option.map _) hnone
  have hrules : rules = (leadingRules ++ literalRules ++ ⟨.ident, .identifier⟩ :: trailingRules) ++
      ⟨.whitespace, .blanks⟩ :: [⟨.comment, .lineComment⟩] := rfl
  refine lexeme?_of_rule hrules (fun r hr => ?_) hcut
  rcases List.mem_append.mp hr with hr | hr
  · rcases List.mem_append.mp hr with hr | hr
    · exact lexeme?_of_leading hr hword
    · exact lexeme?_of_literal (ne_of_class hc (by decide)) (ne_of_class hc (by decide))
        (not_isDigit_of_isBlank hc) cs hr
  · rcases List.mem_cons.mp hr with rfl | hr
    · exact hident
    · exact lexeme?_of_trailing hr hword

/-! ## texts -/

/-- Words written one after the other from the front of a text on, with blanks between
them and possibly behind them. -/
inductive Written : List Word → List Char → Prop
  | nil : Written [] []
  | cons (w : Word) {ws : List Word} {gap cs : List Char} (hgap : AllBlank gap)
      (hne : ws ≠ [] → gap ≠ []) (h : Written ws cs) :
      Written (w :: ws) (w.text.toList ++ (gap ++ cs))

/-- A text spells words: they are written in it with blanks between them and possibly
around them. -/
def Spells (code : String) (ws : List Word) : Prop :=
  ∃ lead cs, code.toList = lead ++ cs ∧ AllBlank lead ∧ Written ws cs

/-- Words with one space between any two of them. -/
def spaced : List Word → List Char
  | [] => []
  | [w] => w.text.toList
  | w :: ws => w.text.toList ++ ' ' :: spaced ws

theorem written_spaced (ws : List Word) : Written ws (spaced ws) := by
  fun_induction spaced ws with
  | case1 => exact .nil
  | case2 w =>
    have hblank : AllBlank [] := by simp [AllBlank]
    simpa using Written.cons w hblank (by simp) .nil
  | case3 w ws _ ih =>
    have hblank : AllBlank [' '] := by simp [AllBlank, Text.isBlank]
    exact .cons w hblank (by simp) ih

theorem spells_spaced (ws : List Word) : Spells (String.ofList (spaced ws)) ws :=
  ⟨[], spaced ws, by simp, by simp [AllBlank], written_spaced ws⟩

theorem tokenizeFrom_of_lexeme? {p : Position} {cs : List Char} {x : Lexeme}
    (h : lexeme? cs = some x) :
    tokenizeFrom p cs =
      (tokenizeFrom (p.advanceAll x.chars) x.rest).map ((x.token? p).toList ++ ·) := by
  cases cs with
  | nil =>
    obtain ⟨hne, happ⟩ := lexeme?_eq_some h
    exact (hne (List.append_eq_nil_iff.mp happ).1).elim
  | cons c cs =>
    rw [tokenizeFrom]
    split
    · next hnone =>
      rw [h] at hnone
      cases hnone
    · next y hy =>
      rw [h] at hy
      cases hy
      rfl

theorem recoverFrom_of_lexeme? {p : Position} {cs : List Char} {x : Lexeme}
    (h : lexeme? cs = some x) :
    recoverFrom p cs =
      ((x.token? p).toList ++ (recoverFrom (p.advanceAll x.chars) x.rest).1,
        (recoverFrom (p.advanceAll x.chars) x.rest).2) := by
  cases cs with
  | nil =>
    obtain ⟨hne, happ⟩ := lexeme?_eq_some h
    exact (hne (List.append_eq_nil_iff.mp happ).1).elim
  | cons c cs =>
    rw [recoverFrom]
    split
    · next hnone =>
      rw [h] at hnone
      cases hnone
    · next y hy =>
      rw [h] at hy
      cases hy
      rfl

theorem recoverFrom_of_none {p : Position} {c : Char} {cs : List Char}
    (h : lexeme? (c :: cs) = none) :
    recoverFrom p (c :: cs) =
      ((recoverFrom (p.advance c) cs).1, .here p c cs :: (recoverFrom (p.advance c) cs).2) := by
  rw [recoverFrom]
  split
  · rfl
  · next x hx =>
    rw [h] at hx
    cases hx

/-- Behind a quote at which no rule fits there is no other one. -/
theorem not_mem_of_no_lexeme {cs : List Char} (h : lexeme? ('"' :: cs) = none) : '"' ∉ cs := by
  have hrule := List.findSome?_eq_none_iff.mp h ⟨.string, .quoted⟩ (by simp [rules])
  have hcut : Pattern.cutQuoted? ('"' :: cs) = none := Option.map_eq_none_iff.mp hrule
  simp only [Pattern.cutQuoted?] at hcut
  intro hmem
  split at hcut
  · next hdrop =>
    have hpassed := List.dropWhile_eq_nil_iff.mp hdrop _ hmem
    simp at hpassed
  · cases hcut

/-- Where no rule fits, the search for a closing quote finds none: a quote is never reported
as an unexpected character. -/
theorem LexError.here_of_none {c : Char} {cs : List Char} (h : lexeme? (c :: cs) = none)
    (p : Position) :
    LexError.here p c cs = ⟨if c = '"' then .unterminated else .unexpected c, p⟩ := by
  unfold LexError.here
  by_cases hc : c = '"'
  · subst hc
    have hdrop : cs.dropWhile (· != '"') = [] := by
      rw [List.dropWhile_eq_nil_iff]
      intro d hd
      have hne : d ≠ '"' := fun hd' => not_mem_of_no_lexeme h (hd' ▸ hd)
      simpa using hne
    rw [if_pos ⟨rfl, hdrop⟩, if_pos rfl]
  · rw [if_neg fun hboth => hc hboth.1, if_neg hc]

/-- The tokens of a text if no place in it was reported, and the first such place otherwise. -/
def settle : List Token × List LexError → Except LexError (List Token)
  | (tokens, []) => .ok tokens
  | (_, e :: _) => .error e

/-- Lexing that stops at the first error is lexing that goes on, up to that error. -/
theorem tokenizeFrom_eq_settle (p : Position) (cs : List Char) :
    tokenizeFrom p cs = settle (recoverFrom p cs) := by
  fun_induction tokenizeFrom p cs with
  | case1 p => rw [recoverFrom, settle]
  | case2 p c cs hnone => rw [recoverFrom_of_none hnone, settle]
  | case3 p c cs x hx ih =>
    rw [recoverFrom_of_lexeme? hx, ih]
    obtain ⟨tokens, errors⟩ := recoverFrom (p.advanceAll x.chars) x.rest
    cases errors with
    | nil => rfl
    | cons e errors => rfl

theorem settle_eq_ok_iff {found : List Token × List LexError} {tokens : List Token} :
    settle found = .ok tokens ↔ found = (tokens, []) := by
  obtain ⟨tokens', errors⟩ := found
  cases errors with
  | nil => simp [settle]
  | cons e errors => simp [settle]

theorem settle_eq_error_iff {found : List Token × List LexError} {e : LexError} :
    settle found = .error e ↔ found.2.head? = some e := by
  obtain ⟨tokens, errors⟩ := found
  cases errors with
  | nil => simp [settle]
  | cons e' errors => simp [settle]

/-- Blanks at the front of a text leave no token and no error. -/
theorem recoverFrom_blanks {gap : List Char} (hgap : AllBlank gap) (p : Position)
    (cs : List Char) : recoverFrom p (gap ++ cs) = recoverFrom (p.advanceAll gap) cs := by
  -- a blank is cut off with all that follow it, so the two sides cut the same run
  have hrun : ∀ (p : Position) (c : Char) (cs : List Char), Text.isBlank c = true →
      recoverFrom p (c :: cs) = recoverFrom (p.advanceAll (c :: cs.takeWhile Text.isBlank))
        (cs.dropWhile Text.isBlank) := by
    intro p c cs hc
    rw [recoverFrom_of_lexeme? (lexeme?_of_isBlank hc cs)]
    rfl
  have hone : ∀ (p : Position) (c : Char) (cs : List Char), Text.isBlank c = true →
      recoverFrom p (c :: cs) = recoverFrom (p.advance c) cs := by
    intro p c cs hc
    rw [hrun p c cs hc]
    cases cs with
    | nil => rfl
    | cons d cs =>
      by_cases hd : Text.isBlank d = true
      · rw [hrun _ d cs hd, List.takeWhile_cons_of_pos hd, List.dropWhile_cons_of_pos hd]
        rfl
      · rw [List.takeWhile_cons_of_neg hd, List.dropWhile_cons_of_neg hd]
        rfl
  induction gap generalizing p with
  | nil => rfl
  | cons c gap ih =>
    rw [List.cons_append, hone p c _ (hgap c List.mem_cons_self)]
    exact ih (fun d hd => hgap d (List.mem_cons_of_mem c hd)) _

/-- Blanks at the front of a text leave no token. -/
theorem tokenizeFrom_blanks {gap : List Char} (hgap : AllBlank gap) (p : Position)
    (cs : List Char) : tokenizeFrom p (gap ++ cs) = tokenizeFrom (p.advanceAll gap) cs := by
  rw [tokenizeFrom_eq_settle, recoverFrom_blanks hgap, tokenizeFrom_eq_settle]

/-- Lexing succeeds with the tokens that are found without an error. -/
theorem tokenize_eq_ok_iff {code : String} {tokens : List Token} :
    tokenize code = .ok tokens ↔ recover code = (tokens, []) := by
  rw [tokenize, tokenizeFrom_eq_settle, settle_eq_ok_iff, recover]

/-- Lexing fails with the first error that is found. -/
theorem tokenize_eq_error_iff {code : String} {e : LexError} :
    tokenize code = .error e ↔ (recover code).2.head? = some e := by
  rw [tokenize, tokenizeFrom_eq_settle, settle_eq_error_iff, recover]

/-- A word at the front of a text leaves an occurrence of it. -/
theorem Word.Cut.tokenizeFrom_append {w : Word} (hw : w.Cut) {rest : List Char}
    (hrest : Breaks rest) (p : Position) :
    tokenizeFrom p (w.text.toList ++ rest) =
      (tokenizeFrom (p.advanceAll w.text.toList) rest).map
        (⟨w.kind, w.text, p.line, p.column⟩ :: ·) := by
  rw [tokenizeFrom_of_lexeme? (hw.lexeme rest hrest), Lexeme.token?, if_neg (by simp [hw.kept]),
    String.ofList_toList]
  rfl

/-- Behind a word in a text there is a blank or nothing. -/
theorem Written.breaks {ws : List Word} {gap cs : List Char} (hgap : AllBlank gap)
    (hne : ws ≠ [] → gap ≠ []) (h : Written ws cs) : Breaks (gap ++ cs) := by
  cases gap with
  | nil =>
    cases h with
    | nil => simp [Breaks]
    | cons w hgap' hne' h' => exact (hne (by simp) rfl).elim
  | cons c gap =>
    intro d hd
    cases hd
    exact hgap c List.mem_cons_self

theorem Written.exists_tokenizeFrom {ws : List Word} {cs : List Char} (h : Written ws cs)
    (hcut : ∀ w ∈ ws, w.Cut) (p : Position) :
    ∃ tokens, tokenizeFrom p cs = .ok tokens ∧ tokens.map Token.word = ws := by
  induction h generalizing p with
  | nil => exact ⟨[], by rw [tokenizeFrom], rfl⟩
  | @cons w ws gap cs hgap hne h ih =>
    have hw : w.Cut := hcut w List.mem_cons_self
    obtain ⟨tokens, htokens, hwords⟩ :=
      ih (fun v hv => hcut v (List.mem_cons_of_mem w hv))
        ((p.advanceAll w.text.toList).advanceAll gap)
    refine ⟨⟨w.kind, w.text, p.line, p.column⟩ :: tokens, ?_, ?_⟩
    · rw [hw.tokenizeFrom_append (h.breaks hgap hne), tokenizeFrom_blanks hgap, htokens]
      rfl
    · rw [List.map_cons, hwords]
      rfl

/-- The tokens of a text are occurrences of the words that it spells. -/
theorem exists_tokenize_of_spells {code : String} {ws : List Word} (hcut : ∀ w ∈ ws, w.Cut)
    (h : Spells code ws) : ∃ tokens, tokenize code = .ok tokens ∧ tokens.map Token.word = ws := by
  obtain ⟨lead, cs, hcode, hlead, hwritten⟩ := h
  rw [tokenize, hcode, tokenizeFrom_blanks hlead]
  exact hwritten.exists_tokenizeFrom hcut _

end LetCall
