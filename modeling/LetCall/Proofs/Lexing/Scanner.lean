import LetCall.Proofs.Lexing.Layout

/-!
# LetCall.Proofs.Lexing.Scanner

A scanner that goes by single characters.  It passes over blanks, letters, digits and signs
wherever they stand, over three words and over quoted texts as a whole, and fails at everything
else; it knows neither the rules of the lexer nor their order.

Main statement: the scanner reaches the end of just those texts that have tokens, and in any
other text it fails at the place that the lexer reports (`tokenize_scanned`).  The scanner
passes over every lexeme, so that none of them hides a place of failure (`scanFrom_lexeme`),
and it fails where no rule fits (`step?_of_no_lexeme`).
-/

namespace LetCall

namespace Scanner

/-! ## the scanner -/

/-- The signs that are passed over one by one. -/
def signs : List Char :=
  ['=', '+', '-', '*', '/', '%', '<', '>', '!', '(', ')', '\x7b', '\x7d', '[', ']', ':', ';', ',',
    '.']

/-- A character that is passed over wherever it stands. -/
@[irreducible] def isPlain (c : Char) : Bool :=
  Text.isBlank c || Pattern.isIdentStart c || Text.isDigit c || signs.contains c

theorem isPlain_iff {c : Char} :
    isPlain c = true ↔ Text.isBlank c = true ∨ Pattern.isIdentStart c = true ∨
      Text.isDigit c = true ∨ c ∈ signs := by
  delta isPlain
  simp only [Bool.or_eq_true, List.contains_iff_mem, or_assoc]

/-- The characters that open a word, with the rest of it. -/
def openers : List (Char × String) := [('@', "version"), ('&', "&"), ('|', "|")]

/-- What stands behind a word at the front of a text. -/
def behind? (w cs : List Char) : Option (List Char) :=
  if w.isPrefixOf cs then some (cs.drop w.length) else none

/-- What stands behind the next quote of a text. -/
def behindQuote? (cs : List Char) : Option (List Char) := (cs.dropWhile (· != '"')).tail?

/-- What is left of a text that starts with `c` after one step of the scanner. -/
def step? (c : Char) (cs : List Char) : Option (List Char) :=
  if isPlain c then some cs
  else if c = '"' then behindQuote? cs
  else (openers.lookup c).bind fun w => behind? w.toList cs

theorem behind?_eq_some_iff {w cs rest : List Char} :
    behind? w cs = some rest ↔ cs = w ++ rest := by
  unfold behind?
  constructor
  · intro h
    by_cases hw : w.isPrefixOf cs = true
    · rw [if_pos hw, Option.some_inj] at h
      have happ := List.prefix_iff_eq_append.mp (List.isPrefixOf_iff_prefix.mp hw)
      rw [← h, happ]
    · rw [if_neg hw] at h
      cases h
  · rintro rfl
    simp

theorem behindQuote?_eq_some_iff {cs rest : List Char} :
    behindQuote? cs = some rest ↔ ∃ body, '"' ∉ body ∧ cs = body ++ '"' :: rest := by
  unfold behindQuote?
  induction cs with
  | nil => simp
  | cons c cs ih =>
    by_cases hc : c = '"'
    · subst hc
      rw [List.dropWhile_cons_of_neg (by simp), List.tail?_cons, Option.some_inj]
      constructor
      · rintro rfl
        exact ⟨[], by simp, rfl⟩
      · rintro ⟨body, hbody, hcs⟩
        cases body with
        | nil => simpa using hcs
        | cons d body => simp_all
    · rw [List.dropWhile_cons_of_pos (by simpa using hc), ih]
      constructor
      · rintro ⟨body, hbody, rfl⟩
        exact ⟨c :: body, by simp [hbody, Ne.symm hc], rfl⟩
      · rintro ⟨body, hbody, hcs⟩
        cases body with
        | nil => simp_all
        | cons d body =>
          rw [List.cons_append, List.cons.injEq] at hcs
          exact ⟨body, fun h => hbody (List.mem_cons_of_mem d h), hcs.2⟩

theorem lookup_openers_eq_some_iff {c : Char} {w : String} :
    openers.lookup c = some w ↔ (c, w) ∈ openers := by
  simp only [openers, List.lookup_cons, List.lookup_nil]
  grind

/-- What one step passes over: a plain character, a word or a quoted text. -/
inductive Stepped : List Char → Prop
  | plain {c : Char} (h : isPlain c = true) : Stepped [c]
  | word {c : Char} {w : String} (h : (c, w) ∈ openers) : Stepped (c :: w.toList)
  | quoted {body : List Char} (h : '"' ∉ body) : Stepped ('"' :: (body ++ ['"']))

theorem Stepped.ne_nil {l : List Char} (h : Stepped l) : l ≠ [] := by
  cases h <;> simp

theorem openers_special :
    openers.all (fun o => !isPlain o.1 && o.1 != '"') = true := by decide +kernel

theorem step?_eq_some_iff {c : Char} {cs rest : List Char} :
    step? c cs = some rest ↔ ∃ l, Stepped l ∧ c :: cs = l ++ rest := by
  have hquote : isPlain '"' = false := by decide +kernel
  constructor
  · intro h
    unfold step? at h
    split at h
    · next hc =>
      cases h
      exact ⟨[c], .plain hc, rfl⟩
    split at h
    · next hc =>
      subst hc
      obtain ⟨body, hbody, rfl⟩ := behindQuote?_eq_some_iff.mp h
      exact ⟨_, .quoted hbody, by simp⟩
    · obtain ⟨w, hw, hbehind⟩ := Option.bind_eq_some_iff.mp h
      rw [behind?_eq_some_iff] at hbehind
      exact ⟨_, .word (lookup_openers_eq_some_iff.mp hw), by rw [hbehind]; rfl⟩
  · rintro ⟨l, hl, hcs⟩
    cases hl with
    | plain hc =>
      cases hcs
      simp [step?, hc]
    | @word d w hw =>
      cases hcs
      have hspecial := List.all_eq_true.mp openers_special _ hw
      simp only [Bool.and_eq_true, Bool.not_eq_true', bne_iff_ne] at hspecial
      have hbehind := behind?_eq_some_iff.mpr (rfl : w.toList ++ rest = _)
      simp [step?, hspecial, lookup_openers_eq_some_iff.mpr hw, hbehind]
    | @quoted body hbody =>
      have hbehind := behindQuote?_eq_some_iff.mpr ⟨body, hbody, (rfl : body ++ '"' :: rest = _)⟩
      simp only [List.cons_append, List.append_assoc, List.nil_append, List.cons.injEq] at hcs
      obtain ⟨rfl, rfl⟩ := hcs
      simp [step?, hquote, hbehind]

theorem length_lt_of_step? {c : Char} {cs rest : List Char} (h : step? c cs = some rest) :
    rest.length < (c :: cs).length := by
  obtain ⟨l, hl, hcs⟩ := step?_eq_some_iff.mp h
  have hpos := List.length_pos_iff.mpr hl.ne_nil
  rw [hcs, List.length_append]
  omega

/-- The offset at which the scan of a text fails, if it does; the text starts at `p`. -/
def scanFrom (p : Nat) : List Char → Option Nat
  | [] => none
  | c :: cs =>
    match _h : step? c cs with
    | none => some p
    | some rest => scanFrom (p + ((c :: cs).length - rest.length)) rest
termination_by cs => cs.length
decreasing_by exact length_lt_of_step? _h

/-- The offset at which the scan of a source fails, if it does. -/
def scan (code : String) : Option Nat := scanFrom 0 code.toList

theorem scanFrom_of_none {p : Nat} {c : Char} {cs : List Char} (h : step? c cs = none) :
    scanFrom p (c :: cs) = some p := by
  rw [scanFrom]
  split
  · rfl
  · next rest hrest =>
    rw [h] at hrest
    cases hrest

/-! ## what is passed over -/

/-- The scanner passes over a text, whatever follows. -/
def Passes (l : List Char) : Prop :=
  ∀ p rest, scanFrom p (l ++ rest) = scanFrom (p + l.length) rest

theorem Stepped.passes {l : List Char} (h : Stepped l) : Passes l := by
  intro p rest
  cases l with
  | nil => exact (h.ne_nil rfl).elim
  | cons c cs =>
    have hstep : step? c (cs ++ rest) = some rest := step?_eq_some_iff.mpr ⟨c :: cs, h, rfl⟩
    have hlength : (c :: (cs ++ rest)).length - rest.length = (c :: cs).length := by
      simp only [List.length_cons, List.length_append]
      omega
    rw [List.cons_append, scanFrom]
    split
    · next hnone =>
      rw [hstep] at hnone
      cases hnone
    · next rest' hrest' =>
      rw [hstep, Option.some_inj] at hrest'
      rw [← hrest', hlength]

theorem Passes.append {l l' : List Char} (h : Passes l) (h' : Passes l') : Passes (l ++ l') := by
  intro p rest
  rw [List.append_assoc, h, h', List.length_append, Nat.add_assoc]

theorem passes_of_plain {l : List Char} (h : ∀ c ∈ l, isPlain c = true) : Passes l := by
  induction l with
  | nil =>
    intro p rest
    rfl
  | cons c cs ih =>
    rw [List.forall_mem_cons] at h
    exact (Stepped.plain h.1).passes.append (ih h.2)

/-! ## lexemes -/

/-- The words of the rules are plain, apart from those that are passed over as a whole. -/
theorem ruleWords_passed :
    ruleWords.all (fun w => w.toList.all isPlain ||
      openers.any fun o => w.toList == o.1 :: o.2.toList) = true := by decide +kernel

theorem isPlain_of_digit {c : Char} (h : Text.isDigit c = true) : isPlain c = true :=
  isPlain_iff.mpr (.inr (.inr (.inl h)))

theorem isPlain_of_isIdentRest {c : Char} (h : Pattern.isIdentRest c = true) :
    isPlain c = true := by
  simp only [Pattern.isIdentRest, Char.isAlphanum, Bool.or_eq_true, beq_iff_eq] at h
  rcases h with (h | h) | h
  · exact isPlain_iff.mpr (.inr (.inl (by simp [Pattern.isIdentStart, h])))
  · exact isPlain_of_digit (isDigit_of_isDigit h)
  · exact isPlain_iff.mpr (.inr (.inl (by simp [Pattern.isIdentStart, h])))

theorem isPlain_of_isSign {sign : List Char} (h : Pattern.IsSign sign) :
    ∀ c ∈ sign, isPlain c = true := by
  rcases h with rfl | rfl
  · simp
  · have hminus : isPlain '-' = true := by decide +kernel
    simp [hminus]

/-- The scanner passes over everything that has the shape of a rule's lexemes, comments
apart. -/
theorem passes_of_shape {r : Rule} (hr : r ∈ rules) (hcomment : r.pattern ≠ .lineComment)
    {l : List Char} (hl : r.pattern.Shape l) : Passes l := by
  obtain ⟨kind, pattern⟩ := r
  cases pattern with
  | words ws =>
    obtain ⟨_, w, hw, rfl⟩ := hl
    have hword := List.all_eq_true.mp ruleWords_passed w (List.mem_flatMap.mpr ⟨_, hr, hw⟩)
    rw [Bool.or_eq_true] at hword
    rcases hword with hplain | hopener
    · exact passes_of_plain (List.all_eq_true.mp hplain)
    · obtain ⟨⟨c, w'⟩, hmem, heq⟩ := List.any_eq_true.mp hopener
      rw [eq_of_beq heq]
      exact (Stepped.word hmem).passes
  | quoted =>
    obtain ⟨body, hbody, rfl⟩ := hl
    exact (Stepped.quoted hbody).passes
  | decimal =>
    obtain ⟨sign, ds, fs, hsign, hds, hfs, rfl⟩ := hl
    have hpoint : isPlain '.' = true := by decide +kernel
    apply passes_of_plain
    simp only [List.mem_append, List.mem_cons]
    rintro c (hc | hc | rfl | hc)
    · exact isPlain_of_isSign hsign c hc
    · exact isPlain_of_digit (hds.2 c hc)
    · exact hpoint
    · exact isPlain_of_digit (hfs.2 c hc)
  | integer =>
    obtain ⟨sign, ds, hsign, hds, rfl⟩ := hl
    apply passes_of_plain
    simp only [List.mem_append]
    rintro c (hc | hc)
    · exact isPlain_of_isSign hsign c hc
    · exact isPlain_of_digit (hds.2 c hc)
  | identifier =>
    obtain ⟨d, cs, hd, hcs, rfl⟩ := hl
    apply passes_of_plain
    rw [List.forall_mem_cons]
    exact ⟨isPlain_iff.mpr (.inr (.inl hd)), fun c hc => isPlain_of_isIdentRest (hcs c hc)⟩
  | blanks => exact passes_of_plain fun c hc => isPlain_iff.mpr (.inl (hl.2 c hc))
  | lineComment => exact (hcomment rfl).elim

/-- The scanner passes over a lexeme to what follows it. -/
theorem scanFrom_lexeme {cs : List Char} {x : Lexeme} (h : lexeme? cs = some x) (p : Nat) :
    scanFrom p cs = scanFrom (p + x.chars.length) x.rest := by
  obtain ⟨happ, r, _, hwins⟩ := lexeme?_eq_some_iff.mp h
  rw [← happ]
  exact passes_of_shape hwins.mem hwins.ne_lineComment hwins.shape p x.rest

/-! ## places where no rule fits -/

theorem lexeme?_eq_none_iff {cs : List Char} :
    lexeme? cs = none ↔ ∀ r ∈ rules, r.Idle cs := by
  rw [lexeme?, List.findSome?_eq_none_iff]
  constructor
  · intro h r hr
    exact (Rule.lexeme?_eq_none_iff hr).mp (h r hr)
  · intro h r hr
    exact (Rule.lexeme?_eq_none_iff hr).mpr (h r hr)

/-- The signs and the words that are passed over as a whole are words of the rules. -/
theorem signs_ruleWords : signs.all (fun c => ruleWords.contains (String.singleton c)) = true := by
  decide

theorem openers_ruleWords :
    openers.all (fun o => ruleWords.contains (String.ofList (o.1 :: o.2.toList))) = true := by
  decide

theorem exists_rule_of_ruleWord {w : String} (hw : w ∈ ruleWords) (hne : w.toList ≠ []) :
    ∃ r ∈ rules, r.pattern.Shape w.toList := by
  obtain ⟨⟨kind, pattern⟩, hr, hmem⟩ := List.mem_flatMap.mp hw
  cases pattern with
  | words ws => exact ⟨_, hr, hne, w, hmem, rfl⟩
  | _ => cases hmem

/-- What one step passes over has the shape of the lexemes of some rule. -/
theorem Stepped.exists_rule {l : List Char} (h : Stepped l) :
    ∃ r ∈ rules, r.pattern.Shape l := by
  cases h with
  | @plain c hc =>
    rcases isPlain_iff.mp hc with hblank | hstart | hdigit | hsign
    · exact ⟨⟨.whitespace, .blanks⟩, by simp [rules], by simp, by simpa using hblank⟩
    · exact ⟨⟨.ident, .identifier⟩, by simp [rules], c, [], hstart, by simp, rfl⟩
    · exact ⟨⟨.int, .integer⟩, by simp [rules], [], [c], .inl rfl, ⟨by simp, by simpa⟩, rfl⟩
    · have hword := List.all_eq_true.mp signs_ruleWords c hsign
      have hrule := exists_rule_of_ruleWord (List.contains_iff_mem.mp hword) (by simp)
      simpa using hrule
  | @word c w hw =>
    have hword := List.all_eq_true.mp openers_ruleWords _ hw
    have hrule := exists_rule_of_ruleWord (List.contains_iff_mem.mp hword) (by simp)
    simpa using hrule
  | @quoted body hbody => exact ⟨⟨.string, .quoted⟩, by simp [rules], body, hbody, rfl⟩

/-- The scanner fails where no rule fits. -/
theorem step?_of_no_lexeme {c : Char} {cs : List Char} (h : lexeme? (c :: cs) = none) :
    step? c cs = none := by
  cases hstep : step? c cs with
  | none => rfl
  | some rest =>
    obtain ⟨l, hl, hcs⟩ := step?_eq_some_iff.mp hstep
    obtain ⟨r, hr, hshape⟩ := hl.exists_rule
    exact (lexeme?_eq_none_iff.mp h r hr l ⟨rest, hcs.symm⟩ hshape).elim

/-! ## texts -/

/-- The offset that lexing reports, if it fails. -/
def failingOffset? : Except LexError (List Token) → Option Nat
  | .ok _ => none
  | .error e => some e.position.offset

-- by induction along the lexemes: the scanner passes over each, and fails behind the last one
-- just if no rule fits there
theorem scanFrom_eq (p : Position) (cs : List Char) :
    scanFrom p.offset cs = failingOffset? (tokenizeFrom p cs) := by
  fun_induction tokenizeFrom p cs with
  | case1 p =>
    rw [scanFrom]
    rfl
  | case2 p c cs hnone => exact scanFrom_of_none (step?_of_no_lexeme hnone)
  | case3 p c cs x hx ih =>
    rw [scanFrom_lexeme hx, ← Position.offset_advanceAll p x.chars, ih]
    cases tokenizeFrom (p.advanceAll x.chars) x.rest <;> rfl

theorem scan_eq (code : String) : scan code = failingOffset? (tokenize code) :=
  scanFrom_eq Position.start code.toList

/-- The scan of a text reaches the end just if lexing succeeds. -/
theorem scan_eq_none_iff {code : String} :
    scan code = none ↔ ∃ tokens, tokenize code = .ok tokens := by
  rw [scan_eq]
  cases tokenize code <;> simp [failingOffset?]

theorem scan_eq_some_iff {code : String} {p : Nat} :
    scan code = some p ↔ ∃ e, tokenize code = .error e ∧ e.position.offset = p := by
  rw [scan_eq]
  cases tokenize code <;> simp [failingOffset?]

/-! ## reports -/

theorem text_unexpected (c : Char) :
    "Unexpected character ".toList <+: (LexError.Cause.unexpected c).text.toList := by
  cases hprintable : Text.isPrintable c with
  | true => simp [LexError.Cause.text, hprintable, toString]
  | false => simp [LexError.Cause.text, hprintable, toString]

theorem text_ne_unexpected (c : Char) :
    (LexError.Cause.unexpected c).text ≠ "Unterminated string literal" := by
  intro h
  have hfront := text_unexpected c
  rw [h] at hfront
  revert hfront
  decide

/-- What is reported of the place before `c`, with the text in front of it and behind it. -/
structure Report (before : List Char) (c : Char) (after : List Char) (e : LexError) : Prop where
  position : e.position = ⟨lineAfter before, columnAfter before, before.length⟩
  unterminated : e.text = "Unterminated string literal" ↔ c = '"'
  unclosed : c = '"' → '"' ∉ after
  unexpected : c ≠ '"' →
    e.cause = .unexpected c ∧ "Unexpected character ".toList <+: e.text.toList

theorem report_here {before : List Char} {c : Char} {after : List Char}
    (h : lexeme? (c :: after) = none) :
    Report before c after (.here (Position.start.advanceAll before) c after) where
  position := by
    rw [← line_advanceAll_start, ← column_advanceAll_start, ← offset_advanceAll_start]
    rfl
  unterminated := by
    rw [LexError.here_of_none h]
    by_cases hc : c = '"'
    · simp [LexError.text, LexError.Cause.text, hc]
    · simp [LexError.text, hc, text_ne_unexpected]
  unclosed := by
    rintro rfl
    exact not_mem_of_no_lexeme h
  unexpected := by
    intro hc
    have hcause :
        (LexError.here (Position.start.advanceAll before) c after).cause = .unexpected c := by
      rw [LexError.here_of_none h, if_neg hc]
    refine ⟨hcause, ?_⟩
    rw [LexError.text, hcause]
    exact text_unexpected c

/-- Lexing succeeds on just those texts whose scan reaches the end.  Where the scan of a text
fails, lexing reports that place with its line and its column; an opening quote is reported
just if no other quote follows it; and what stands before the place has tokens. -/
theorem tokenize_scanned (code : String) :
    ((∃ tokens, tokenize code = .ok tokens) ↔ scan code = none) ∧
      ∀ p, scan code = some p → ∃ before c after e,
        code.toList = before ++ c :: after ∧ before.length = p ∧
        tokenize code = .error e ∧ Report before c after e ∧
        ∃ tokens, tokenize (String.ofList before) = .ok tokens := by
  refine ⟨scan_eq_none_iff.symm, ?_⟩
  intro p hp
  obtain ⟨e, he, hoffset⟩ := scan_eq_some_iff.mp hp
  obtain ⟨errors, herrors⟩ := List.head?_eq_some_iff.mp (tokenize_eq_error_iff.mp he)
  obtain ⟨before, c, after, hcode, hnone, hbefore, hhere, _⟩ :=
    exists_split_of_error (Prod.ext (rfl : (recover code).1 = _) herrors)
  have hreport : Report before c after e := by
    rw [hhere]
    exact report_here hnone
  refine ⟨before, c, after, e, hcode, ?_, he, hreport, (recover (String.ofList before)).1, ?_⟩
  · rw [← hoffset, hreport.position]
  · rw [tokenize_eq_ok_iff]
    refine Prod.ext rfl ?_
    simpa [recover] using hbefore

/-- The second quotation of this text is not closed. -/
theorem scanned_open_quotation :
    scan "a \"b\" \"c" = some 6 ∧
      ∃ before c after e, "a \"b\" \"c".toList = before ++ c :: after ∧ before.length = 6 ∧
        tokenize "a \"b\" \"c" = .error e ∧ Report before c after e ∧
        ∃ tokens, tokenize (String.ofList before) = .ok tokens := by
  have hscan : scan "a \"b\" \"c" = some 6 := by decide +kernel
  exact ⟨hscan, (tokenize_scanned _).2 6 hscan⟩

end Scanner

end LetCall
