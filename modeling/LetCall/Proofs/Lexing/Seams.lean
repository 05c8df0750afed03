import LetCall.Proofs.Lexing.Shapes

/-!
# LetCall.Proofs.Lexing.Seams

Where a text can be cut in two and lexed piece by piece.  Nothing but a quoted text or a
run of blanks reaches over a blank, and a quoted text that is closed ends where it is
closed; so a text that has been lexed stays as it is when a blank and anything more is put
behind it (`recoverFrom_append`).  A text that cannot be lexed is lexed up to the place
where no rule fits (`exists_split_of_error`).
-/

namespace LetCall

/-! ## shapes and blanks -/

theorem not_isBlank_of_digit {c : Char} (h : Text.isDigit c = true) : Text.isBlank c = false := by
  refine Bool.eq_false_iff.mpr fun hblank => ?_
  rw [not_isDigit_of_isBlank hblank] at h
  cases h

theorem not_isBlank_of_isIdentRest {c : Char} (h : Pattern.isIdentRest c = true) :
    Text.isBlank c = false := by
  refine Bool.eq_false_iff.mpr fun hblank => ?_
  rw [not_isIdentRest_of_isBlank hblank] at h
  cases h

theorem isIdentRest_of_isIdentStart {c : Char} (h : Pattern.isIdentStart c = true) :
    Pattern.isIdentRest c = true := by
  simp only [Pattern.isIdentStart, Pattern.isIdentRest, Char.isAlphanum, Bool.or_eq_true] at h ⊢
  exact h.imp_left .inl

/-- Patterns whose lexemes may hold a blank, or that read on to the end of the line. -/
def Pattern.isOpen : Pattern → Bool
  | quoted | blanks | lineComment => true
  | _ => false

/-- No other lexeme of a rule holds a blank. -/
theorem not_isBlank_of_shape {r : Rule} (hr : r ∈ rules) (hopen : r.pattern.isOpen = false)
    {l : List Char} (hl : r.pattern.Shape l) : ∀ c ∈ l, Text.isBlank c = false := by
  have hsign : ∀ {sign : List Char}, Pattern.IsSign sign → ∀ c ∈ sign, Text.isBlank c = false := by
    rintro sign (rfl | rfl) c hc
    · cases hc
    · cases List.mem_singleton.mp hc
      decide
  obtain ⟨kind, pattern⟩ := r
  intro c hc
  cases pattern with
  | words ws =>
    obtain ⟨_, w, hw, rfl⟩ := hl
    exact eq_false_of_unused unused_isBlank (List.mem_flatMap.mpr ⟨_, hr, hw⟩) hc
  | decimal =>
    obtain ⟨sign, ds, fs, hs, hds, hfs, rfl⟩ := hl
    simp only [List.mem_append, List.mem_cons] at hc
    rcases hc with hc | hc | rfl | hc
    · exact hsign hs c hc
    · exact not_isBlank_of_digit (hds.2 c hc)
    · decide
    · exact not_isBlank_of_digit (hfs.2 c hc)
  | integer =>
    obtain ⟨sign, ds, hs, hds, rfl⟩ := hl
    rcases List.mem_append.mp hc with hc | hc
    · exact hsign hs c hc
    · exact not_isBlank_of_digit (hds.2 c hc)
  | identifier =>
    obtain ⟨d, cs, hd, hcs, rfl⟩ := hl
    rcases List.mem_cons.mp hc with rfl | hc
    · exact not_isBlank_of_isIdentRest (isIdentRest_of_isIdentStart hd)
    · exact not_isBlank_of_isIdentRest (hcs c hc)
  | _ => cases hopen

/-- A front of a text without a blank does not reach over the first blank. -/
theorem prefix_of_breaks {l v t : List Char} (hl : l <+: v ++ t)
    (hblank : ∀ c ∈ l, Text.isBlank c = false) (ht : Breaks t) : l <+: v := by
  rcases List.prefix_or_prefix_of_prefix hl (List.prefix_append v t) with h | ⟨u, rfl⟩
  · exact h
  · cases u with
    | nil => simp
    | cons d u =>
      rw [List.prefix_append_right_inj] at hl
      obtain ⟨s, rfl⟩ := hl
      have hd := ht d rfl
      rw [hblank d (by simp)] at hd
      cases hd

/-- At most one front of a text is a quoted text. -/
theorem Pattern.prefix_of_quoted {l l' cs : List Char} (hl : l <+: cs) (h : quoted.Shape l)
    (hl' : l' <+: cs) (h' : quoted.Shape l') : l' <+: l := by
  obtain ⟨body, hbody, rfl⟩ := h
  obtain ⟨body', hbody', rfl⟩ := h'
  obtain ⟨rest, rfl⟩ := hl
  obtain ⟨rest', hrest'⟩ := hl'
  have hcut := cutQuoted?_append hbody rest
  rw [← hrest', cutQuoted?_append hbody' rest', Option.some_inj, Prod.mk.injEq] at hcut
  exact hcut.1 ▸ List.prefix_refl _

/-! ## first characters -/

/-- The characters that a lexeme of a pattern can start with. -/
def Pattern.starts : Pattern → Char → Bool
  | words ws, c => ws.any fun w => w.toList.head? == some c
  | quoted, c => c == '"'
  | decimal, c | integer, c => c == '-' || Text.isDigit c
  | identifier, c => isIdentStart c
  | blanks, c => Text.isBlank c
  | lineComment, c => c == '/'

theorem Pattern.Shape.starts {p : Pattern} {c : Char} {l : List Char} (h : p.Shape (c :: l)) :
    p.starts c = true := by
  have hnumber : ∀ {sign ds rest : List Char}, IsSign sign → IsRun Text.isDigit ds →
      c :: l = sign ++ (ds ++ rest) → (c == '-' || Text.isDigit c) = true := by
    rintro sign ds rest (rfl | rfl) hds heq
    · cases ds with
      | nil => exact (hds.1 rfl).elim
      | cons d ds =>
        cases heq
        rw [hds.2 c List.mem_cons_self, Bool.or_true]
    · cases heq
      rfl
  cases p with
  | words ws =>
    obtain ⟨_, w, hw, heq⟩ := h
    exact List.any_eq_true.mpr ⟨w, hw, by rw [heq, List.head?_cons, beq_self_eq_true]⟩
  | quoted =>
    obtain ⟨body, _, heq⟩ := h
    cases heq
    rfl
  | decimal =>
    obtain ⟨sign, ds, fs, hsign, hds, _, heq⟩ := h
    exact hnumber hsign hds heq
  | integer =>
    obtain ⟨sign, ds, hsign, hds, heq⟩ := h
    exact hnumber hsign hds (by rw [List.append_nil, heq])
  | identifier =>
    obtain ⟨d, cs, hd, _, heq⟩ := h
    cases heq
    exact hd
  | blanks => exact h.2 c List.mem_cons_self
  | lineComment =>
    obtain ⟨body, _, heq⟩ := h
    cases heq
    rfl

/-- A lexeme starts as the text that it leads. -/
theorem Pattern.Shape.starts_of_front {p : Pattern} {l : List Char} (h : p.Shape l) {c : Char}
    {cs : List Char} (hl : l <+: c :: cs) : p.starts c = true := by
  cases l with
  | nil => exact (h.ne_nil rfl).elim
  | cons d l =>
    rw [List.cons_prefix_cons] at hl
    rw [← hl.1]
    exact h.starts

/-! ## rules and blanks -/

theorem Rule.Wins.mem {r : Rule} {l cs : List Char} (h : r.Wins l cs) : r ∈ rules := by
  obtain ⟨before, after, hrules, _⟩ := h.first
  exact (mem_rules_of_split hrules).1

/-- There is one rule for each kind. -/
theorem nodup_kinds : (rules.map Rule.kind).Nodup := by decide

/-- What stands before a rule in the list of rules. -/
theorem eq_takeWhile_of_split {before after : List Rule} {r : Rule}
    (hrules : rules = before ++ r :: after) : before = rules.takeWhile (·.kind != r.kind) := by
  have hnodup := nodup_kinds
  rw [hrules, List.map_append, List.map_cons, List.nodup_append] at hnodup
  have hne : ∀ r' ∈ before, (r'.kind != r.kind) = true := by
    intro r' hr'
    rw [bne_iff_ne]
    exact hnodup.2.2 _ (List.mem_map_of_mem hr') _ List.mem_cons_self
  rw [hrules, List.takeWhile_append_of_pos hne, List.takeWhile_cons_of_neg (by simp),
    List.append_nil]

/-- A rule that wins is the one for its kind, and all rules before that are idle. -/
theorem Rule.Wins.idle_of_split {r : Rule} {l cs : List Char} (h : r.Wins l cs)
    {front back : List Rule} {r₀ : Rule} (hrules : rules = front ++ r₀ :: back)
    (hkind : r.kind = r₀.kind) : r = r₀ ∧ ∀ r' ∈ front, r'.Idle cs := by
  obtain ⟨before, after, hrules', hidle⟩ := h.first
  have hfront : before = front := by
    rw [eq_takeWhile_of_split hrules', eq_takeWhile_of_split hrules, hkind]
  subst hfront
  have hsame := List.append_cancel_left (hrules'.symm.trans hrules)
  exact ⟨(List.cons.inj hsame).1, hidle⟩

/-- Two slashes are no comment, since the rule for one slash comes before that for comments. -/
theorem Rule.Wins.ne_lineComment {r : Rule} {l cs : List Char} (h : r.Wins l cs) :
    r.pattern ≠ .lineComment := by
  have hkinds : ∀ r ∈ rules, r.pattern = .lineComment → r.kind = .comment := by simp [rules]
  have hslash : (⟨.divide, .words ["/"]⟩ : Rule) ∈ rules.dropLast := by simp [rules]
  intro hp
  have hlast : rules = rules.dropLast ++ ⟨.comment, .lineComment⟩ :: [] := rfl
  obtain ⟨_, hidle⟩ := h.idle_of_split hlast (hkinds r h.mem hp)
  have hshape := h.shape
  rw [hp] at hshape
  obtain ⟨body, _, rfl⟩ := hshape
  refine hidle _ hslash ['/'] (List.IsPrefix.trans ⟨'/' :: body, rfl⟩ h.leads) ?_
  exact ⟨by simp, "/", by simp, rfl⟩

/-- Only the rule for quoted texts wins at a quote. -/
theorem Rule.Wins.eq_quoted {r : Rule} {l cs : List Char} (h : r.Wins l ('"' :: cs)) :
    r.pattern = .quoted := by
  have hrules : ∀ r ∈ rules, r.pattern.starts '"' = true → r.pattern = .quoted := by
    have hdigit : Text.isDigit '"' = false := by decide
    have hident : Pattern.isIdentStart '"' = false := by decide
    have hblank : Text.isBlank '"' = false := by decide
    simp [rules, Pattern.starts, hdigit, hident, hblank]
  exact hrules r h.mem (h.shape.starts_of_front h.leads)

/-- A rule that is idle at the front of a text stays so when a blank and more is put behind
the text, unless the text may start a quotation. -/
theorem Rule.Idle.append {r : Rule} (hr : r ∈ rules) {c : Char} {cs t : List Char}
    (h : r.Idle (c :: cs)) (hc : Text.isBlank c = false) (hquote : r.pattern = .quoted → c ≠ '"')
    (ht : Breaks t) : r.Idle (c :: cs ++ t) := by
  intro l hl hshape
  have hstarts := hshape.starts_of_front hl
  cases hp : r.pattern with
  | quoted =>
    rw [hp] at hstarts
    exact hquote hp (eq_of_beq hstarts)
  | blanks =>
    rw [hp, Pattern.starts, hc] at hstarts
    cases hstarts
  | lineComment =>
    rw [hp] at hshape
    obtain ⟨body, _, rfl⟩ := hshape
    have hslash : Text.isBlank '/' = false := rfl
    have hslashes : ['/', '/'] <+: c :: cs :=
      prefix_of_breaks (List.IsPrefix.trans ⟨body, rfl⟩ hl) (by simp [hslash]) ht
    refine h _ hslashes ?_
    rw [hp]
    exact ⟨[], by simp, rfl⟩
  | _ =>
    refine h l (prefix_of_breaks hl (not_isBlank_of_shape hr ?_ hshape) ht) hshape
    rw [hp]
    rfl

/-- A rule that wins at the front of a text wins with the same lexeme when a blank and more
is put behind the text, unless the lexeme is made of blanks. -/
theorem Rule.Wins.append {r : Rule} {l : List Char} {c : Char} {cs t : List Char}
    (h : r.Wins l (c :: cs)) (hc : Text.isBlank c = false) (ht : Breaks t) :
    r.Wins l (c :: cs ++ t) where
  first := by
    obtain ⟨before, after, hrules, hidle⟩ := h.first
    refine ⟨before, after, hrules, fun r' hr' => ?_⟩
    refine (hidle r' hr').append ((mem_rules_of_split hrules).2 r' hr') hc ?_ ht
    rintro hquoted rfl
    refine hidle r' hr' l h.leads ?_
    rw [hquoted, ← h.eq_quoted]
    exact h.shape
  leads := h.leads.trans (List.prefix_append _ t)
  shape := h.shape
  longest l' hl' hshape' := by
    have hstarts := h.shape.starts_of_front h.leads
    cases hp : r.pattern with
    | quoted =>
      have hshape := h.shape
      rw [hp] at hshape hshape'
      exact Pattern.prefix_of_quoted (h.leads.trans (List.prefix_append _ t)) hshape hl' hshape'
    | blanks =>
      rw [hp, Pattern.starts, hc] at hstarts
      cases hstarts
    | lineComment => exact (h.ne_lineComment hp).elim
    | _ =>
      refine h.longest l' (prefix_of_breaks hl' (not_isBlank_of_shape h.mem ?_ hshape') ht) hshape'
      rw [hp]
      rfl

/-! ## lexemes -/

/-- A lexeme stays when a blank and more is put behind the text. -/
theorem lexeme?_append {c : Char} {cs t : List Char} {x : Lexeme} (h : lexeme? (c :: cs) = some x)
    (hc : Text.isBlank c = false) (ht : Breaks t) :
    lexeme? (c :: cs ++ t) = some ⟨x.kind, x.chars, x.rest ++ t⟩ := by
  obtain ⟨happ, r, hkind, hwins⟩ := lexeme?_eq_some_iff.mp h
  refine lexeme?_eq_some_iff.mpr ⟨?_, r, hkind, hwins.append hc ht⟩
  rw [← happ, List.append_assoc]

/-- A lexeme stays when the text behind it is cut short. -/
theorem lexeme?_of_front {l rest rest' : List Char} {k : Kind}
    (h : lexeme? (l ++ rest) = some ⟨k, l, rest⟩) (hrest : rest' <+: rest) :
    lexeme? (l ++ rest') = some ⟨k, l, rest'⟩ := by
  obtain ⟨_, r, hkind, hwins⟩ := lexeme?_eq_some_iff.mp h
  refine lexeme?_eq_some_iff.mpr ⟨rfl, r, hkind, ?_⟩
  exact hwins.of_front (List.prefix_append l rest') ((List.prefix_append_right_inj l).mpr hrest)

/-! ## texts -/

/-- A text that has been lexed without an error gives the same tokens when a blank and more
is put behind it, and the lexing goes on behind it. -/
theorem recoverFrom_append {p : Position} {cs t : List Char}
    (h : (recoverFrom p cs).2 = []) (ht : Breaks t) :
    recoverFrom p (cs ++ t) =
      ((recoverFrom p cs).1 ++ (recoverFrom (p.advanceAll cs) t).1,
        (recoverFrom (p.advanceAll cs) t).2) := by
  fun_induction recoverFrom p cs with
  | case1 p => rfl
  | case2 p c cs hnone tokens errors hrest ih => cases h
  | case3 p c cs x hx tokens errors hrest ih =>
    obtain ⟨_, happ⟩ := lexeme?_eq_some hx
    have hplace : p.advanceAll (c :: cs) = (p.advanceAll x.chars).advanceAll x.rest := by
      rw [← happ, Position.advanceAll_append]
    rw [hrest] at ih
    have hlexed := ih h
    cases hc : Text.isBlank c with
    | true =>
      -- the blanks may run on into `t`, but on both sides they leave no token
      rw [lexeme?_of_isBlank hc, Option.some_inj] at hx
      have hgap : AllBlank x.chars := by
        rw [← hx]
        exact fun d hd => Pattern.all_takeWhile (c :: cs) d
          (by rwa [List.takeWhile_cons_of_pos hc])
      have hnone : x.token? p = none := by rw [← hx]; rfl
      rw [hplace, hnone, ← happ, List.append_assoc, recoverFrom_blanks hgap, hlexed]
      rfl
    | false =>
      rw [recoverFrom_of_lexeme? (lexeme?_append hx hc ht), hlexed, hplace, List.append_assoc]
      rfl

/-- Where a text is reported first, it has been lexed without an error up to there, no rule
fits, and the lexing goes on behind the character. -/
theorem exists_split_of_error {p : Position} {cs : List Char} {tokens : List Token} {e : LexError}
    {errors : List LexError} (h : recoverFrom p cs = (tokens, e :: errors)) :
    ∃ before c after, cs = before ++ c :: after ∧ lexeme? (c :: after) = none ∧
      (recoverFrom p before).2 = [] ∧ e = .here (p.advanceAll before) c after ∧
      tokens = (recoverFrom p before).1 ++ (recoverFrom (p.advanceAll (before ++ [c])) after).1 ∧
      errors = (recoverFrom (p.advanceAll (before ++ [c])) after).2 := by
  fun_induction recoverFrom p cs generalizing tokens with
  | case1 p => cases h
  | case2 p c cs hnone tokens' errors' hrest ih =>
    cases h
    refine ⟨[], c, cs, rfl, hnone, ?_, rfl, ?_, ?_⟩
    · rw [recoverFrom]
    · simp [recoverFrom, hrest]
    · simp [hrest]
  | case3 p c cs x hx tokens' errors' hrest ih =>
    cases h
    obtain ⟨_, happ⟩ := lexeme?_eq_some hx
    obtain ⟨before, d, after, hsplit, hnone, hbefore, he, htokens, herrors⟩ := ih hrest
    have hlexeme : lexeme? (x.chars ++ before) = some ⟨x.kind, x.chars, before⟩ := by
      refine lexeme?_of_front ?_ ⟨d :: after, rfl⟩
      rw [← hsplit, happ, hx]
    refine ⟨x.chars ++ before, d, after, ?_, hnone, ?_, ?_, ?_, ?_⟩
    · rw [← happ, hsplit, List.append_assoc]
    · rw [recoverFrom_of_lexeme? hlexeme, hbefore]
    · rw [he, Position.advanceAll_append]
    · rw [recoverFrom_of_lexeme? hlexeme, htokens]
      simp [Lexeme.token?, Position.advanceAll_append]
    · rw [herrors]
      simp [Position.advanceAll_append]

end LetCall
