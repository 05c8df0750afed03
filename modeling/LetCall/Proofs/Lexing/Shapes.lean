import LetCall.Proofs.Lexing

/-!
# LetCall.Proofs.Lexing.Shapes

The shapes of lexemes, said without the functions that cut them off.  A pattern cuts off
the longest front of a text that has its shape (`Pattern.shape_of_cut?`,
`Pattern.exists_cut?`), so a rule wins at the front of a text if some front has its shape
and none has the shape of an earlier rule (`lexeme?_eq_some_iff`).

What is known of a text in these terms is known of every shorter text that still holds the
lexeme (`Wins.of_front`).
-/

namespace LetCall

namespace Pattern

/-! ## shapes -/

/-- A run of characters of a class, at least one of them. -/
def IsRun (p : Char → Bool) (cs : List Char) : Prop := cs ≠ [] ∧ ∀ c ∈ cs, p c = true

/-- A minus sign or nothing. -/
def IsSign (cs : List Char) : Prop := cs = [] ∨ cs = ['-']

/-- A lexeme of a pattern, whatever stands behind it. -/
def Shape : Pattern → List Char → Prop
  | words ws, l => l ≠ [] ∧ ∃ w ∈ ws, w.toList = l
  | quoted, l => ∃ body, '"' ∉ body ∧ l = '"' :: (body ++ ['"'])
  | decimal, l => ∃ sign ds fs, IsSign sign ∧ IsRun Text.isDigit ds ∧ IsRun Text.isDigit fs ∧
      l = sign ++ (ds ++ '.' :: fs)
  | integer, l => ∃ sign ds, IsSign sign ∧ IsRun Text.isDigit ds ∧ l = sign ++ ds
  | identifier, l => ∃ c cs, isIdentStart c = true ∧ (∀ d ∈ cs, isIdentRest d = true) ∧ l = c :: cs
  | blanks, l => IsRun Text.isBlank l
  | lineComment, l => ∃ body, '\n' ∉ body ∧ l = '/' :: '/' :: body

/-- None of the words of a pattern begins with another of them. -/
def isClear : Pattern → Bool
  | words ws => ws.all fun w => ws.all fun w' => !w.toList.isPrefixOf w'.toList || w == w'
  | _ => true

theorem Shape.ne_nil {p : Pattern} {l : List Char} (h : p.Shape l) : l ≠ [] := by
  cases p with
  | words ws => exact h.1
  | quoted => obtain ⟨body, _, rfl⟩ := h; simp
  | decimal => obtain ⟨sign, ds, fs, _, _, _, rfl⟩ := h; simp
  | integer => obtain ⟨sign, ds, _, hds, rfl⟩ := h; simp [hds.1]
  | identifier => obtain ⟨c, cs, _, _, rfl⟩ := h; simp
  | blanks => exact h.1
  | lineComment => obtain ⟨body, _, rfl⟩ := h; simp

/-! ## pieces -/

/-- A front of a text that lies in a class is a front of the longest such. -/
theorem prefix_takeWhile {p : Char → Bool} {l cs : List Char} (hl : l <+: cs)
    (hp : ∀ c ∈ l, p c = true) : l <+: cs.takeWhile p := by
  obtain ⟨t, rfl⟩ := hl
  rw [List.takeWhile_append_of_pos hp]
  exact List.prefix_append l _

theorem all_takeWhile {p : Char → Bool} (cs : List Char) : ∀ c ∈ cs.takeWhile p, p c = true :=
  List.all_eq_true.mp List.all_takeWhile

theorem isRun_of_cutRun? {p : Char → Bool} {cs l r : List Char} (h : cutRun? p cs = some (l, r)) :
    IsRun p l := by
  obtain ⟨rfl, _, hne, _⟩ := cutRun?_eq_some h
  exact ⟨hne, all_takeWhile cs⟩

theorem exists_cutRun? {p : Char → Bool} {cs l : List Char} (hl : l <+: cs) (hrun : IsRun p l) :
    ∃ l' r, cutRun? p cs = some (l', r) ∧ l <+: l' := by
  have htake := prefix_takeWhile hl hrun.2
  have hne : cs.takeWhile p ≠ [] := by
    intro hnil
    rw [hnil, List.prefix_nil] at htake
    exact hrun.1 htake
  refine ⟨cs.takeWhile p, cs.dropWhile p, ?_, htake⟩
  unfold cutRun?
  split
  · next hnil => exact (hne hnil).elim
  · rfl

theorem isSign_cutSign (cs : List Char) : IsSign (cutSign cs).1 := by
  unfold cutSign
  split
  · exact .inr rfl
  · exact .inl rfl

/-- Before digits the sign of a text is cut off. -/
theorem cutSign_digits {sign ds cs : List Char} (hsign : IsSign sign)
    (hds : IsRun Text.isDigit ds) : cutSign (sign ++ (ds ++ cs)) = (sign, ds ++ cs) := by
  rcases hsign with rfl | rfl
  · cases ds with
    | nil => exact (hds.1 rfl).elim
    | cons d ds => exact cutSign_of_ne (ne_of_class (hds.2 d List.mem_cons_self) (by decide)) _
  · rfl

/-! ## the longest front of a shape -/

/-- What a pattern cuts off has its shape. -/
theorem shape_of_cut? {p : Pattern} {cs l r : List Char} (h : p.cut? cs = some (l, r)) :
    p.Shape l := by
  cases p with
  | words ws =>
    obtain ⟨w, hw, hcut⟩ := List.exists_of_findSome?_eq_some h
    obtain ⟨rfl, hne, _⟩ := cutWord?_eq_some hcut
    exact ⟨hne, w, hw, rfl⟩
  | quoted =>
    simp only [cut?, cutQuoted?] at h
    split at h
    · next cs =>
      split at h
      · cases h
      · cases h
        refine ⟨cs.takeWhile (· != '"'), fun hmem => ?_, rfl⟩
        simpa using all_takeWhile cs _ hmem
    · cases h
  | decimal =>
    simp only [cut?, cutDecimal?] at h
    split at h
    · next whole rest hwhole =>
      obtain ⟨⟨fs, r'⟩, hfs, he⟩ := Option.map_eq_some_iff.mp h
      obtain ⟨⟨ds, r''⟩, hds, hw⟩ := Option.map_eq_some_iff.mp hwhole
      cases he
      cases hw
      exact ⟨_, ds, fs, isSign_cutSign cs, isRun_of_cutRun? hds, isRun_of_cutRun? hfs,
        List.append_assoc ..⟩
    · cases h
  | integer =>
    obtain ⟨⟨ds, r'⟩, hds, he⟩ := Option.map_eq_some_iff.mp h
    cases he
    exact ⟨_, ds, isSign_cutSign cs, isRun_of_cutRun? hds, rfl⟩
  | identifier =>
    simp only [cut?, cutIdentifier?] at h
    split at h
    · split at h
      · next hc =>
        cases h
        exact ⟨_, _, hc, all_takeWhile _, rfl⟩
      · cases h
    · cases h
  | blanks => exact isRun_of_cutRun? h
  | lineComment =>
    simp only [cut?, cutComment?] at h
    split at h
    · next cs =>
      cases h
      refine ⟨cs.takeWhile (· != '\n'), fun hmem => ?_, rfl⟩
      simpa using all_takeWhile cs _ hmem
    · cases h

/-- Words of which none begins with another are cut off wherever they lead. -/
theorem exists_cutWords? {ws : List String} (hws : (words ws).isClear = true) {w : String}
    (hw : w ∈ ws) (hne : w.toList ≠ []) {cs : List Char} (hl : w.toList <+: cs) :
    ∃ l r, (words ws).cut? cs = some (l, r) ∧ w.toList <+: l := by
  have hcut : cutWord? w.toList cs = some (w.toList, cs.drop w.toList.length) :=
    if_pos ⟨hne, List.isPrefixOf_iff_prefix.mpr hl⟩
  cases hfound : (words ws).cut? cs with
  | none =>
    have hnone := List.findSome?_eq_none_iff.mp hfound w hw
    rw [hcut] at hnone
    cases hnone
  | some found =>
    obtain ⟨l, r⟩ := found
    obtain ⟨w', hw', hcut'⟩ := List.exists_of_findSome?_eq_some hfound
    obtain ⟨rfl, _, happ⟩ := cutWord?_eq_some hcut'
    have hclear : w'.toList.isPrefixOf w.toList = false ∨ w' = w := by
      have hall := List.all_eq_true.mp (List.all_eq_true.mp hws w' hw') w hw
      simpa using hall
    refine ⟨_, r, rfl, ?_⟩
    rcases List.prefix_or_prefix_of_prefix hl ⟨r, happ⟩ with hlead | hlead
    · exact hlead
    · rcases hclear with hnot | rfl
      · rw [List.isPrefixOf_iff_prefix.mpr hlead] at hnot
        cases hnot
      · exact hlead

theorem cutQuoted?_append {body : List Char} (hbody : '"' ∉ body) (rest : List Char) :
    cutQuoted? ('"' :: (body ++ ['"']) ++ rest) = some ('"' :: (body ++ ['"']), rest) := by
  have hchars : ∀ c ∈ body, (c != '"') = true := by
    intro c hc
    rw [bne_iff_ne]
    rintro rfl
    exact hbody hc
  simp [cutQuoted?, List.takeWhile_append_of_pos hchars, List.dropWhile_append_of_pos hchars]

/-- Digits are cut off with their sign. -/
theorem cutInteger?_append {sign ds : List Char} (hsign : IsSign sign)
    (hds : IsRun Text.isDigit ds) (rest : List Char) :
    cutInteger? (sign ++ (ds ++ rest)) =
      some (sign ++ (ds ++ rest.takeWhile Text.isDigit), rest.dropWhile Text.isDigit) := by
  have hne : ds ++ rest.takeWhile Text.isDigit ≠ [] := by simp [hds.1]
  rw [cutInteger?, cutSign_digits hsign hds, cutRun?, List.takeWhile_append_of_pos hds.2,
    List.dropWhile_append_of_pos hds.2]
  split
  · next hnil => exact (hne hnil).elim
  · rfl

/-- Digits on both sides of a point are cut off with their sign. -/
theorem cutDecimal?_append {sign ds fs : List Char} (hsign : IsSign sign)
    (hds : IsRun Text.isDigit ds) (hfs : IsRun Text.isDigit fs) (rest : List Char) :
    cutDecimal? (sign ++ (ds ++ '.' :: (fs ++ rest))) =
      some (sign ++ (ds ++ '.' :: (fs ++ rest.takeWhile Text.isDigit)),
        rest.dropWhile Text.isDigit) := by
  have hpoint : ¬ Text.isDigit '.' = true := by decide
  have hne : fs ++ rest.takeWhile Text.isDigit ≠ [] := by simp [hfs.1]
  have hrun : cutRun? Text.isDigit (fs ++ rest) =
      some (fs ++ rest.takeWhile Text.isDigit, rest.dropWhile Text.isDigit) := by
    rw [cutRun?, List.takeWhile_append_of_pos hfs.2, List.dropWhile_append_of_pos hfs.2]
    split
    · next hnil => exact (hne hnil).elim
    · rfl
  rw [cutDecimal?, cutInteger?_append hsign hds, List.takeWhile_cons_of_neg hpoint,
    List.dropWhile_cons_of_neg hpoint]
  simp [hrun]

/-- Where a front of a text has the shape of a pattern, the pattern cuts off that front or
more. -/
theorem exists_cut? {p : Pattern} (hp : p.isClear = true) {cs l : List Char} (hl : l <+: cs)
    (h : p.Shape l) : ∃ l' r, p.cut? cs = some (l', r) ∧ l <+: l' := by
  cases p with
  | words ws =>
    obtain ⟨hne, w, hw, rfl⟩ := h
    exact exists_cutWords? hp hw hne hl
  | quoted =>
    obtain ⟨body, hbody, rfl⟩ := h
    obtain ⟨rest, rfl⟩ := hl
    exact ⟨_, rest, cutQuoted?_append hbody rest, List.prefix_refl _⟩
  | decimal =>
    obtain ⟨sign, ds, fs, hsign, hds, hfs, rfl⟩ := h
    obtain ⟨rest, rfl⟩ := hl
    have htext : sign ++ (ds ++ '.' :: fs) ++ rest = sign ++ (ds ++ '.' :: (fs ++ rest)) := by simp
    rw [htext]
    exact ⟨_, _, cutDecimal?_append hsign hds hfs rest, rest.takeWhile Text.isDigit, by simp⟩
  | integer =>
    obtain ⟨sign, ds, hsign, hds, rfl⟩ := h
    obtain ⟨rest, rfl⟩ := hl
    rw [List.append_assoc]
    exact ⟨_, _, cutInteger?_append hsign hds rest, rest.takeWhile Text.isDigit, by simp⟩
  | identifier =>
    obtain ⟨c, cs', hc, hcs', rfl⟩ := h
    obtain ⟨rest, rfl⟩ := hl
    refine ⟨c :: (cs' ++ rest).takeWhile isIdentRest, _, if_pos hc, ?_⟩
    rw [List.takeWhile_append_of_pos hcs']
    exact ⟨_, rfl⟩
  | blanks => exact exists_cutRun? hl h
  | lineComment =>
    obtain ⟨body, hbody, rfl⟩ := h
    obtain ⟨rest, rfl⟩ := hl
    have hchars : ∀ c ∈ body, (c != '\n') = true := by
      intro c hc
      rw [bne_iff_ne]
      rintro rfl
      exact hbody hc
    refine ⟨'/' :: '/' :: (body ++ rest).takeWhile (· != '\n'), _, rfl, ?_⟩
    rw [List.takeWhile_append_of_pos hchars]
    exact ⟨_, rfl⟩

/-- A pattern cuts off nothing just where no front of the text has its shape. -/
theorem cut?_eq_none_iff {p : Pattern} (hp : p.isClear = true) {cs : List Char} :
    p.cut? cs = none ↔ ∀ l, l <+: cs → ¬ p.Shape l := by
  constructor
  · intro hnone l hl hshape
    obtain ⟨l', r, hcut, _⟩ := exists_cut? hp hl hshape
    rw [hnone] at hcut
    cases hcut
  · intro hno
    cases hcut : p.cut? cs with
    | none => rfl
    | some found =>
      obtain ⟨l, r⟩ := found
      obtain ⟨_, happ⟩ := cut?_eq_some hcut
      exact (hno l ⟨r, happ⟩ (shape_of_cut? hcut)).elim

/-- What a pattern cuts off is the longest front of the text that has its shape. -/
theorem cut?_eq_some_iff {p : Pattern} (hp : p.isClear = true) {cs l r : List Char} :
    p.cut? cs = some (l, r) ↔
      l ++ r = cs ∧ p.Shape l ∧ ∀ l', l' <+: cs → p.Shape l' → l' <+: l := by
  constructor
  · intro hcut
    obtain ⟨_, happ⟩ := cut?_eq_some hcut
    refine ⟨happ, shape_of_cut? hcut, fun l' hl' hshape => ?_⟩
    obtain ⟨l'', r'', hcut'', hlead⟩ := exists_cut? hp hl' hshape
    rw [hcut] at hcut''
    cases hcut''
    exact hlead
  · rintro ⟨happ, hshape, hlongest⟩
    obtain ⟨l', r', hcut, hlead⟩ := exists_cut? hp ⟨r, happ⟩ hshape
    obtain ⟨_, happ'⟩ := cut?_eq_some hcut
    have hback := hlongest l' ⟨r', happ'⟩ (shape_of_cut? hcut)
    obtain rfl : l = l' := hlead.eq_of_length_le hback.length_le
    rw [hcut, List.append_cancel_left (happ.trans happ'.symm)]

end Pattern

/-! ## the rule that wins -/

theorem isClear_rules : rules.all (·.pattern.isClear) = true := by decide

theorem isClear_of_mem {r : Rule} (hr : r ∈ rules) : r.pattern.isClear = true :=
  List.all_eq_true.mp isClear_rules r hr

/-- No front of a text has the shape of a rule's lexemes. -/
def Rule.Idle (r : Rule) (cs : List Char) : Prop := ∀ l, l <+: cs → ¬ r.pattern.Shape l

/-- A rule wins at the front of a text with the lexeme `l`: this is the longest front of its
shape, and all rules before it are idle. -/
structure Rule.Wins (r : Rule) (l cs : List Char) : Prop where
  first : ∃ before after, rules = before ++ r :: after ∧ ∀ r' ∈ before, r'.Idle cs
  leads : l <+: cs
  shape : r.pattern.Shape l
  longest : ∀ l', l' <+: cs → r.pattern.Shape l' → l' <+: l

theorem Rule.lexeme?_eq_none_iff {r : Rule} (hr : r ∈ rules) {cs : List Char} :
    r.lexeme? cs = none ↔ r.Idle cs := by
  rw [Rule.lexeme?, Option.map_eq_none_iff]
  exact Pattern.cut?_eq_none_iff (isClear_of_mem hr)

theorem mem_rules_of_split {before after : List Rule} {r : Rule}
    (hrules : rules = before ++ r :: after) : r ∈ rules ∧ ∀ r' ∈ before, r' ∈ rules := by
  rw [hrules]
  simp +contextual

/-- A lexeme is what the first rule that is not idle makes of a text. -/
theorem lexeme?_eq_some_iff {cs : List Char} {x : Lexeme} :
    lexeme? cs = some x ↔
      x.chars ++ x.rest = cs ∧ ∃ r : Rule, r.kind = x.kind ∧ r.Wins x.chars cs := by
  rw [lexeme?, List.findSome?_eq_some_iff]
  constructor
  · rintro ⟨before, r, after, hrules, hr, hbefore⟩
    obtain ⟨hmem, hmems⟩ := mem_rules_of_split hrules
    obtain ⟨⟨l, rest⟩, hcut, rfl⟩ := Option.map_eq_some_iff.mp hr
    obtain ⟨happ, hshape, hlongest⟩ := (Pattern.cut?_eq_some_iff (isClear_of_mem hmem)).mp hcut
    have hidle : ∀ r' ∈ before, r'.Idle cs := fun r' hr' =>
      (Rule.lexeme?_eq_none_iff (hmems r' hr')).mp (hbefore r' hr')
    exact ⟨happ, r, rfl, ⟨before, after, hrules, hidle⟩, ⟨rest, happ⟩, hshape, hlongest⟩
  · rintro ⟨happ, r, hkind, ⟨before, after, hrules, hidle⟩, _, hshape, hlongest⟩
    obtain ⟨hmem, hmems⟩ := mem_rules_of_split hrules
    have hcut := (Pattern.cut?_eq_some_iff (isClear_of_mem hmem)).mpr ⟨happ, hshape, hlongest⟩
    have hlexeme : r.lexeme? cs = some x := by rw [Rule.lexeme?, hcut, Option.map_some, hkind]
    exact ⟨before, r, after, hrules, hlexeme, fun r' hr' =>
      (Rule.lexeme?_eq_none_iff (hmems r' hr')).mpr (hidle r' hr')⟩

theorem Rule.Idle.of_front {r : Rule} {cs cs' : List Char} (h : r.Idle cs) (hcs : cs' <+: cs) :
    r.Idle cs' :=
  fun l hl => h l (hl.trans hcs)

/-- A rule that wins with a lexeme wins with it at the front of every shorter text that
still holds the lexeme. -/
theorem Rule.Wins.of_front {r : Rule} {l cs cs' : List Char} (h : r.Wins l cs) (hl : l <+: cs')
    (hcs : cs' <+: cs) : r.Wins l cs' where
  first := by
    obtain ⟨before, after, hrules, hidle⟩ := h.first
    exact ⟨before, after, hrules, fun r' hr' => (hidle r' hr').of_front hcs⟩
  leads := hl
  shape := h.shape
  longest l' hl' := h.longest l' (hl'.trans hcs)

end LetCall
