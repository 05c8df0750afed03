import LetCall.Text.Blank
import LetCall.Text.Digit

/-!
# LetCall.Token.Pattern

The shapes of lexeme and how each is cut off the front of a text.

Main statements: a cut loses nothing (`Pattern.cut?_append`) and takes at least one
character (`Pattern.cut?_ne_nil`), so what is left is shorter
(`Pattern.length_lt_of_cut?`).
-/

namespace LetCall

/-- A shape of lexeme. -/
inductive Pattern where
  /-- One of some given words, the first that fits. -/
  | words (ws : List String)
  /-- Everything from one double quote to the next. -/
  | quoted
  /-- An optional minus, digits, a point and digits. -/
  | decimal
  /-- An optional minus and digits. -/
  | integer
  /-- An ASCII letter or underscore, then ASCII letters, digits and underscores. -/
  | identifier
  /-- White space. -/
  | blanks
  /-- Two slashes and the rest of the line. -/
  | lineComment
  deriving Repr

namespace Pattern

/-! ## pieces -/

/-- A letter that starts an identifier. -/
def isIdentStart (c : Char) : Bool := c.isAlpha || c == '_'

/-- A character that continues an identifier. -/
def isIdentRest (c : Char) : Bool := c.isAlphanum || c == '_'

/-- Cut a non-empty word off the front of a text. -/
def cutWord? (w cs : List Char) : Option (List Char × List Char) :=
  if w ≠ [] ∧ w.isPrefixOf cs then some (w, cs.drop w.length) else none

/-- Cut the longest run of characters in a class, which has to be non-empty. -/
def cutRun? (p : Char → Bool) (cs : List Char) : Option (List Char × List Char) :=
  match cs.takeWhile p with
  | [] => none
  | run => some (run, cs.dropWhile p)

/-- Cut an optional minus sign. -/
def cutSign : List Char → List Char × List Char
  | '-' :: cs => (['-'], cs)
  | cs => ([], cs)

/-- Cut an optional minus sign and digits. -/
def cutInteger? (cs : List Char) : Option (List Char × List Char) :=
  (cutRun? Text.isDigit (cutSign cs).2).map fun (digits, rest) => ((cutSign cs).1 ++ digits, rest)

/-- Cut an optional minus sign, digits, a point and digits. -/
def cutDecimal? (cs : List Char) : Option (List Char × List Char) :=
  match cutInteger? cs with
  | some (whole, '.' :: rest) =>
    (cutRun? Text.isDigit rest).map fun (digits, rest) => (whole ++ '.' :: digits, rest)
  | _ => none

/-- Cut a quoted text; there is none if the quote is never closed. -/
def cutQuoted? : List Char → Option (List Char × List Char)
  | '"' :: cs =>
    match cs.dropWhile (· != '"') with
    | [] => none
    | _ :: rest => some ('"' :: cs.takeWhile (· != '"') ++ ['"'], rest)
  | _ => none

/-- Cut an identifier. -/
def cutIdentifier? : List Char → Option (List Char × List Char)
  | c :: cs =>
    if isIdentStart c then some (c :: cs.takeWhile isIdentRest, cs.dropWhile isIdentRest) else none
  | [] => none

/-- Cut two slashes and what follows on the line. -/
def cutComment? : List Char → Option (List Char × List Char)
  | '/' :: '/' :: cs =>
    some ('/' :: '/' :: cs.takeWhile (· != '\n'), cs.dropWhile (· != '\n'))
  | _ => none

/-- Cut the lexeme of a pattern off the front of a text, if the text starts with one. -/
def cut? : Pattern → List Char → Option (List Char × List Char)
  | words ws, cs => ws.findSome? fun w => cutWord? w.toList cs
  | quoted, cs => cutQuoted? cs
  | decimal, cs => cutDecimal? cs
  | integer, cs => cutInteger? cs
  | identifier, cs => cutIdentifier? cs
  | blanks, cs => cutRun? Text.isBlank cs
  | lineComment, cs => cutComment? cs

/-! ## nothing is lost, and something is taken -/

theorem cutWord?_eq_some {w cs l r : List Char} (h : cutWord? w cs = some (l, r)) :
    l = w ∧ w ≠ [] ∧ l ++ r = cs := by
  unfold cutWord? at h
  split at h
  · next hw =>
    cases h
    obtain ⟨t, ht⟩ := List.isPrefixOf_iff_prefix.mp hw.2
    refine ⟨rfl, hw.1, ?_⟩
    rw [← ht, List.drop_left]
  · cases h

theorem cutRun?_eq_some {p : Char → Bool} {cs l r : List Char} (h : cutRun? p cs = some (l, r)) :
    l = cs.takeWhile p ∧ r = cs.dropWhile p ∧ l ≠ [] ∧ l ++ r = cs := by
  unfold cutRun? at h
  split at h
  · cases h
  · next hrun =>
    cases h
    exact ⟨rfl, rfl, fun h' => hrun h', List.takeWhile_append_dropWhile⟩

theorem cutSign_append (cs : List Char) : (cutSign cs).1 ++ (cutSign cs).2 = cs := by
  unfold cutSign; split <;> rfl

theorem cutInteger?_eq_some {cs l r : List Char} (h : cutInteger? cs = some (l, r)) :
    l ≠ [] ∧ l ++ r = cs := by
  unfold cutInteger? at h
  obtain ⟨⟨d, r'⟩, hd, he⟩ := Option.map_eq_some_iff.mp h
  cases he
  obtain ⟨_, _, hne, happ⟩ := cutRun?_eq_some hd
  refine ⟨by simp [hne], ?_⟩
  rw [List.append_assoc, happ]; exact cutSign_append cs

theorem cutDecimal?_eq_some {cs l r : List Char} (h : cutDecimal? cs = some (l, r)) :
    l ≠ [] ∧ l ++ r = cs := by
  unfold cutDecimal? at h
  split at h
  · next whole rest hw =>
    obtain ⟨⟨d, r'⟩, hd, he⟩ := Option.map_eq_some_iff.mp h
    cases he
    obtain ⟨_, _, _, happ⟩ := cutRun?_eq_some hd
    obtain ⟨hne, hcs⟩ := cutInteger?_eq_some hw
    refine ⟨by simp, ?_⟩
    rw [← hcs, ← happ]; simp
  · cases h

theorem cutQuoted?_eq_some {cs l r : List Char} (h : cutQuoted? cs = some (l, r)) :
    l ≠ [] ∧ l ++ r = cs := by
  unfold cutQuoted? at h
  split at h
  · next cs =>
    split at h
    · cases h
    · next c rest hdrop =>
      cases h
      have hc : c = '"' := by
        have := List.head?_dropWhile_not (· != '"') cs
        rw [hdrop] at this
        simpa using this
      subst hc
      refine ⟨by simp, ?_⟩
      conv => rhs; rw [← List.takeWhile_append_dropWhile (p := (· != '"')) (l := cs), hdrop]
      simp
  · cases h

theorem cutIdentifier?_eq_some {cs l r : List Char} (h : cutIdentifier? cs = some (l, r)) :
    l ≠ [] ∧ l ++ r = cs := by
  unfold cutIdentifier? at h
  split at h
  · split at h
    · cases h
      refine ⟨by simp, ?_⟩
      rw [List.cons_append, List.takeWhile_append_dropWhile]
    · cases h
  · cases h

theorem cutComment?_eq_some {cs l r : List Char} (h : cutComment? cs = some (l, r)) :
    l ≠ [] ∧ l ++ r = cs := by
  unfold cutComment? at h
  split at h
  · cases h
    refine ⟨by simp, ?_⟩
    simp only [List.cons_append, List.takeWhile_append_dropWhile]
  · cases h

/-- A cut takes at least one character, and lexeme and rest make up the text. -/
theorem cut?_eq_some {p : Pattern} {cs l r : List Char} (h : p.cut? cs = some (l, r)) :
    l ≠ [] ∧ l ++ r = cs := by
  cases p with
  | words ws =>
    obtain ⟨w, _, hw⟩ := List.exists_of_findSome?_eq_some h
    obtain ⟨rfl, hne, happ⟩ := cutWord?_eq_some hw
    exact ⟨hne, happ⟩
  | quoted => exact cutQuoted?_eq_some h
  | decimal => exact cutDecimal?_eq_some h
  | integer => exact cutInteger?_eq_some h
  | identifier => exact cutIdentifier?_eq_some h
  | blanks => obtain ⟨_, _, hne, happ⟩ := cutRun?_eq_some h; exact ⟨hne, happ⟩
  | lineComment => exact cutComment?_eq_some h

/-- What a cut leaves is shorter than the text. -/
theorem length_lt_of_cut? {p : Pattern} {cs l r : List Char} (h : p.cut? cs = some (l, r)) :
    r.length < cs.length := by
  obtain ⟨hne, happ⟩ := cut?_eq_some h
  have := List.length_pos_iff.mpr hne
  rw [← happ, List.length_append]; omega

end Pattern

end LetCall
