import LetCall.Proofs.Lexing.Kinds
import LetCall.Proofs.Reading
import Mathlib.Data.List.Forall2
import Mathlib.Data.Nat.Digits.Defs

/-!
# LetCall.Proofs.Source.Numerals

Integers in a source and the numbers that are read from them.  Lexing takes any run of digits,
of one script or of several, for an integer; reading takes them one by one and refuses a number
with too many of them.

A digit stands as many places behind the zero of its script as its value says, and the scripts
do not overlap (`Text.digitValue?_eq_some_iff`); what is read is the number that the digits are
in base ten (`Numeric.readInt?_of_digits`).

Main statement: every integer of a source is a number for the parser, unless it has too many
digits (`integer_lexeme_is_number`).
-/

namespace LetCall

/-! ## digits -/

namespace Text

/-- The character `c` is the digit `d` of some script: it stands `d` places behind the zero. -/
def IsDigitOf (c : Char) (d : Nat) : Prop := d < 10 ∧ ∃ z ∈ zeros, c.toNat = z + d

/-- The digits of two scripts do not overlap. -/
theorem zeros_apart : zeros.Pairwise (· + 10 ≤ ·) := by decide

/-- The value of a digit is its place in its script. -/
theorem digitValue?_eq_some_iff {c : Char} {d : Nat} : digitValue? c = some d ↔ IsDigitOf c d := by
  unfold digitValue?
  constructor
  · intro h
    obtain ⟨z, hz, hd⟩ := List.exists_of_findSome?_eq_some h
    split at hd
    · cases hd
      exact ⟨by omega, z, hz, by omega⟩
    · cases hd
  · rintro ⟨hd, z, hz, hc⟩
    obtain ⟨before, after, hzeros⟩ := List.append_of_mem hz
    refine List.findSome?_eq_some_iff.mpr ⟨before, z, after, hzeros, ?_, fun z' hz' => ?_⟩
    · rw [if_pos (by omega), hc, Nat.add_sub_cancel_left]
    · have hapart := zeros_apart
      rw [hzeros, List.pairwise_append] at hapart
      have := hapart.2.2 z' hz' z List.mem_cons_self
      rw [if_neg (by omega)]

theorem isDigitOf_digitValue {c : Char} (h : isDigit c = true) : IsDigitOf c (digitValue c) := by
  obtain ⟨d, hd⟩ := isDigit_iff.mp h
  rw [← digitValue?_eq_some_iff, digitValue, hd]
  rfl

theorem IsDigitOf.isDigit {c : Char} {d : Nat} (h : IsDigitOf c d) : isDigit c = true :=
  isDigit_iff.mpr ⟨d, digitValue?_eq_some_iff.mpr h⟩

end Text

/-! ## reading digits -/

theorem dropWhile_eq_self {p : Char → Bool} {cs : List Char} (h : ∀ c ∈ cs, p c = false) :
    cs.dropWhile p = cs := by
  cases cs with
  | nil => rfl
  | cons c cs => exact List.dropWhile_cons_of_neg (by simp [h c List.mem_cons_self])

namespace Numeric

/-- The number that digits stand for is their value in base ten, the last one counting ones. -/
theorem ofDigits_eq (ds : List Nat) : ofDigits ds = Nat.ofDigits 10 ds.reverse := by
  rw [Nat.ofDigits_eq_foldr, List.foldr_reverse]
  simp [ofDigits, Nat.add_comm]

variable {cs : List Char} {ds : List Nat}

theorem isDigit_of_digits (h : List.Forall₂ Text.IsDigitOf cs ds) :
    ∀ c ∈ cs, Text.isDigit c = true := by
  induction h with
  | nil => simp
  | cons hd _ ih => simpa [hd.isDigit] using ih

/-- Digits are read one by one. -/
theorem digitsOf?_of_digits (h : List.Forall₂ Text.IsDigitOf cs ds) (hne : cs ≠ []) :
    digitsOf? cs = some ds := by
  fun_induction digitsOf? cs generalizing ds with
  | case1 => exact (hne rfl).elim
  | case2 c =>
    cases h with
    | cons hd hrest =>
      cases hrest
      rw [Text.digitValue?_eq_some_iff.mpr hd]
      rfl
  | case3 c rest ih =>
    -- an underscore is no digit
    cases isDigit_of_digits h '_' (by simp)
  | case4 c rest hne' _ ih =>
    cases h with
    | cons hd hrest =>
      rw [Text.digitValue?_eq_some_iff.mpr hd, ih hrest hne']
      rfl

/-- There is no white space around digits. -/
theorem stripPadding_of_digits (h : ∀ c ∈ cs, Text.isDigit c = true) : stripPadding cs = cs := by
  have hpad : ∀ c ∈ cs, isPadding c = false := by
    intro c hc
    rw [isPadding, not_isBlank_of_digit (h c hc), Bool.false_and]
  rw [stripPadding, dropWhile_eq_self hpad, dropWhile_eq_self (by simpa using hpad),
    List.reverse_reverse]

/-- Digits are read as the number they are in base ten, up to the length at which conversion
is refused. -/
theorem readInt?_of_digits {s : String} (h : List.Forall₂ Text.IsDigitOf s.toList ds)
    (hne : s.toList ≠ []) :
    readInt? s =
      if s.length ≤ digitLimit then some ((Nat.ofDigits 10 ds.reverse : Nat) : Int) else none := by
  have hdigits := isDigit_of_digits h
  have hread : readNat? s.toList =
      if s.length ≤ digitLimit then some (Nat.ofDigits 10 ds.reverse) else none := by
    rw [readNat?, digitsOf?_of_digits h hne, ← String.length_toList, h.length_eq, ← ofDigits_eq]
    rfl
  rw [readInt?, stripPadding_of_digits hdigits]
  split
  · next hs => cases hdigits '-' (by rw [hs]; exact List.mem_cons_self)
  · next hs => cases hdigits '+' (by rw [hs]; exact List.mem_cons_self)
  · rw [hread]
    split <;> rfl

end Numeric

/-- A number token whose text is digits is used up, and read or refused by its length. -/
theorem Reader.primary_of_digits {t : Token} (hkind : t.kind = .number) {ds : List Nat}
    (h : List.Forall₂ Text.IsDigitOf t.text.toList ds) (hne : t.text.toList ≠ [])
    (rest : List Token) (pos : Nat) :
    primary (.before (t :: rest) pos) =
      if t.text.length ≤ Numeric.digitLimit then
        .ok (.num (.int (Nat.ofDigits 10 ds.reverse : Nat))) (.before rest (pos + 1))
      else
        .error (.syntaxError ⟨.invalidNumber t.text, some t⟩) (.before rest (pos + 1)) := by
  have hread := Numeric.readInt?_of_digits h hne
  rw [primary, fromCursor_eq]
  split
  · next hlength =>
    rw [if_pos hlength] at hread
    exact primaryWith_number _ _ rest pos hkind hread
  · next hlength =>
    rw [if_neg hlength] at hread
    exact primaryWith_number_of_none _ _ rest pos hkind hread

/-! ## integers of a source -/

theorem Pattern.IsRun.digits {cs : List Char} (h : IsRun Text.isDigit cs) :
    List.Forall₂ Text.IsDigitOf cs (cs.map Text.digitValue) :=
  List.forall₂_map_right_iff.mpr
    (List.forall₂_same.mpr fun c hc => Text.isDigitOf_digitValue (h.2 c hc))

/-- A text of digits only is one integer. -/
theorem tokenize_of_digits {s : String} (h : Pattern.IsRun Text.isDigit s.toList) :
    tokenize s = .ok [⟨.int, s, 1, 1⟩] := by
  have hcut : (Word.mk .int s).Cut := Word.cut_digits h.1 h.2
  have hend : Breaks [] := by simp [Breaks]
  have htokens := hcut.tokenizeFrom_append hend .start
  rw [List.append_nil, tokenizeFrom] at htokens
  exact htokens

/-- **Integers are numbers.**  The text of an integer of a source is a row of digits without a
sign.  As a token for the parser, at any place in any list, an integer of at most 4300 characters
is read as the number that its digits are in base ten, and a longer one is an error at that token;
the token is used up and nothing else. -/
theorem integer_lexeme_is_number {code : String} {tokens : List Token}
    (h : tokenize code = .ok tokens) {t : Token} (ht : t ∈ tokens) (hint : t.kind = .int) :
    let ds := t.text.toList.map Text.digitValue
    ds ≠ [] ∧ List.Forall₂ Text.IsDigitOf t.text.toList ds ∧
      ∀ (rest : List Token) (pos : Nat),
        let number : Token := { t with kind := .number }
        (t.text.length ≤ 4300 →
          ∃ v : Int, v = (Nat.ofDigits 10 ds.reverse : Nat) ∧ 0 ≤ v ∧
            Reader.primary (.before (number :: rest) pos) =
              .ok (.num (.int v)) (.before rest (pos + 1))) ∧
        (4300 < t.text.length →
          ∃ e : SyntaxError, e.text = s!"Invalid number format: {t.text}" ∧ e.site = some number ∧
            Reader.primary (.before (number :: rest) pos) =
              .error (.syntaxError e) (.before rest (pos + 1))) := by
  intro ds
  have hmem : t ∈ (recover code).1 := by rwa [tokenize_eq_ok_iff.mp h]
  have hrun := (lexed_of_mem_recover hmem).digits hint
  have hdigits : List.Forall₂ Text.IsDigitOf t.text.toList ds := hrun.digits
  refine ⟨by simpa [ds] using hrun.1, hdigits, fun rest pos => ?_⟩
  intro number
  have hread := Reader.primary_of_digits (t := number) rfl hdigits hrun.1 rest pos
  rw [Numeric.digitLimit] at hread
  constructor
  · intro hlength
    rw [if_pos hlength] at hread
    exact ⟨_, rfl, Int.natCast_nonneg _, hread⟩
  · intro hlength
    rw [if_neg (Nat.not_le.mpr hlength)] at hread
    exact ⟨_, rfl, rfl, hread⟩

/-- Digits of two scripts behind a minus are one number without a sign, and one digit too many
is an error. -/
theorem numerals_of_other_scripts :
    (tokenize "-٤2" = .ok [⟨.minus, "-", 1, 1⟩, ⟨.int, "٤2", 1, 2⟩] ∧
      Reader.primary (.before [⟨.number, "٤2", 1, 2⟩] 1) = .ok (.num (.int 42)) (.before [] 2)) ∧
    ∃ text : String, text.length = 4301 ∧ tokenize text = .ok [⟨.int, text, 1, 1⟩] ∧
      ∃ e : SyntaxError, e.text = s!"Invalid number format: {text}" ∧
        Reader.primary (.before [⟨.number, text, 1, 1⟩] 0) =
          .error (.syntaxError e) (.before [] 1) := by
  constructor
  · have htokens : tokenize "-٤2" = .ok [⟨.minus, "-", 1, 1⟩, ⟨.int, "٤2", 1, 2⟩] := by
      rw [tokenize, tokenizeFrom_of_lexeme? (x := ⟨.minus, "-".toList, "٤2".toList⟩) rfl,
        tokenizeFrom_of_lexeme? (x := ⟨.int, "٤2".toList, []⟩) rfl, tokenizeFrom]
      rfl
    obtain ⟨_, _, hread⟩ :=
      integer_lexeme_is_number htokens (t := ⟨.int, "٤2", 1, 2⟩) (by simp) rfl
    obtain ⟨v, rfl, _, hread⟩ := (hread [] 1).1 (by decide)
    exact ⟨htokens, hread⟩
  · obtain ⟨text, hlength, hdigits⟩ : ∃ text : String, text.length = 4301 ∧
        ∀ c ∈ text.toList, Text.isDigit c = true := by
      refine ⟨String.ofList (List.replicate 4301 '७'), ?_, fun c hc => ?_⟩
      · rw [String.length_ofList, List.length_replicate]
      · rw [String.toList_ofList] at hc
        rw [List.eq_of_mem_replicate hc]
        decide
    have hne : text.toList ≠ [] := by
      rw [← List.length_pos_iff, String.length_toList, hlength]
      decide
    have htokens := tokenize_of_digits ⟨hne, hdigits⟩
    obtain ⟨_, _, hread⟩ := integer_lexeme_is_number htokens List.mem_cons_self rfl
    obtain ⟨e, htext, _, hread⟩ := (hread [] 0).2 (by rw [hlength]; decide)
    exact ⟨text, hlength, htokens, e, htext, hread⟩

end LetCall
