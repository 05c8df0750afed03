import LetCall.Proofs.Lexing.Layout

/-!
# LetCall.Proofs.Lexing.Recovery

What is reported of a source with errors, and what is left of it.  Recovery is understood
as lexing again and again: the character at which the lexer stops is made a blank, and all
of the source is lexed anew (`Relexed`).  The one pass of `recover` comes to the same
(`relexed_iff`), because a blank neither changes what stands before it
(`recoverFrom_append`) nor moves what stands behind it.

Main statement: the errors stand at rising places of the source, the tokens are those of
the source with blanks at these places, and tokens and errors alike are where they say they
are in the source as it was given (`recover_law`).
-/

namespace LetCall

/-! ## lexing again and again -/

/-- A source with a blank in place of one character. -/
def blankAt (code : String) (i : Nat) : String := String.ofList (code.toList.set i ' ')

/-- A source with blanks in place of the characters at some offsets. -/
def blanked (offsets : List Nat) (code : String) : String :=
  String.ofList (code.toList.mapIdx fun i c => if i ∈ offsets then ' ' else c)

/-- Lexing a source until it succeeds, with a blank put where it fails: the tokens of the
last attempt and the errors of all others. -/
inductive Relexed : String → List Token → List LexError → Prop
  | done {code : String} {tokens : List Token} (h : tokenize code = .ok tokens) :
      Relexed code tokens []
  | again {code : String} {tokens : List Token} {e : LexError} {errors : List LexError}
      (h : tokenize code = .error e)
      (hrest : Relexed (blankAt code e.position.offset) tokens errors) :
      Relexed code tokens (e :: errors)

theorem blanked_nil (code : String) : blanked [] code = code := by
  have hsame : code.toList.mapIdx (fun _ c => c) = code.toList :=
    List.ext_getElem (by simp) (by simp)
  simp [blanked, hsame]

theorem blanked_blankAt (offsets : List Nat) (code : String) (i : Nat) :
    blanked offsets (blankAt code i) = blanked (i :: offsets) code := by
  rw [blanked, blanked, blankAt, String.toList_ofList]
  congr 1
  refine List.ext_getElem (by simp) fun j _ _ => ?_
  simp only [List.getElem_mapIdx, List.getElem_set, List.mem_cons]
  grind

/-- No rule fails at a line feed. -/
theorem ne_lineFeed_of_none {c : Char} {cs : List Char} (h : lexeme? (c :: cs) = none) :
    c ≠ '\n' := by
  rintro rfl
  rw [lexeme?_of_isBlank (by decide)] at h
  cases h

/-- A blank in place of the first character at which no rule fits takes that error away and
changes nothing else. -/
theorem recover_blankAt {code : String} {tokens : List Token} {e : LexError}
    {errors : List LexError} (h : recover code = (tokens, e :: errors)) :
    recover (blankAt code e.position.offset) = (tokens, errors) := by
  obtain ⟨before, c, after, hcode, hnone, hbefore, rfl, rfl, rfl⟩ := exists_split_of_error h
  have hoffset : (LexError.here (Position.start.advanceAll before) c after).position.offset =
      before.length :=
    offset_advanceAll_start before
  have hplace : (Position.start.advanceAll before).advanceAll [' '] =
      Position.start.advanceAll (before ++ [c]) := by
    have hc := ne_lineFeed_of_none hnone
    simp [Position.advanceAll_append, Position.advance, hc]
  have hblank : AllBlank [' '] := by simp [AllBlank, Text.isBlank]
  have hset : (before ++ c :: after).set before.length ' ' = before ++ ([' '] ++ after) := by simp
  rw [hoffset, recover, blankAt, String.toList_ofList, hcode, hset,
    recoverFrom_append hbefore (by simp [Breaks, Text.isBlank]), recoverFrom_blanks hblank, hplace]

/-- One pass over a source comes to the same as lexing it again and again. -/
theorem relexed_iff {code : String} {tokens : List Token} {errors : List LexError} :
    Relexed code tokens errors ↔ recover code = (tokens, errors) := by
  constructor
  · intro h
    induction h with
    | done h => exact tokenize_eq_ok_iff.mp h
    | @again code tokens e errors h hrest ih =>
      rw [tokenize_eq_error_iff, List.head?_eq_some_iff] at h
      obtain ⟨errors', herrors⟩ := h
      have hcode : recover code = ((recover code).1, e :: errors') := by rw [← herrors]
      rw [recover_blankAt hcode, Prod.mk.injEq] at ih
      rw [hcode, ih.1, ih.2]
  · intro h
    induction errors generalizing code with
    | nil => exact .done (tokenize_eq_ok_iff.mpr h)
    | cons e errors ih =>
      have hfail : tokenize code = .error e := tokenize_eq_error_iff.mpr (by rw [h]; rfl)
      exact .again hfail (ih (recover_blankAt h))

/-- The tokens of the last attempt are those of the source with all failing places blank. -/
theorem Relexed.tokenize_blanked {code : String} {tokens : List Token} {errors : List LexError}
    (h : Relexed code tokens errors) :
    tokenize (blanked (errors.map (·.position.offset)) code) = .ok tokens := by
  induction h with
  | done h => rw [List.map_nil, blanked_nil, h]
  | again h hrest ih => rw [List.map_cons, ← blanked_blankAt, ih]

/-! ## where tokens and errors stand -/

/-- Errors stand one behind the other in the text. -/
theorem Laid.errors_rise {before cs : List Char} {tokens : List Token} {errors : List LexError}
    (h : Laid before cs tokens errors) :
    (errors.map (·.position.offset)).Pairwise (· < ·) ∧ errors.length ≤ cs.length ∧
      ∀ e ∈ errors, before.length ≤ e.position.offset ∧
        e.position.offset < before.length + cs.length := by
  induction h with
  | nil before => simp
  | blank hgap h ih =>
    obtain ⟨hrise, hcount, hrange⟩ := ih
    simp only [List.length_append] at hrange ⊢
    refine ⟨hrise, by omega, fun e he => ?_⟩
    have := hrange e he
    omega
  | token t hlexeme hkept hplace h ih =>
    obtain ⟨hrise, hcount, hrange⟩ := ih
    simp only [List.length_append] at hrange ⊢
    refine ⟨hrise, by omega, fun e he => ?_⟩
    have := hrange e he
    omega
  | @error before cs tokens errors c hnone h ih =>
    obtain ⟨hrise, hcount, hrange⟩ := ih
    have hhere : (LexError.here (Position.start.advanceAll before) c cs).position.offset =
        before.length :=
      offset_advanceAll_start before
    simp only [List.length_append, List.length_singleton] at hrange
    refine ⟨?_, ?_, fun e he => ?_⟩
    · rw [List.map_cons, List.pairwise_cons, hhere]
      refine ⟨fun i hi => ?_, hrise⟩
      obtain ⟨e, he, rfl⟩ := List.mem_map.mp hi
      exact (hrange e he).1
    · simpa using hcount
    · rw [List.length_cons]
      rcases List.mem_cons.mp he with rfl | he
      · omega
      · have := hrange e he
        omega

/-- An error stands where its line, its column and its offset say, and tells a quote from any
other character. -/
theorem Laid.error_stands {before cs : List Char} {tokens : List Token} {errors : List LexError}
    (h : Laid before cs tokens errors) {e : LexError} (he : e ∈ errors) :
    ∃ front c back, cs = front ++ c :: back ∧
      e = ⟨if c = '"' then .unterminated else .unexpected c,
        ⟨lineAfter (before ++ front), columnAfter (before ++ front),
          (before ++ front).length⟩⟩ := by
  induction h with
  | nil before => cases he
  | @blank before gap cs tokens errors hgap h ih =>
    obtain ⟨front, c, back, hcs, hplace⟩ := ih he
    exact ⟨gap ++ front, c, back, by simp [hcs], by simpa using hplace⟩
  | @token before cs tokens errors t hlexeme hkept hplace h ih =>
    obtain ⟨front, c, back, hcs, hplace⟩ := ih he
    exact ⟨t.text.toList ++ front, c, back, by simp [hcs], by simpa using hplace⟩
  | @error before cs tokens errors d hnone h ih =>
    rcases List.mem_cons.mp he with rfl | he
    · refine ⟨[], d, cs, rfl, ?_⟩
      rw [LexError.here_of_none hnone, List.append_nil, ← line_advanceAll_start,
        ← column_advanceAll_start, ← offset_advanceAll_start]
    · obtain ⟨front, c, back, hcs, hplace⟩ := ih he
      exact ⟨d :: front, c, back, by simp [hcs], by simpa using hplace⟩

/-- A token stands in the text where its line and its column say, and no error stands in
it. -/
theorem Laid.token_stands {before cs : List Char} {tokens : List Token} {errors : List LexError}
    (h : Laid before cs tokens errors) {t : Token} (ht : t ∈ tokens) :
    ∃ front back, cs = front ++ (t.text.toList ++ back) ∧ t.StandsAfter (before ++ front) ∧
      ∀ e ∈ errors, e.position.offset < (before ++ front).length ∨
        (before ++ front).length + t.text.length ≤ e.position.offset := by
  induction h with
  | nil before => cases ht
  | @blank before gap cs tokens errors hgap h ih =>
    obtain ⟨front, back, hcs, hplace, hfree⟩ := ih ht
    exact ⟨gap ++ front, back, by simp [hcs], by simpa using hplace, by simpa using hfree⟩
  | @token before cs tokens errors t' hlexeme hkept hplace h ih =>
    rcases List.mem_cons.mp ht with rfl | ht
    · refine ⟨[], cs, rfl, by simpa using hplace, fun e he => .inr ?_⟩
      have hbehind := (h.errors_rise.2.2 e he).1
      rw [List.length_append, String.length_toList] at hbehind
      simpa using hbehind
    · obtain ⟨front, back, hcs, hplace, hfree⟩ := ih ht
      exact ⟨t'.text.toList ++ front, back, by simp [hcs], by simpa using hplace,
        by simpa using hfree⟩
  | @error before cs tokens errors c hnone h ih =>
    obtain ⟨front, back, hcs, hplace, hfree⟩ := ih ht
    refine ⟨c :: front, back, by simp [hcs], by simpa using hplace, fun e he => ?_⟩
    rcases List.mem_cons.mp he with rfl | he
    · have hhere : (LexError.here (Position.start.advanceAll before) c cs).position.offset =
          before.length :=
        offset_advanceAll_start before
      rw [hhere, List.length_append, List.length_cons]
      omega
    · simpa using hfree e he

/-! ## the law of recovery -/

/-- Recovery ends as lexing again and again does.  Its errors rise through the source, and
there are none just if the source can be lexed.  Its tokens are those of the source with
blanks for the failing characters; they stand in the source itself, clear of those. -/
theorem recover_law (code : String) :
    ∃ tokens errors, recover code = (tokens, errors) ∧
      (∀ tokens' errors', Relexed code tokens' errors' ↔ tokens' = tokens ∧ errors' = errors) ∧
      (errors.map (·.position.offset)).Pairwise (· < ·) ∧
      (∀ e ∈ errors, e.position.offset < code.length) ∧
      errors.length ≤ code.length ∧
      (errors = [] ↔ ∃ tokens', tokenize code = .ok tokens') ∧
      tokenize (blanked (errors.map (·.position.offset)) code) = .ok tokens ∧
      (∀ t ∈ tokens, ∃ before after, code.toList = before ++ (t.text.toList ++ after) ∧
        t.StandsAfter before ∧
        ∀ e ∈ errors, e.position.offset < before.length ∨
          before.length + t.text.length ≤ e.position.offset) ∧
      ∀ e ∈ errors, ∃ before c after, code.toList = before ++ c :: after ∧
        e = ⟨if c = '"' then .unterminated else .unexpected c,
          ⟨lineAfter before, columnAfter before, before.length⟩⟩ := by
  obtain ⟨tokens, errors, hcode⟩ : ∃ tokens errors, recover code = (tokens, errors) :=
    ⟨_, _, rfl⟩
  have hlaid := recover_laid code
  rw [hcode] at hlaid
  obtain ⟨hrise, hcount, hrange⟩ := hlaid.errors_rise
  simp only [List.length_nil, Nat.zero_add, Nat.zero_le, true_and, String.length_toList]
    at hcount hrange
  refine ⟨tokens, errors, hcode, fun tokens' errors' => ?_, hrise, hrange, hcount, ?_, ?_,
    fun t ht => ?_, fun e he => ?_⟩
  · rw [relexed_iff, hcode, Prod.mk.injEq]
    exact and_congr eq_comm eq_comm
  · simp only [tokenize_eq_ok_iff, hcode, Prod.mk.injEq, exists_eq_left']
  · exact (relexed_iff.mpr hcode).tokenize_blanked
  · exact hlaid.token_stands ht
  · exact hlaid.error_stands he

end LetCall
