import LetCall.Proofs.Grammar
import LetCall.Proofs.Steps

/-!
# LetCall.Proofs.Reading

Readers before well-formed tokens.  There every reader ends in one of two ways: it uses
up some tokens and gives a value, or it uses up some tokens and fails for a syntax error.
`Reads` says which tokens and which value these can be, and is passed along the steps of
a reader by its `_bind` lemmas, one for each primitive reader.

Main statements: the equations of the primitive readers before tokens
(`looksAt_before`, `expect_before`, the `primaryWith` equations), and `Reads.bind`.
-/

namespace LetCall

/-- The cursor before some tokens. -/
def Cursor.before (ts : List Token) (pos : Nat) : Cursor := ⟨ts.map .token, pos⟩

@[simp] theorem Cursor.length_rest_before (ts : List Token) (pos : Nat) :
    (Cursor.before ts pos).rest.length = ts.length := by
  simp [Cursor.before]

namespace Reader

open Grammar

variable {α β : Type}

/-! ## primitive readers before tokens -/

theorem looksAt_before (kinds : List Kind) (ts : List Token) (pos : Nat) :
    looksAt kinds (.before ts pos) = .ok (leads kinds ts) (.before ts pos) := by
  cases ts <;> rfl

theorem expect_before {k : Kind} {t : Token} (h : t.kind = k) (ts : List Token) (pos : Nat) :
    expect k (.before (t :: ts) pos) = .ok (.token t) (.before ts (pos + 1)) := by
  subst h
  exact expect_token_self t _ pos

/-- The error where a token of some kind does not lead. -/
def missing (k : Kind) : List Token → SyntaxError
  | [] => ⟨.expectedAtEnd k, none⟩
  | t :: _ => ⟨.expected k t.kind t.text, some t⟩

theorem expect_before_of_not_leads {k : Kind} {ts : List Token} (h : leads [k] ts = false)
    (pos : Nat) :
    expect k (.before ts pos) = .error (.syntaxError (missing k ts)) (.before ts pos) := by
  cases ts with
  | nil => exact expect_nil k pos
  | cons t rest => exact expect_token_ne (by simpa using h) _ pos

theorem expectText_before {k : Kind} {t : Token} (h : t.kind = k) (ts : List Token) (pos : Nat) :
    expectText k (.before (t :: ts) pos) = .ok t.text (.before ts (pos + 1)) := by
  unfold expectText
  rw [bind_of_ok (expect_before h ts pos)]
  rfl

theorem expectName_before {t : Token} (h : t.kind = .ident ∧ t.text ≠ "")
    (cause : SyntaxError.Cause) (ts : List Token) (pos : Nat) :
    expectName cause (.before (t :: ts) pos) = .ok t.text (.before ts (pos + 1)) := by
  unfold expectName
  rw [bind_of_ok (expect_before h.1 ts pos)]
  show (ite (t.text = "") _ _ : Reader String) _ = _
  rw [if_neg h.2]
  rfl

theorem expectName_before_of_empty {t : Token} (hk : t.kind = .ident) (hname : t.text = "")
    (cause : SyntaxError.Cause) (ts : List Token) (pos : Nat) :
    expectName cause (.before (t :: ts) pos) =
      .error (.syntaxError ⟨cause, some t⟩) (.before ts (pos + 1)) := by
  unfold expectName
  rw [bind_of_ok (expect_before hk ts pos)]
  show (ite (t.text = "") _ _ : Reader String) _ = _
  rw [if_pos hname]
  rfl

theorem fromCursor_eq (f : Cursor → Reader α) (c : Cursor) : fromCursor f c = f c c := rfl

theorem part_ok (a : α) (c : Cursor) : part (.ok a) c = .ok a c := rfl

theorem take_before (t : Token) (ts : List Token) (pos : Nat) :
    take (.before (t :: ts) pos) = .ok (.token t) (.before ts (pos + 1)) := rfl

theorem operator_before (t : Token) (ts : List Token) (pos : Nat) :
    operator (.before (t :: ts) pos) = .ok t.text (.before ts (pos + 1)) := rfl

theorem advance_before (t : Token) (ts : List Token) (pos : Nat) :
    advance (.before (t :: ts) pos) = .ok (some (.token t)) (.before ts (pos + 1)) := rfl

theorem within_of_ok {r : Reader α} {c c' : Cursor} {a : α} (construct : Construct)
    (h : r c = .ok a c') : within construct r c = .ok a c' :=
  tryCatch_of_ok h

theorem within_of_syntaxError {r : Reader α} {c c' : Cursor} {e : SyntaxError}
    (construct : Construct) (h : r c = .error (.syntaxError e) c') :
    within construct r c = .error (.syntaxError e) c' :=
  tryCatch_of_error h

/-! ## operands without a sign, by the kind of their first token -/

section Primary

variable (e : Reader Node) (n : Nat) (rest : List Token) (pos : Nat) {t : Token}

theorem primaryWith_string (h : t.kind = .string) :
    primaryWith e n (.before (t :: rest) pos) =
      .ok (.str (stripQuotes t.text)) (.before rest (pos + 1)) := by
  obtain ⟨kind, text, line, column⟩ := t
  cases h
  rfl

theorem primaryWith_number (h : t.kind = .number) {v : Int}
    (hv : Numeric.readInt? t.text = some v) :
    primaryWith e n (.before (t :: rest) pos) = .ok (.num (.int v)) (.before rest (pos + 1)) := by
  obtain ⟨kind, text, line, column⟩ := t
  cases h
  show numeral text _ _ = _
  rw [numeral, hv]
  rfl

theorem primaryWith_number_of_none (h : t.kind = .number) (hv : Numeric.readInt? t.text = none) :
    primaryWith e n (.before (t :: rest) pos) =
      .error (.syntaxError ⟨.invalidNumber t.text, some t⟩) (.before rest (pos + 1)) := by
  obtain ⟨kind, text, line, column⟩ := t
  cases h
  show numeral text _ _ = _
  rw [numeral, hv]
  rfl

theorem primaryWith_ident (h : t.kind = .ident) :
    primaryWith e n (.before (t :: rest) pos) =
      if leads [.lparen] rest then callWith e n (.before (t :: rest) pos)
      else .ok (.var t.text) (.before rest (pos + 1)) := by
  obtain ⟨kind, text, line, column⟩ := t
  cases h
  cases rest with
  | nil => rfl
  | cons u us =>
    show (ite ((u.kind == .lparen) = true) _ _ : Reader Node) _ = _
    by_cases hu : u.kind = .lparen
    · rw [if_pos (by simp [hu]), if_pos (by simp [hu])]
    · rw [if_neg (by simp [hu]), if_neg (by simp [hu])]
      rfl

theorem primaryWith_lparen (h : t.kind = .lparen) :
    primaryWith e n (.before (t :: rest) pos) =
      (do let _ ← advance; let x ← e; let _ ← expect .rparen; return x : Reader Node)
        (.before (t :: rest) pos) := by
  obtain ⟨kind, text, line, column⟩ := t
  cases h
  rfl

theorem primaryWith_other (h : t.kind ∉ [Kind.string, .number, .ident, .lparen]) :
    primaryWith e n (.before (t :: rest) pos) =
      .error (.syntaxError ⟨.unexpectedInExpression t.kind t.text, some t⟩)
        (.before (t :: rest) pos) := by
  obtain ⟨kind, text, line, column⟩ := t
  cases kind <;> first | rfl | simp at h

end Primary

/-! ## how readers end -/

/-- Before the tokens `ts` a reader uses up some of them and gives a value, so that `ok`
holds of the tokens used, the value and the tokens left, or it uses up some of them and
fails for a syntax error, so that `err` holds of the tokens used. -/
def Reads (r : Reader α) (ts : List Token) (ok : List Token → α → List Token → Prop)
    (err : List Token → Prop) : Prop :=
  ∀ pos,
    (∃ used rest a, ts = used ++ rest ∧
      r (.before ts pos) = .ok a (.before rest (pos + used.length)) ∧ ok used a rest) ∨
    (∃ used rest e, ts = used ++ rest ∧
      r (.before ts pos) = .error (.syntaxError e) (.before rest (pos + used.length)) ∧ err used)

namespace Reads

variable {r : Reader α} {f : α → Reader β} {ts : List Token}
  {ok : List Token → α → List Token → Prop} {err : List Token → Prop}
  {ok' : List Token → β → List Token → Prop} {err' : List Token → Prop}

theorem of_ok {used rest : List Token} {a : α} (hts : ts = used ++ rest)
    (h : ∀ pos, r (.before ts pos) = .ok a (.before rest (pos + used.length)))
    (hok : ok used a rest) : Reads r ts ok err :=
  fun pos => .inl ⟨used, rest, a, hts, h pos, hok⟩

theorem of_error {used rest : List Token} {e : SyntaxError} (hts : ts = used ++ rest)
    (h : ∀ pos, r (.before ts pos) = .error (.syntaxError e) (.before rest (pos + used.length)))
    (herr : err used) : Reads r ts ok err :=
  fun pos => .inr ⟨used, rest, e, hts, h pos, herr⟩

theorem pure {a : α} (h : ok [] a ts) : Reads (Pure.pure a) ts ok err :=
  of_ok (List.nil_append ts).symm (fun _ => rfl) h

/-- Only what a reader does before these tokens matters. -/
theorem congr {r' : Reader α} (h : ∀ pos, r (.before ts pos) = r' (.before ts pos))
    (hr : Reads r' ts ok err) : Reads r ts ok err := by
  intro pos
  rw [h pos]
  exact hr pos

/-- One reader after another: the second starts before the tokens that the first leaves. -/
theorem bind (hr : Reads r ts ok err)
    (hf : ∀ used a rest, ts = used ++ rest → ok used a rest →
      Reads (f a) rest (fun used' b rest' => ok' (used ++ used') b rest')
        (fun used' => err' (used ++ used')))
    (herr : ∀ used, err used → err' used) : Reads (r >>= f) ts ok' err' := by
  intro pos
  rcases hr pos with ⟨used, rest, a, hts, hread, hok⟩ | ⟨used, rest, e, hts, hread, he⟩
  · rw [bind_of_ok hread]
    have hlen : ∀ us : List Token, pos + used.length + us.length = pos + (used ++ us).length := by
      intro us
      rw [List.length_append, Nat.add_assoc]
    rcases hf used a rest hts hok (pos + used.length) with
      ⟨used', rest', b, hrest, hread', hok'⟩ | ⟨used', rest', e, hrest, hread', he'⟩
    · refine .inl ⟨used ++ used', rest', b, ?_, ?_, hok'⟩
      · rw [hts, hrest, List.append_assoc]
      · rw [hread', hlen]
    · refine .inr ⟨used ++ used', rest', e, ?_, ?_, he'⟩
      · rw [hts, hrest, List.append_assoc]
      · rw [hread', hlen]
  · rw [bind_of_error hread]
    exact .inr ⟨used, rest, e, hts, rfl, herr used he⟩

theorem mono {ok₂ : List Token → α → List Token → Prop} {err₂ : List Token → Prop}
    (hr : Reads r ts ok err)
    (hok : ∀ used a rest, ts = used ++ rest → ok used a rest → ok₂ used a rest)
    (herr : ∀ used, err used → err₂ used) : Reads r ts ok₂ err₂ := by
  intro pos
  rcases hr pos with ⟨used, rest, a, hts, hread, h⟩ | ⟨used, rest, e, hts, hread, h⟩
  · exact .inl ⟨used, rest, a, hts, hread, hok used a rest hts h⟩
  · exact .inr ⟨used, rest, e, hts, hread, herr used h⟩

/-- A construct changes nothing, since no flaw comes up before tokens. -/
theorem within (construct : Construct) (hr : Reads r ts ok err) :
    Reads (Reader.within construct r) ts ok err := by
  intro pos
  rcases hr pos with ⟨used, rest, a, hts, hread, h⟩ | ⟨used, rest, e, hts, hread, h⟩
  · exact .inl ⟨used, rest, a, hts, within_of_ok construct hread, h⟩
  · exact .inr ⟨used, rest, e, hts, within_of_syntaxError construct hread, h⟩

/-- A reader that takes the first token, and one after it. -/
theorem step_bind {t : Token} {rest : List Token} {a : α}
    (hr : ∀ pos, r (.before (t :: rest) pos) = .ok a (.before rest (pos + 1)))
    (hf : Reads (f a) rest (fun used b rest' => ok' (t :: used) b rest')
      (fun used => err' (t :: used))) : Reads (r >>= f) (t :: rest) ok' err' := by
  refine bind (of_ok rfl hr rfl : Reads r (t :: rest)
    (fun used a' rest' => (used, a', rest') = ([t], a, rest)) (fun _ => False)) ?_
    (fun _ h => h.elim)
  intro used a' rest' _ h
  cases h
  exact hf

theorem looksAt_bind {kinds : List Kind} {f : Bool → Reader β}
    (h : Reads (f (leads kinds ts)) ts ok' err') : Reads (looksAt kinds >>= f) ts ok' err' :=
  congr (fun pos => bind_of_ok (looksAt_before kinds ts pos)) h

theorem part_bind {a : α} (h : Reads (f a) ts ok' err') : Reads (part (.ok a) >>= f) ts ok' err' :=
  congr (fun _ => bind_of_ok (part_ok a _)) h

/-- A token of a wrong kind, or none at all, is not used up. -/
theorem expect_bind {k : Kind} {f : Item → Reader β}
    (h : ∀ t rest, ts = t :: rest → t.kind = k →
      Reads (f (.token t)) rest (fun used b rest' => ok' (t :: used) b rest')
        (fun used => err' (t :: used)))
    (herr : leads [k] ts = false → err' []) : Reads (expect k >>= f) ts ok' err' := by
  cases hlead : leads [k] ts with
  | false =>
    exact of_error (List.nil_append ts).symm
      (fun pos => bind_of_error (expect_before_of_not_leads hlead pos)) (herr hlead)
  | true =>
    cases ts with
    | nil => cases hlead
    | cons t rest =>
      have hk : t.kind = k := by simpa using hlead
      exact step_bind (fun pos => expect_before hk rest pos) (h t rest rfl hk)

theorem expectText_bind {k : Kind} {f : String → Reader β}
    (h : ∀ t rest, ts = t :: rest → t.kind = k →
      Reads (f t.text) rest (fun used b rest' => ok' (t :: used) b rest')
        (fun used => err' (t :: used)))
    (herr : leads [k] ts = false → err' []) : Reads (expectText k >>= f) ts ok' err' := by
  unfold expectText
  rw [bind_assoc]
  exact expect_bind h herr

/-- An empty name is used up before it is refused. -/
theorem expectName_bind {cause : SyntaxError.Cause} {f : String → Reader β}
    (h : ∀ t rest, ts = t :: rest → t.kind = .ident ∧ t.text ≠ "" →
      Reads (f t.text) rest (fun used b rest' => ok' (t :: used) b rest')
        (fun used => err' (t :: used)))
    (herr : leads [.ident] ts = false → err' []) (herr' : ∀ t, err' [t]) :
    Reads (expectName cause >>= f) ts ok' err' := by
  cases hlead : leads [.ident] ts with
  | false =>
    exact of_error (List.nil_append ts).symm
      (fun pos => bind_of_error (bind_of_error (expect_before_of_not_leads hlead pos))) (herr hlead)
  | true =>
    cases ts with
    | nil => cases hlead
    | cons t rest =>
      have hk : t.kind = .ident := by simpa using hlead
      by_cases hname : t.text = ""
      · have happ : t :: rest = [t] ++ rest := rfl
        exact of_error happ
          (fun pos => bind_of_error (expectName_before_of_empty hk hname cause rest pos)) (herr' t)
      · exact step_bind (fun pos => expectName_before ⟨hk, hname⟩ cause rest pos)
          (h t rest rfl ⟨hk, hname⟩)

end Reads

end Reader

end LetCall
