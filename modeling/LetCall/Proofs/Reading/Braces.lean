import LetCall.Proofs.Reading

/-!
# LetCall.Proofs.Reading.Braces

Readers of statements leave closing braces alone.  A reader moves past a token only where it
has looked at its kind, and the brace that closes a body is of none of the kinds that a
statement is made of.  So whatever stands before that brace, it is not used up with it.

Main statement: `statement_spares`.
-/

namespace LetCall.Reader

open Grammar

variable {α β : Type}

/-- No token of these closes a body. -/
def Braceless (ts : List Token) : Prop := ∀ t ∈ ts, t.kind ≠ .rbrace

theorem Braceless.nil : Braceless [] := by simp [Braceless]

theorem Braceless.cons {t : Token} {ts : List Token} (ht : t.kind ≠ .rbrace) (h : Braceless ts) :
    Braceless (t :: ts) := by
  simpa [Braceless, ht] using h

theorem Braceless.append {ts us : List Token} (h : Braceless ts) (h' : Braceless us) :
    Braceless (ts ++ us) := by
  intro t ht
  rcases List.mem_append.mp ht with ht | ht
  · exact h t ht
  · exact h' t ht

/-- Before the tokens `ts` a reader uses up none that closes a body, whether it gives a value
or fails. -/
def Spares (r : Reader α) (ts : List Token) : Prop :=
  Reads r ts (fun used _ _ => Braceless used) Braceless

/-! ## steps -/

namespace Spares

variable {r : Reader α} {f : α → Reader β} {ts rest : List Token} {t : Token} {k : Kind}

theorem pure (a : α) (ts : List Token) : Spares (Pure.pure a) ts := Reads.pure .nil

theorem of_error {e : SyntaxError}
    (h : ∀ pos, r (.before ts pos) = .error (.syntaxError e) (.before ts pos)) : Spares r ts :=
  Reads.of_error (List.nil_append ts).symm h .nil

theorem bind (hr : Spares r ts) (hf : ∀ a rest, Spares (f a) rest) : Spares (r >>= f) ts := by
  refine Reads.bind hr ?_ (fun _ h => h)
  intro used a rest _ hused
  exact (hf a rest).mono (fun _ _ _ _ h => hused.append h) (fun _ h => hused.append h)

theorem within (construct : Construct) (hr : Spares r ts) : Spares (Reader.within construct r) ts :=
  Reads.within construct hr

theorem part_bind {a : α} (h : Spares (f a) ts) : Spares (part (.ok a) >>= f) ts :=
  Reads.part_bind h

theorem step_bind {a : α} (ht : t.kind ≠ .rbrace)
    (hr : ∀ pos, r (.before (t :: rest) pos) = .ok a (.before rest (pos + 1)))
    (hf : Spares (f a) rest) : Spares (r >>= f) (t :: rest) :=
  Reads.step_bind hr (hf.mono (fun _ _ _ _ h => h.cons ht) (fun _ h => h.cons ht))

theorem expect_bind {f : Item → Reader β} (hk : k ≠ .rbrace) (hf : ∀ i rest, Spares (f i) rest) :
    Spares (expect k >>= f) ts := by
  refine Reads.expect_bind ?_ (fun _ => .nil)
  rintro t rest _ rfl
  exact (hf _ rest).mono (fun _ _ _ _ h => h.cons hk) (fun _ h => h.cons hk)

theorem expectText_bind {f : String → Reader β} (hk : k ≠ .rbrace)
    (hf : ∀ s rest, Spares (f s) rest) : Spares (expectText k >>= f) ts := by
  unfold expectText
  rw [bind_assoc]
  refine Reads.expect_bind ?_ (fun _ => .nil)
  rintro t rest _ rfl
  exact (hf t.text rest).mono (fun _ _ _ _ h => h.cons hk) (fun _ h => h.cons hk)

/-- What is done after a look may depend on the kind that was seen. -/
theorem looksAt_bind {kinds : List Kind} {f : Bool → Reader β}
    (hseen : ∀ t rest, ts = t :: rest → t.kind ∈ kinds → Spares (f true) ts)
    (helse : Spares (f false) ts) : Spares (looksAt kinds >>= f) ts := by
  refine Reads.looksAt_bind ?_
  cases hlead : leads kinds ts with
  | false => exact helse
  | true =>
    cases ts with
    | nil => cases hlead
    | cons t rest => exact hseen t rest rfl (by simpa using hlead)

end Spares

/-! ## expressions -/

theorem listTail_spares {element : Reader α} (hel : ∀ ts, Spares element ts) (k : Nat)
    (ts : List Token) : Spares (listTail element k) ts := by
  induction k generalizing ts with
  | zero => exact .pure _ _
  | succ k ih =>
    unfold listTail
    refine .looksAt_bind ?_ (.pure _ _)
    rintro comma rest rfl hcomma
    have hne : comma.kind ≠ .rbrace := by simp_all
    exact .step_bind hne (advance_before comma rest)
      (.bind (hel rest) fun _ rest' => .bind (ih rest') fun _ _ => .pure _ _)

theorem listToParen_spares {element : Reader α} (hel : ∀ ts, Spares element ts) (k : Nat)
    (ts : List Token) : Spares (listToParen element k) ts := by
  have hclose : ∀ (as : List α) (ts : List Token),
      Spares (do let _ ← expect .rparen; return as) ts :=
    fun as ts => .expect_bind (by decide) fun _ _ => .pure _ _
  unfold listToParen
  refine .looksAt_bind (fun _ _ _ _ => hclose [] ts) ?_
  exact .bind (hel ts) fun _ rest => .bind (listTail_spares hel k rest) fun _ _ => hclose _ _

theorem sumTail_spares {operand : Reader Node} (hop : ∀ ts, Spares operand ts) (k : Nat)
    (left : Node) (ts : List Token) : Spares (sumTail operand k left) ts := by
  induction k generalizing left ts with
  | zero => exact .pure _ _
  | succ k ih =>
    unfold sumTail
    refine .looksAt_bind ?_ (.pure _ _)
    rintro sign rest rfl hsign
    have hne : sign.kind ≠ .rbrace := by
      rintro heq
      simp [heq] at hsign
    exact .step_bind hne (operator_before sign rest) (.bind (hop rest) fun _ _ => ih _ _)

theorem sum_spares {operand : Reader Node} (hop : ∀ ts, Spares operand ts) (n : Nat)
    (ts : List Token) : Spares (sum operand n) ts :=
  .bind (hop ts) fun _ _ => sumTail_spares hop n _ _

/-- A call is read only where a name stands. -/
theorem callWith_spares {expression : Reader Node} (hexpr : ∀ ts, Spares expression ts) (k : Nat)
    {name : Token} (hname : name.kind = .ident) (ts : List Token) :
    Spares (callWith expression k) (name :: ts) := by
  have hne : name.kind ≠ .rbrace := by simp [hname]
  unfold callWith
  refine .within _ (.step_bind hne (take_before name ts) (.part_bind ?_))
  by_cases hempty : name.text = ""
  · rw [if_pos hempty]
    exact .of_error fun _ => rfl
  · rw [if_neg hempty]
    exact .expect_bind (by decide) fun _ rest =>
      .bind (listToParen_spares hexpr k rest) fun _ _ => .pure _ _

theorem primaryWith_spares {expression : Reader Node} (hexpr : ∀ ts, Spares expression ts)
    (k : Nat) (ts : List Token) : Spares (primaryWith expression k) ts := by
  cases ts with
  | nil => exact .of_error fun _ => rfl
  | cons t rest =>
    have happ : t :: rest = [t] ++ rest := rfl
    have hone : t.kind ≠ .rbrace → Braceless [t] := fun hne => Braceless.nil.cons hne
    by_cases hstring : t.kind = .string
    · exact Reads.of_ok happ (fun pos => primaryWith_string _ _ _ _ hstring)
        (hone (by simp [hstring]))
    by_cases hnumber : t.kind = .number
    · have hne := hone (by simp [hnumber])
      cases hread : Numeric.readInt? t.text with
      | none =>
        exact Reads.of_error happ (fun pos => primaryWith_number_of_none _ _ _ _ hnumber hread) hne
      | some v => exact Reads.of_ok happ (fun pos => primaryWith_number _ _ _ _ hnumber hread) hne
    by_cases hident : t.kind = .ident
    · cases hlead : leads [.lparen] rest with
      | true =>
        refine Reads.congr (fun pos => ?_) (callWith_spares hexpr k hident rest)
        rw [primaryWith_ident _ _ _ _ hident, hlead, if_pos rfl]
      | false =>
        refine Reads.of_ok (a := .var t.text) happ (fun pos => ?_) (hone (by simp [hident]))
        rw [primaryWith_ident _ _ _ _ hident, hlead, if_neg Bool.false_ne_true]
        rfl
    by_cases hparen : t.kind = .lparen
    · refine Reads.congr (fun pos => primaryWith_lparen _ _ _ _ hparen) ?_
      have hne : t.kind ≠ .rbrace := by simp [hparen]
      exact Spares.step_bind hne (advance_before t rest)
        (.bind (hexpr rest) fun _ _ => .expect_bind (by decide) fun _ _ => .pure _ _)
    · have hother : t.kind ∉ [Kind.string, .number, .ident, .lparen] := by
        simp [hstring, hnumber, hident, hparen]
      exact .of_error fun pos => primaryWith_other _ _ _ _ hother

theorem operand_spares (n : Nat) (ts : List Token) : Spares (operand n) ts := by
  induction n generalizing ts with
  | zero => exact .of_error fun _ => rfl
  | succ n ih =>
    unfold operand
    refine .looksAt_bind ?_ (primaryWith_spares (sum_spares ih n) n ts)
    rintro sign rest rfl hsign
    have hne : sign.kind ≠ .rbrace := by simp_all
    exact .step_bind hne (operator_before sign rest) (.bind (ih rest) fun _ _ => .pure _ _)

theorem expression_spares (ts : List Token) : Spares expression ts := by
  refine Reads.congr (fun pos => ?_) (sum_spares (operand_spares ts.length) ts.length ts)
  show sum (operand (Cursor.before ts pos).rest.length) (Cursor.before ts pos).rest.length _ = _
  rw [Cursor.length_rest_before]

theorem call_spares {name : Token} (hname : name.kind = .ident) (ts : List Token) :
    Spares call (name :: ts) := by
  refine Reads.congr (fun pos => ?_)
    (callWith_spares expression_spares (name :: ts).length hname ts)
  show callWith expression (Cursor.before (name :: ts) pos).rest.length _ = _
  rw [Cursor.length_rest_before]

/-! ## statements -/

theorem letStatement_spares (ts : List Token) : Spares letStatement ts :=
  .within _ (.expect_bind (by decide) fun _ _ => .expectText_bind (by decide) fun _ _ =>
    .expect_bind (by decide) fun _ _ => .bind (expression_spares _) fun _ _ => .pure _ _)

theorem returnStatement_spares (ts : List Token) : Spares returnStatement ts := by
  have hclose : ∀ (value : Node) (ts : List Token),
      Spares (do let _ ← expect .semi; return Node.ret value) ts :=
    fun value ts => .expect_bind (by decide) fun _ _ => .pure _ _
  refine .within _ (.expect_bind (by decide) fun _ rest => .looksAt_bind ?_ ?_)
  · exact fun _ _ _ _ => hclose .absent rest
  · exact .bind (expression_spares rest) fun _ _ => hclose _ _

theorem callStatement_spares {name : Token} (hname : name.kind = .ident) (ts : List Token) :
    Spares callStatement (name :: ts) :=
  .within _ (.bind (call_spares hname ts) fun _ _ =>
    .expect_bind (by decide) fun _ _ => .pure _ _)

/-- **A statement is read or refused before the brace that closes the body.** -/
theorem statement_spares (ts : List Token) : Spares statement ts := by
  unfold statement
  refine .looksAt_bind (fun _ _ _ _ => returnStatement_spares ts) ?_
  refine .looksAt_bind (fun _ _ _ _ => letStatement_spares ts) ?_
  refine .looksAt_bind ?_ ?_
  · rintro name rest rfl hname
    exact callStatement_spares (by simpa using hname) rest
  · cases ts <;> exact .of_error fun _ => rfl

end LetCall.Reader
