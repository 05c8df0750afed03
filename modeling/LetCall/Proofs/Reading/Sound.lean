import LetCall.Proofs.Reading

/-!
# LetCall.Proofs.Reading.Sound

Soundness of the readers: the tokens that a reader uses up when it gives a value are
derived by the grammar, and the value is what the derivation stands for.  Where a part of
a program starts, its reader uses up a token at least, also when it fails; this is what
keeps parsing from going round in circles.

The readers of expressions take a bound on the number of tokens.  It is never reached as
long as there are no more tokens than that, which is the hypothesis all lemmas about them
share.

Main statements: `expression_reads`, `statement_reads` and their like for the other parts.
-/

namespace LetCall.Reader

open Grammar

variable {α : Type}

/-! ## lists with commas -/

/-- Further parts of a list, each with its comma. -/
inductive Series (P : List Token → α → Prop) : List Token → List α → Prop
  | nil : Series P [] []
  | cons (comma : TokenOf .comma) {ts us : List Token} {a : α} {as : List α} (h : P ts a)
      (hs : Series P us as) : Series P (comma.1 :: (ts ++ us)) (a :: as)

/-- The parts of a list, with commas between them. -/
inductive Listed (P : List Token → α → Prop) : List Token → List α → Prop
  | none : Listed P [] []
  | some {ts us : List Token} {a : α} {as : List α} (h : P ts a) (hs : Series P us as) :
    Listed P (ts ++ us) (a :: as)

/-- What is left is no longer than what there was. -/
theorem length_le_of_append {ts used rest : List Token} {n : Nat} (h : ts = used ++ rest)
    (hn : ts.length ≤ n) : rest.length ≤ n := by
  rw [h, List.length_append] at hn
  omega

section Lists

variable {element : Reader α} {P : List Token → α → Prop} {n : Nat}

/-- A list goes on as long as there are commas. -/
theorem listTail_reads
    (hel : ∀ ts, ts.length ≤ n → Reads element ts (fun used a _ => P used a) (fun _ => True))
    (k : Nat) (ts : List Token) (hn : ts.length ≤ n) :
    Reads (listTail element k) ts (fun used as _ => Series P used as) (fun _ => True) := by
  induction k generalizing ts with
  | zero => exact Reads.pure .nil
  | succ k ih =>
    unfold listTail
    refine Reads.looksAt_bind ?_
    cases hlead : leads [.comma] ts with
    | false => exact Reads.pure .nil
    | true =>
      cases ts with
      | nil => cases hlead
      | cons comma rest =>
        have hcomma : comma.kind = .comma := by simpa using hlead
        have hlen : rest.length ≤ n := by simp only [List.length_cons] at hn; omega
        refine Reads.step_bind (fun pos => advance_before comma rest pos) ?_
        refine Reads.bind (hel rest hlen) ?_ (fun _ _ => trivial)
        intro used a rest' hrest ha
        have hlen' : rest'.length ≤ n := length_le_of_append hrest hlen
        refine Reads.bind (ih rest' hlen') ?_ (fun _ _ => trivial)
        intro used' as rest'' _ has
        refine Reads.pure ?_
        simp only [List.append_nil]
        exact .cons ⟨comma, hcomma⟩ ha has

/-- A list in parentheses, read up to the closing one. -/
theorem listToParen_reads
    (hel : ∀ ts, ts.length ≤ n → Reads element ts (fun used a _ => P used a) (fun _ => True))
    (k : Nat) (ts : List Token) (hn : ts.length ≤ n) :
    Reads (listToParen element k) ts
      (fun used as _ => ∃ body, ∃ closing : TokenOf .rparen, used = body ++ [closing.1] ∧
        Listed P body as) (fun _ => True) := by
  have hclose : ∀ (as : List α) (ts' : List Token), Reads (do let _ ← expect .rparen; return as) ts'
      (fun used as' _ => ∃ closing : TokenOf .rparen, used = [closing.1] ∧ as' = as)
      (fun _ => True) := by
    intro as ts'
    refine Reads.expect_bind ?_ (fun _ => trivial)
    intro t rest _ hk
    exact Reads.pure ⟨⟨t, hk⟩, rfl, rfl⟩
  unfold listToParen
  refine Reads.looksAt_bind ?_
  cases hlead : leads [.rparen] ts with
  | true =>
    refine (hclose [] ts).mono ?_ (fun _ _ => trivial)
    rintro used as' rest _ ⟨closing, rfl, rfl⟩
    exact ⟨[], closing, rfl, .none⟩
  | false =>
    simp only [Bool.false_eq_true, if_false]
    refine Reads.bind (hel ts hn) ?_ (fun _ _ => trivial)
    intro used a rest hts ha
    have hlen : rest.length ≤ n := length_le_of_append hts hn
    refine Reads.bind (listTail_reads hel k rest hlen) ?_ (fun _ _ => trivial)
    intro used' as rest' _ has
    refine (hclose (a :: as) rest').mono ?_ (fun _ _ => trivial)
    rintro used'' as' rest'' _ ⟨closing, rfl, rfl⟩
    exact ⟨used ++ used', closing, by simp, .some ha has⟩

end Lists

/-! ## expressions -/

/-- The tokens of an argument and what it stands for. -/
def IsExpression (ts : List Token) (e : Node) : Prop := ∃ x : Expression, x.tokens = ts ∧ x.node = e

theorem exists_moreArguments {ts : List Token} {es : List Node} (h : Series IsExpression ts es) :
    ∃ more : MoreArguments, more.tokens = ts ∧ more.nodes = es := by
  induction h with
  | nil => exact ⟨.nil, rfl, rfl⟩
  | cons comma h _ ih =>
    obtain ⟨x, rfl, rfl⟩ := h
    obtain ⟨more, rfl, rfl⟩ := ih
    exact ⟨.cons comma x more, rfl, rfl⟩

theorem exists_arguments {ts : List Token} {es : List Node} (h : Listed IsExpression ts es) :
    ∃ args : Arguments, args.tokens = ts ∧ args.nodes = es := by
  cases h with
  | none => exact ⟨.none, rfl, rfl⟩
  | some h hs =>
    obtain ⟨x, rfl, rfl⟩ := h
    obtain ⟨more, rfl, rfl⟩ := exists_moreArguments hs
    exact ⟨.some x more, rfl, rfl⟩

/-- An operand has been read, and stops before what is left. -/
def OperandRead (used : List Token) (e : Node) (rest : List Token) : Prop :=
  ∃ x : Operand, x.tokens = used ∧ x.node = e ∧ x.Stops rest

/-- An expression has been read, and stops before what is left. -/
def ExpressionRead (used : List Token) (e : Node) (rest : List Token) : Prop :=
  ∃ x : Expression, x.tokens = used ∧ x.node = e ∧ x.Stops rest

/-- A call has been read. -/
def CallRead (used : List Token) (e : Node) (_ : List Token) : Prop :=
  ∃ c : Call, c.tokens = used ∧ c.node = e

/-- Further operands, behind one that ends in a name if `b` holds. -/
theorem sumTail_reads {operand : Reader Node} {n : Nat}
    (hop : ∀ ts, ts.length ≤ n → Reads operand ts OperandRead (fun _ => True)) (k : Nat) :
    ∀ (ts : List Token) (left : Node) (b : Bool), ts.length ≤ k → ts.length ≤ n →
      (b = true → leads [.lparen] ts = false) →
      Reads (sumTail operand k left) ts
        (fun used e rest => ∃ more : Terms, more.tokens = used ∧ more.node left = e ∧
          leads [.plus, .minus] rest = false ∧
          (more.endsInName b = true → leads [.lparen] rest = false)) (fun _ => True) := by
  induction k with
  | zero =>
    intro ts left b hk _ _
    obtain rfl : ts = [] := List.eq_nil_of_length_eq_zero (Nat.le_zero.mp hk)
    exact Reads.pure ⟨.nil, rfl, rfl, rfl, fun _ => rfl⟩
  | succ k ih =>
    intro ts left b hk hn hb
    unfold sumTail
    refine Reads.looksAt_bind ?_
    cases hlead : leads [.plus, .minus] ts with
    | false => exact Reads.pure ⟨.nil, rfl, rfl, hlead, hb⟩
    | true =>
      cases ts with
      | nil => cases hlead
      | cons sign rest =>
        have hsign : sign.kind = .plus ∨ sign.kind = .minus := by simpa using hlead
        have hk' : rest.length ≤ k := by simp only [List.length_cons] at hk; omega
        have hn' : rest.length ≤ n := by simp only [List.length_cons] at hn; omega
        refine Reads.step_bind (fun pos => operator_before sign rest pos) ?_
        refine Reads.bind (hop rest hn') ?_ (fun _ _ => trivial)
        rintro used e rest' hrest ⟨x, rfl, rfl, hx⟩
        refine (ih rest' (.bin sign.text left x.node) x.endsInName (length_le_of_append hrest hk')
          (length_le_of_append hrest hn') hx).mono ?_ (fun _ _ => trivial)
        rintro used' e' rest'' _ ⟨more, rfl, rfl, hstop⟩
        exact ⟨.cons ⟨sign, hsign⟩ x more, rfl, rfl, hstop⟩

theorem sum_reads {operand : Reader Node} {n : Nat}
    (hop : ∀ ts, ts.length ≤ n → Reads operand ts OperandRead (fun _ => True))
    (ts : List Token) (hn : ts.length ≤ n) :
    Reads (sum operand n) ts ExpressionRead (fun _ => True) := by
  unfold sum
  refine Reads.bind (hop ts hn) ?_ (fun _ _ => trivial)
  rintro used e rest hts ⟨x, rfl, rfl, hx⟩
  have hlen := length_le_of_append hts hn
  refine (sumTail_reads hop n rest x.node x.endsInName hlen hlen hx).mono ?_ (fun _ _ => trivial)
  rintro used' e' rest' _ ⟨more, rfl, rfl, hstop⟩
  exact ⟨.mk x more, rfl, rfl, hstop⟩

/-- A call: its name is used up before anything can go wrong. -/
theorem callWith_reads {expression : Reader Node} {n : Nat}
    (hexpr : ∀ ts, ts.length ≤ n → Reads expression ts ExpressionRead (fun _ => True))
    (k : Nat) {name : Token} (hname : name.kind = .ident) (ts : List Token) (hn : ts.length ≤ n) :
    Reads (callWith expression k) (name :: ts) CallRead (fun used => used ≠ []) := by
  unfold callWith
  refine Reads.within _ ?_
  refine Reads.step_bind (fun pos => take_before name ts pos) ?_
  refine Reads.part_bind ?_
  by_cases hempty : name.text = ""
  · rw [if_pos hempty]
    exact Reads.of_error (List.nil_append ts).symm (fun _ => rfl) (by simp)
  · rw [if_neg hempty]
    refine Reads.expect_bind ?_ (fun _ => by simp)
    intro opening rest hts hopening
    have hlen : rest.length ≤ n := by rw [hts, List.length_cons] at hn; omega
    have hel : ∀ ts, ts.length ≤ n →
        Reads expression ts (fun used e _ => IsExpression used e) (fun _ => True) := by
      intro ts' hts'
      refine (hexpr ts' hts').mono ?_ (fun _ _ => trivial)
      rintro used e _ _ ⟨x, hx, he, _⟩
      exact ⟨x, hx, he⟩
    refine Reads.bind (listToParen_reads hel k rest hlen) ?_ (by simp)
    rintro used as rest' _ ⟨body, closing, rfl, hlisted⟩
    obtain ⟨args, rfl, rfl⟩ := exists_arguments hlisted
    refine Reads.pure ⟨.mk ⟨name, hname, hempty⟩ ⟨opening, hopening⟩ args closing, ?_, rfl⟩
    simp [Call.tokens]

/-- An operand without a sign, by the kind of its first token. -/
theorem primaryWith_reads {expression : Reader Node} {n : Nat}
    (hexpr : ∀ ts, ts.length ≤ n → Reads expression ts ExpressionRead (fun _ => True))
    (k : Nat) (ts : List Token) (hn : ts.length ≤ n + 1) :
    Reads (primaryWith expression k) ts OperandRead (fun _ => True) := by
  cases ts with
  | nil => exact Reads.of_error (List.nil_append []).symm (fun _ => rfl) trivial
  | cons t rest =>
    have hlen : rest.length ≤ n := by simp only [List.length_cons] at hn; omega
    have happ : t :: rest = [t] ++ rest := rfl
    by_cases hstring : t.kind = .string
    · exact Reads.of_ok happ (fun pos => primaryWith_string _ _ _ _ hstring)
        ⟨.text ⟨t, hstring⟩, rfl, rfl, fun h => by cases h⟩
    by_cases hnumber : t.kind = .number
    · cases hread : Numeric.readInt? t.text with
      | none =>
        exact Reads.of_error happ
          (fun pos => primaryWith_number_of_none _ _ _ _ hnumber hread) trivial
      | some v =>
        have hsome : (Numeric.readInt? t.text).isSome := by rw [hread]; rfl
        refine Reads.of_ok happ (fun pos => primaryWith_number _ _ _ _ hnumber hread)
          ⟨.numeral ⟨t, hnumber, hsome⟩, rfl, ?_, fun h => by cases h⟩
        simp [Operand.node, Numeral.value, hread]
    by_cases hident : t.kind = .ident
    · cases hlead : leads [.lparen] rest with
      | true =>
        refine Reads.congr (fun pos => ?_) ((callWith_reads hexpr k hident rest hlen).mono ?_
          (fun _ _ => trivial))
        · rw [primaryWith_ident _ _ _ _ hident, hlead, if_pos rfl]
        · rintro used e _ _ ⟨c, hc, he⟩
          exact ⟨.call c, hc, he, fun h => by cases h⟩
      | false =>
        refine Reads.of_ok happ (fun pos => ?_) ⟨.name ⟨t, hident⟩, rfl, rfl, fun _ => hlead⟩
        rw [primaryWith_ident _ _ _ _ hident, hlead, if_neg Bool.false_ne_true]
        rfl
    by_cases hparen : t.kind = .lparen
    · refine Reads.congr (fun pos => primaryWith_lparen _ _ _ _ hparen) ?_
      refine Reads.step_bind (fun pos => advance_before t rest pos) ?_
      refine Reads.bind (hexpr rest hlen) ?_ (fun _ _ => trivial)
      rintro used e rest' _ ⟨x, rfl, rfl, _⟩
      refine Reads.expect_bind ?_ (fun _ => trivial)
      intro closing rest'' _ hclosing
      refine Reads.pure ⟨.enclosed ⟨t, hparen⟩ x ⟨closing, hclosing⟩, ?_, rfl, fun h => by cases h⟩
      simp [Operand.tokens]
    · have hother : t.kind ∉ [Kind.string, .number, .ident, .lparen] := by
        simp [hstring, hnumber, hident, hparen]
      exact Reads.of_error (List.nil_append _).symm (fun pos => primaryWith_other _ _ _ _ hother)
        trivial

/-- **Soundness of operands**: what is read as an operand is derived as one. -/
theorem operand_reads (n : Nat) (ts : List Token) (hn : ts.length ≤ n) :
    Reads (operand n) ts OperandRead (fun _ => True) := by
  induction n generalizing ts with
  | zero =>
    obtain rfl : ts = [] := List.eq_nil_of_length_eq_zero (Nat.le_zero.mp hn)
    exact Reads.of_error (List.nil_append []).symm (fun _ => rfl) trivial
  | succ n ih =>
    unfold operand
    refine Reads.looksAt_bind ?_
    cases hlead : leads [.minus] ts with
    | false => exact primaryWith_reads (fun ts' h => sum_reads ih ts' h) n ts hn
    | true =>
      cases ts with
      | nil => cases hlead
      | cons sign rest =>
        have hsign : sign.kind = .minus := by simpa using hlead
        have hlen : rest.length ≤ n := by simp only [List.length_cons] at hn; omega
        refine Reads.step_bind (fun pos => operator_before sign rest pos) ?_
        refine Reads.bind (ih rest hlen) ?_ (fun _ _ => trivial)
        rintro used e rest' _ ⟨x, rfl, rfl, hx⟩
        refine Reads.pure ⟨.negated ⟨sign, hsign⟩ x, ?_, rfl, hx⟩
        simp [Operand.tokens]

/-- **Soundness of expressions**: what is read as an expression is derived as one, up to
where it stops. -/
theorem expression_reads (ts : List Token) :
    Reads expression ts ExpressionRead (fun _ => True) := by
  have hsum := sum_reads (fun ts' h => operand_reads ts.length ts' h) ts (Nat.le_refl _)
  refine Reads.congr (fun pos => ?_) hsum
  show sum (operand (Cursor.before ts pos).rest.length) (Cursor.before ts pos).rest.length _ = _
  rw [Cursor.length_rest_before]

theorem call_reads {name : Token} (hname : name.kind = .ident) (ts : List Token) :
    Reads call (name :: ts) CallRead (fun used => used ≠ []) := by
  have hcall := callWith_reads (fun ts' _ => expression_reads ts') (name :: ts).length hname ts
    (Nat.le_refl _)
  refine Reads.congr (fun pos => ?_) hcall
  show callWith expression (Cursor.before (name :: ts) pos).rest.length _ = _
  rw [Cursor.length_rest_before]

/-! ## larger parts -/

/-- A version directive. -/
theorem version_reads (ts : List Token) :
    Reads version ts (fun used v _ => ∃ d : Version, d.tokens = used ∧ d.parsed = v)
      (fun used => leads [.version] ts = true → used ≠ []) := by
  unfold version
  refine Reads.within _ (Reads.expect_bind ?_ (by simp_all))
  intro word rest hts hword
  refine Reads.expect_bind ?_ (by simp)
  intro text rest' hrest htext
  refine Reads.part_bind ?_
  by_cases hempty : stripQuotes text.text = ""
  · rw [if_pos hempty]
    exact Reads.of_error (List.nil_append _).symm (fun _ => rfl) (by simp)
  · rw [if_neg hempty]
    exact Reads.pure ⟨⟨⟨word, hword⟩, ⟨text, htext, hempty⟩⟩, rfl, rfl⟩

/-- An import. -/
theorem importDirective_reads (ts : List Token) :
    Reads importDirective ts (fun used m _ => ∃ d : Import, d.tokens = used ∧ d.parsed = m)
      (fun used => leads [.importWord] ts = true → used ≠ []) := by
  unfold importDirective
  refine Reads.within _ (Reads.expect_bind ?_ (by simp_all))
  intro word rest hts hword
  refine Reads.expectName_bind ?_ (by simp) (by simp)
  intro name rest' hrest hname
  refine Reads.expect_bind ?_ (by simp)
  intro semi rest'' _ hsemi
  exact Reads.pure ⟨⟨⟨word, hword⟩, ⟨name, hname⟩, ⟨semi, hsemi⟩⟩, rfl, rfl⟩

/-- A let, up to where its expression stops. -/
theorem letStatement_reads (ts : List Token) :
    Reads letStatement ts (fun used e _ => ∃ d : Let, d.tokens = used ∧ d.node = e)
      (fun used => leads [.letWord] ts = true → used ≠ []) := by
  unfold letStatement
  refine Reads.within _ (Reads.expect_bind ?_ (by simp_all))
  intro word rest hts hword
  refine Reads.expectText_bind ?_ (by simp)
  intro name rest' hrest hname
  refine Reads.expect_bind ?_ (by simp)
  intro assign rest'' _ hassign
  refine Reads.bind (expression_reads rest'') ?_ (by simp)
  rintro used e _ _ ⟨x, rfl, rfl, _⟩
  refine Reads.pure ⟨⟨⟨word, hword⟩, ⟨name, hname⟩, ⟨assign, hassign⟩, x⟩, ?_, rfl⟩
  simp [Let.tokens]

/-- A parameter. -/
theorem parameter_reads (ts : List Token) :
    Reads parameter ts (fun used p _ => ∃ d : Parameter, d.tokens = used ∧ d.parsed = p)
      (fun _ => True) := by
  unfold parameter
  refine Reads.within _ (Reads.expectText_bind ?_ (fun _ => trivial))
  intro type rest hts htype
  refine Reads.expectName_bind ?_ (fun _ => trivial) (fun _ => trivial)
  intro name rest' hrest hname
  exact Reads.pure ⟨⟨⟨type, htype⟩, ⟨name, hname⟩⟩, rfl, rfl⟩

/-- A statement has been read. -/
def StatementRead (used : List Token) (e : Node) (_ : List Token) : Prop :=
  ∃ s : Statement, s.tokens = used ∧ s.node = e

/-- A return, with or without a value. -/
theorem returnStatement_reads (ts : List Token) :
    Reads returnStatement ts StatementRead
      (fun used => leads [.returnWord] ts = true → used ≠ []) := by
  unfold returnStatement
  refine Reads.within _ (Reads.expect_bind ?_ (by simp_all))
  intro word rest hts hword
  have hclose : ∀ (value : Option Expression) (ts' : List Token),
      Reads (do
          let _ ← expect .semi
          return Node.ret ((value.map Expression.node).getD .absent)) ts'
        (fun used e _ => ∃ semi : TokenOf .semi, used = [semi.1] ∧
          e = Node.ret ((value.map Expression.node).getD .absent)) (fun _ => True) := by
    intro value ts'
    refine Reads.expect_bind ?_ (fun _ => trivial)
    intro semi rest' _ hsemi
    exact Reads.pure ⟨⟨semi, hsemi⟩, rfl, rfl⟩
  refine Reads.looksAt_bind ?_
  cases hlead : leads [.semi] rest with
  | true =>
    refine (hclose none rest).mono ?_ (by simp)
    rintro used e _ _ ⟨semi, rfl, rfl⟩
    exact ⟨.ret ⟨word, hword⟩ none semi, rfl, rfl⟩
  | false =>
    simp only [Bool.false_eq_true, if_false]
    refine Reads.bind (expression_reads rest) ?_ (by simp)
    rintro used e rest' _ ⟨x, rfl, rfl, _⟩
    refine (hclose (some x) rest').mono ?_ (by simp)
    rintro used' e' _ _ ⟨semi, rfl, rfl⟩
    exact ⟨.ret ⟨word, hword⟩ (some x) semi, rfl, rfl⟩

/-- A call that stands as a statement. -/
theorem callStatement_reads {name : Token} (hname : name.kind = .ident) (ts : List Token) :
    Reads callStatement (name :: ts) StatementRead (fun used => used ≠ []) := by
  unfold callStatement
  refine Reads.within _ (Reads.bind (call_reads hname ts) ?_ (fun _ h => h))
  rintro used e rest hts ⟨c, rfl, rfl⟩
  refine Reads.expect_bind ?_ ?_
  · intro semi rest' _ hsemi
    exact Reads.pure ⟨.call c ⟨semi, hsemi⟩, rfl, rfl⟩
  · obtain ⟨name', opening, args, closing⟩ := c
    simp [Call.tokens]

/-- The kinds that start a statement. -/
def statementKinds : List Kind := [.returnWord, .letWord, .ident]

/-- The error where no statement starts. -/
def noStatement : List Token → SyntaxError
  | [] => ⟨.unexpectedStatement none, none⟩
  | t :: _ => ⟨.unexpectedStatement (some t.kind), some t⟩

theorem statement_before_of_not_leads {ts : List Token} (h : leads statementKinds ts = false)
    (pos : Nat) :
    statement (.before ts pos) = .error (.syntaxError (noStatement ts)) (.before ts pos) := by
  cases ts with
  | nil => rfl
  | cons t rest =>
    simp only [leads_cons, statementKinds, List.contains_eq_mem, List.mem_cons, List.not_mem_nil,
      or_false, decide_eq_false_iff_not, not_or] at h
    unfold statement
    rw [bind_of_ok (looksAt_before _ _ pos), leads_cons, if_neg (by simp [h.1]),
      bind_of_ok (looksAt_before _ _ pos), leads_cons, if_neg (by simp [h.2.1]),
      bind_of_ok (looksAt_before _ _ pos), leads_cons, if_neg (by simp [h.2.2])]
    rfl

/-- **Soundness of statements**: what is read as a statement is derived as one, and where
a statement starts at least one token is used up. -/
theorem statement_reads (ts : List Token) :
    Reads statement ts StatementRead (fun used => leads statementKinds ts = true → used ≠ []) := by
  cases hlead : leads statementKinds ts with
  | false =>
    exact Reads.of_error (List.nil_append ts).symm
      (fun pos => statement_before_of_not_leads hlead pos) (by simp)
  | true =>
    cases ts with
    | nil => cases hlead
    | cons t rest =>
      have hkind : t.kind = .returnWord ∨ t.kind = .letWord ∨ t.kind = .ident := by
        simpa [statementKinds] using hlead
      unfold statement
      refine Reads.looksAt_bind ?_
      rcases hkind with h | h | h
      · rw [leads_cons, if_pos (by simp [h])]
        exact (returnStatement_reads _).mono (fun _ _ _ _ h' => h') (by simp [h])
      · rw [leads_cons, if_neg (by simp [h])]
        refine Reads.looksAt_bind ?_
        rw [leads_cons, if_pos (by simp [h])]
        refine (letStatement_reads _).mono ?_ (by simp [h])
        rintro used e _ _ ⟨d, hd, he⟩
        exact ⟨.letIn d, hd, he⟩
      · rw [leads_cons, if_neg (by simp [h])]
        refine Reads.looksAt_bind ?_
        rw [leads_cons, if_neg (by simp [h])]
        refine Reads.looksAt_bind ?_
        rw [leads_cons, if_pos (by simp [h])]
        exact (callStatement_reads h rest).mono (fun _ _ _ _ h' => h') (fun _ hu _ => hu)

/-! ## the head of a function -/

theorem exists_moreParams {ts : List Token} {ps : List Param}
    (h : Series (fun used p => ∃ d : Parameter, d.tokens = used ∧ d.parsed = p) ts ps) :
    ∃ more : List (TokenOf .comma × Parameter),
      more.flatMap (fun (comma, p) => comma.1 :: p.tokens) = ts ∧ more.map (·.2.parsed) = ps := by
  induction h with
  | nil => exact ⟨[], rfl, rfl⟩
  | cons comma h _ ih =>
    obtain ⟨d, rfl, rfl⟩ := h
    obtain ⟨more, rfl, rfl⟩ := ih
    exact ⟨(comma, d) :: more, rfl, rfl⟩

theorem exists_params {ts : List Token} {ps : List Param}
    (h : Listed (fun used p => ∃ d : Parameter, d.tokens = used ∧ d.parsed = p) ts ps) :
    ∃ params, paramsTokens params = ts ∧ paramsParsed params = ps := by
  cases h with
  | none => exact ⟨none, rfl, rfl⟩
  | some h hs =>
    obtain ⟨d, rfl, rfl⟩ := h
    obtain ⟨more, rfl, rfl⟩ := exists_moreParams hs
    exact ⟨some (d, more), rfl, rfl⟩

/-- The parameters of a function, in parentheses. -/
theorem parameters_reads (ts : List Token) :
    Reads parameters ts
      (fun used ps _ => ∃ (opening : TokenOf .lparen) (closing : TokenOf .rparen) (params : _),
        used = opening.1 :: (paramsTokens params ++ [closing.1]) ∧ paramsParsed params = ps)
      (fun _ => True) := by
  unfold parameters
  refine Reads.expect_bind ?_ (fun _ => trivial)
  intro opening rest hts hopening
  have hlist := listToParen_reads (fun ts' (_ : ts'.length ≤ rest.length) => parameter_reads ts')
    rest.length rest (Nat.le_refl _)
  refine Reads.congr (fun pos => ?_) (hlist.mono ?_ (fun _ _ => trivial))
  · show listToParen parameter (Cursor.before rest pos).rest.length _ = _
    rw [Cursor.length_rest_before]
  · rintro used ps _ _ ⟨body, closing, rfl, hlisted⟩
    obtain ⟨params, rfl, rfl⟩ := exists_params hlisted
    exact ⟨⟨opening, hopening⟩, closing, params, rfl, rfl⟩

/-- What the head of a function stands for. -/
def HeadRead (used : List Token) (a : Kind × String × List Param) (_ : List Token) : Prop :=
  ∃ h : Header, h.tokens = used ∧ a = (h.ret.1.kind, h.name.1.text, paramsParsed h.params)

/-- The head of a function: the word for its return type is used up before anything can go
wrong. -/
theorem functionHead_reads {ret : Token} (hret : ret.kind = .int ∨ ret.kind = .void)
    (ts : List Token) :
    Reads functionHead (ret :: ts) HeadRead (fun used => used ≠ []) := by
  have hstart : Reads (within (.function none) do
      let k ← part (← take).kind
      let i ← expect .ident
      return (k, i, ← part i.text)) (ret :: ts)
      (fun used a _ => ∃ name : TokenOf .ident, used = [ret, name.1] ∧
        a = (ret.kind, .token name.1, name.1.text)) (fun used => used ≠ []) := by
    refine Reads.within _ (Reads.step_bind (fun pos => take_before ret ts pos) ?_)
    refine Reads.part_bind (Reads.expect_bind ?_ (by simp))
    intro name rest _ hname
    exact Reads.part_bind (Reads.pure ⟨⟨name, hname⟩, rfl, rfl⟩)
  unfold functionHead
  refine Reads.bind hstart ?_ (fun _ h => h)
  rintro used _ rest hts ⟨name, rfl, rfl⟩
  refine Reads.within _ ?_
  by_cases hempty : name.1.text = ""
  · rw [if_pos hempty]
    exact Reads.of_error (List.nil_append _).symm (fun _ => rfl) (by simp)
  · rw [if_neg hempty]
    refine Reads.bind (parameters_reads rest) ?_ (by simp)
    rintro used' _ rest' _ ⟨opening, closing, params, rfl, rfl⟩
    refine Reads.expect_bind ?_ (by simp)
    intro brace rest'' _ hbrace
    refine Reads.pure ⟨⟨⟨ret, hret⟩, ⟨name.1, name.2, hempty⟩, opening, params, closing,
      ⟨brace, hbrace⟩⟩, ?_, rfl⟩
    simp [Header.tokens]

end LetCall.Reader
