import LetCall.Proofs.Reading.Sound

/-!
# LetCall.Proofs.Reading.Complete

Completeness of the readers: before the tokens of a derivation a reader uses up exactly
these and gives what the derivation stands for, whatever follows.  Only behind an
expression something has to be said about what follows, since nothing closes it.

Main statements: `expression_before`, `statement_before` and their like for the other
parts.
-/

namespace LetCall.Reader

open Grammar

variable {α : Type}

/-- The same result at the same place. -/
theorem ok_before {a : α} {rest : List Token} {p q : Nat} (h : p = q) :
    (.ok a (.before rest p) : EStateM.Result Failure Cursor α) = .ok a (.before rest q) := by
  rw [h]

/-- `r` reads the tokens `ts` as `a`, wherever a comma or a closing parenthesis follows,
and they are not taken for the end of a list. -/
structure ReadBy (r : Reader α) (ts : List Token) (a : α) : Prop where
  lead : ∀ rest, leads [.rparen] (ts ++ rest) = false
  read : ∀ rest pos, leads [.comma, .rparen] rest = true →
    r (.before (ts ++ rest) pos) = .ok a (.before rest (pos + ts.length))

/-- Further parts of a list are led by a comma, and followed by a closing parenthesis. -/
theorem Series.leads_append {P : List Token → α → Prop} {ts : List Token} {as : List α}
    (h : Series P ts as) (closing : TokenOf .rparen) (rest : List Token) :
    leads [.comma, .rparen] (ts ++ closing.1 :: rest) = true := by
  cases h with
  | nil => simp [closing.2]
  | cons comma => simp [comma.2]

/-- A list goes on as long as there are commas. -/
theorem listTail_of_series {element : Reader α} {ts : List Token} {as : List α}
    (h : Series (ReadBy element) ts as) {n : Nat} (hn : ts.length ≤ n) (closing : TokenOf .rparen)
    (rest : List Token) (pos : Nat) :
    listTail element n (.before (ts ++ closing.1 :: rest) pos) =
      .ok as (.before (closing.1 :: rest) (pos + ts.length)) := by
  induction h generalizing n pos with
  | nil =>
    cases n with
    | zero => rfl
    | succ n =>
      unfold listTail
      rw [List.nil_append, bind_of_ok (looksAt_before _ _ pos), leads_cons,
        if_neg (by simp [closing.2])]
      rfl
  | @cons comma ts us a as h hs ih =>
    cases n with
    | zero => simp at hn
    | succ n =>
      have hlen : us.length ≤ n := by
        simp only [List.length_cons, List.length_append] at hn
        omega
      unfold listTail
      rw [List.cons_append, List.append_assoc, bind_of_ok (looksAt_before _ _ pos), leads_cons,
        if_pos (by simp [comma.2]), bind_of_ok (advance_before _ _ pos),
        bind_of_ok (h.read _ _ (hs.leads_append closing rest)), bind_of_ok (ih hlen _)]
      exact ok_before (by simp only [List.length_cons, List.length_append]; omega)

/-- A list in parentheses is read up to the closing one. -/
theorem listToParen_of_listed {element : Reader α} {ts : List Token} {as : List α}
    (h : Listed (ReadBy element) ts as) {n : Nat} (hn : ts.length ≤ n)
    (closing : TokenOf .rparen) (rest : List Token) (pos : Nat) :
    listToParen element n (.before (ts ++ closing.1 :: rest) pos) =
      .ok as (.before rest (pos + ts.length + 1)) := by
  unfold listToParen
  rw [bind_of_ok (looksAt_before _ _ pos)]
  cases h with
  | none =>
    rw [List.nil_append, leads_cons, if_pos (by simp [closing.2])]
    show (expect .rparen >>= _ : Reader _) _ = _
    rw [bind_of_ok (expect_before closing.2 rest pos)]
    rfl
  | @some ts us a as h hs =>
    have hlen : us.length ≤ n := by
      simp only [List.length_append] at hn
      omega
    rw [List.append_assoc, h.lead, if_neg Bool.false_ne_true,
      bind_of_ok (h.read _ pos (hs.leads_append closing rest)),
      bind_of_ok (listTail_of_series hs hlen closing rest _)]
    show (expect .rparen >>= _ : Reader _) _ = _
    rw [bind_of_ok (expect_before closing.2 rest _)]
    exact ok_before (by simp only [List.length_append]; omega)

/-! ## expressions -/

/-- `r` reads every operand of at most `n` tokens as what it stands for. -/
def ReadsOperands (r : Reader Node) (n : Nat) : Prop :=
  ∀ (x : Operand) (rest : List Token) (pos : Nat), x.tokens.length ≤ n → x.Stops rest →
    r (.before (x.tokens ++ rest) pos) = .ok x.node (.before rest (pos + x.tokens.length))

/-- `r` reads every expression of at most `n` tokens as what it stands for. -/
def ReadsExpressions (r : Reader Node) (n : Nat) : Prop :=
  ∀ (e : Expression) (rest : List Token) (pos : Nat), e.tokens.length ≤ n → e.Stops rest →
    r (.before (e.tokens ++ rest) pos) = .ok e.node (.before rest (pos + e.tokens.length))

/-- An expression is read as an argument. -/
theorem ReadsExpressions.readBy {r : Reader Node} {n : Nat} (hr : ReadsExpressions r n)
    (e : Expression) (hn : e.tokens.length ≤ n) : ReadBy r e.tokens e.node where
  lead rest := leads_eq_false_of_disjoint (by decide) (e.leads_tokens rest)
  read rest pos hlead :=
    hr e rest pos hn (e.stops_of_ends (leads_eq_false_of_disjoint (by decide) hlead))

/-- Further arguments are read one by one. -/
theorem moreArguments_series {r : Reader Node} {n : Nat} (hr : ReadsExpressions r n) :
    (more : MoreArguments) → more.tokens.length ≤ n → Series (ReadBy r) more.tokens more.nodes
  | .nil, _ => .nil
  | .cons comma e more, hn => by
    simp only [MoreArguments.tokens, List.length_cons, List.length_append] at hn
    exact .cons comma (hr.readBy e (by omega)) (moreArguments_series hr more (by omega))

/-- Arguments are read one by one. -/
theorem arguments_listed {r : Reader Node} {n : Nat} (hr : ReadsExpressions r n)
    (args : Arguments) (hn : args.tokens.length ≤ n) :
    Listed (ReadBy r) args.tokens args.nodes := by
  cases args with
  | none => exact .none
  | some e more =>
    simp only [Arguments.tokens, List.length_append] at hn
    exact .some (hr.readBy e (by omega)) (moreArguments_series hr more (by omega))

/-- A call is read as what it stands for, whatever follows it. -/
theorem callWith_before {r : Reader Node} {n : Nat} (hr : ReadsExpressions r n) (c : Call)
    {k : Nat} (hn : c.tokens.length ≤ n + 1) (hk : c.tokens.length ≤ k + 1) (rest : List Token)
    (pos : Nat) :
    callWith r k (.before (c.tokens ++ rest) pos) =
      .ok c.node (.before rest (pos + c.tokens.length)) := by
  obtain ⟨name, opening, args, closing⟩ := c
  simp only [Call.tokens, List.length_cons, List.length_append, List.length_nil] at hn hk
  have hlisted := arguments_listed hr args (by omega)
  unfold callWith
  refine within_of_ok _ ?_
  rw [Call.tokens, List.cons_append, bind_of_ok (take_before _ _ pos), Item.text_token,
    bind_of_ok (part_ok _ _), if_neg name.2.2, List.cons_append]
  show (expect .lparen >>= _ : Reader Node) _ = _
  rw [bind_of_ok (expect_before opening.2 _ _),
    List.append_assoc, List.cons_append, List.nil_append,
    bind_of_ok (listToParen_of_listed hlisted (by omega) closing rest _)]
  exact ok_before (by simp only [List.length_cons, List.length_append, List.length_nil]; omega)

/-- Further operands, behind one that ends in a name if `b` holds. -/
theorem sumTail_before {r : Reader Node} {n : Nat} (hr : ReadsOperands r n) :
    (more : Terms) → (k : Nat) → (rest : List Token) → (pos : Nat) → (left : Node) → (b : Bool) →
    more.tokens.length ≤ n → more.tokens.length ≤ k → leads [.plus, .minus] rest = false →
    (more.endsInName b = true → leads [.lparen] rest = false) →
    sumTail r k left (.before (more.tokens ++ rest) pos) =
      .ok (more.node left) (.before rest (pos + more.tokens.length))
  | .nil, 0, _, _, _, _, _, _, _, _ => rfl
  | .nil, k + 1, rest, pos, left, b, _, _, hs, _ => by
    unfold sumTail
    rw [Terms.tokens, List.nil_append, bind_of_ok (looksAt_before _ _ pos), hs,
      if_neg Bool.false_ne_true]
    rfl
  | .cons sign x more, 0, _, _, _, _, _, hk, _, _ => by
    simp [Terms.tokens] at hk
  | .cons sign x more, k + 1, rest, pos, left, b, hn, hk, hs, hb => by
    simp only [Terms.tokens, List.length_cons, List.length_append] at hn hk
    have hsign : leads [.plus, .minus] (sign.1 :: (x.tokens ++ more.tokens) ++ rest) = true := by
      simpa using sign.2
    unfold sumTail
    rw [Terms.tokens, bind_of_ok (looksAt_before _ _ pos), hsign, if_pos rfl, List.cons_append,
      bind_of_ok (operator_before _ _ pos), List.append_assoc,
      bind_of_ok (hr x _ (pos + 1) (by omega) (Operand.stops_terms hb)),
      sumTail_before hr more k rest _ _ _ (by omega) (by omega) hs hb]
    exact ok_before (by simp only [List.length_cons, List.length_append]; omega)

theorem sum_before {r : Reader Node} {n : Nat} (hr : ReadsOperands r n) :
    ReadsExpressions (sum r n) n := by
  intro e rest pos hn hs
  obtain ⟨x, more⟩ := e
  simp only [Expression.tokens, List.length_append] at hn
  unfold sum
  rw [Expression.tokens, List.append_assoc,
    bind_of_ok (hr x _ pos (by omega) (Operand.stops_terms hs.2)),
    sumTail_before hr more n rest _ x.node _ (by omega) (by omega) hs.1 hs.2]
  exact ok_before (by simp only [List.length_append]; omega)

/-- **Completeness of operands**: the tokens of an operand are read as what it stands
for, wherever it stops. -/
theorem operand_before (n : Nat) : ReadsOperands (operand n) n := by
  induction n with
  | zero =>
    intro x rest pos hn _
    obtain ⟨t, ts, htokens, -⟩ := x.exists_lead
    simp [htokens] at hn
  | succ n ih =>
    intro x rest pos hn hs
    unfold operand
    rw [bind_of_ok (looksAt_before _ _ pos), Operand.leads_tokens]
    cases x with
    | negated sign y =>
      simp only [Operand.tokens, List.length_cons] at hn
      rw [if_pos (by rfl), Operand.tokens, List.cons_append, bind_of_ok (operator_before _ _ pos),
        bind_of_ok (ih y rest (pos + 1) (by omega) hs)]
      exact ok_before (by simp only [List.length_cons]; omega)
    | text t =>
      rw [if_neg (by simp [Operand.kind])]
      exact primaryWith_string _ _ _ _ t.2
    | numeral t =>
      rw [if_neg (by simp [Operand.kind])]
      exact primaryWith_number _ _ _ _ t.2.1 (by simp [Numeral.value])
    | name t =>
      rw [if_neg (by simp [Operand.kind]), Operand.tokens, List.cons_append, List.nil_append,
        primaryWith_ident _ _ _ _ t.2, hs rfl]
      rfl
    | call c =>
      have hcall := callWith_before (sum_before ih) c hn hn rest pos
      rw [if_neg (by simp [Operand.kind]), Operand.tokens]
      obtain ⟨name, opening, args, closing⟩ := c
      rw [Call.tokens, List.cons_append] at hcall ⊢
      rw [primaryWith_ident _ _ _ _ name.2.1, if_pos (by simp [opening.2]), hcall]
      rfl
    | enclosed opening e closing =>
      simp only [Operand.tokens, List.length_cons, List.length_append, List.length_nil] at hn
      have hstop : e.Stops (closing.1 :: rest) := by simp [Expression.Stops, closing.2]
      rw [if_neg (by simp [Operand.kind]), Operand.tokens, List.cons_append,
        primaryWith_lparen _ _ _ _ opening.2, bind_of_ok (advance_before _ _ pos),
        List.append_assoc, List.cons_append, List.nil_append,
        bind_of_ok (sum_before ih e _ (pos + 1) (by omega) hstop),
        bind_of_ok (expect_before closing.2 rest _)]
      exact ok_before (by
        simp only [List.length_cons, List.length_append, List.length_nil]; omega)

/-- **Completeness of expressions**: the tokens of an expression are read as what it
stands for, wherever it stops. -/
theorem expression_before (e : Expression) (rest : List Token) (pos : Nat) (hs : e.Stops rest) :
    expression (.before (e.tokens ++ rest) pos) =
      .ok e.node (.before rest (pos + e.tokens.length)) := by
  have hlen : e.tokens.length ≤ (e.tokens ++ rest).length := by
    rw [List.length_append]; omega
  show sum (operand (Cursor.before _ pos).rest.length) (Cursor.before _ pos).rest.length _ = _
  rw [Cursor.length_rest_before]
  exact sum_before (operand_before _) e rest pos hlen hs

theorem call_before (c : Call) (rest : List Token) (pos : Nat) :
    call (.before (c.tokens ++ rest) pos) = .ok c.node (.before rest (pos + c.tokens.length)) := by
  have hlen : c.tokens.length ≤ (c.tokens ++ rest).length := by
    rw [List.length_append]; omega
  have hexpr : ReadsExpressions expression (c.tokens ++ rest).length :=
    fun e rest pos _ hs => expression_before e rest pos hs
  show callWith expression (Cursor.before _ pos).rest.length _ = _
  rw [Cursor.length_rest_before]
  exact callWith_before hexpr c (by omega) (by omega) rest pos

/-! ## larger parts -/

theorem version_before (d : Version) (rest : List Token) (pos : Nat) :
    version (.before (d.tokens ++ rest) pos) =
      .ok d.parsed (.before rest (pos + d.tokens.length)) := by
  obtain ⟨word, text⟩ := d
  refine within_of_ok _ ?_
  rw [Version.tokens, List.cons_append, bind_of_ok (expect_before word.2 _ pos), List.cons_append,
    bind_of_ok (expect_before text.2.1 _ _), Item.text_token, bind_of_ok (part_ok _ _),
    if_neg text.2.2]
  rfl

theorem importDirective_before (d : Import) (rest : List Token) (pos : Nat) :
    importDirective (.before (d.tokens ++ rest) pos) =
      .ok d.parsed (.before rest (pos + d.tokens.length)) := by
  obtain ⟨word, name, semi⟩ := d
  refine within_of_ok _ ?_
  rw [Import.tokens, List.cons_append, bind_of_ok (expect_before word.2 _ pos), List.cons_append,
    bind_of_ok (expectName_before name.2 _ _ _), List.cons_append,
    bind_of_ok (expect_before semi.2 _ _)]
  rfl

/-- A let is read wherever no expression goes on. -/
theorem letStatement_before (d : Let) (rest : List Token) (pos : Nat) (hr : Ends rest) :
    letStatement (.before (d.tokens ++ rest) pos) =
      .ok d.node (.before rest (pos + d.tokens.length)) := by
  obtain ⟨word, name, assign, value⟩ := d
  refine within_of_ok _ ?_
  rw [Let.tokens, List.cons_append, bind_of_ok (expect_before word.2 _ pos), List.cons_append,
    bind_of_ok (expectText_before name.2 _ _), List.cons_append,
    bind_of_ok (expect_before assign.2 _ _),
    bind_of_ok (expression_before value rest _ (value.stops_of_ends hr))]
  exact ok_before (by simp only [List.length_cons]; omega)

theorem returnStatement_before (word : TokenOf .returnWord) (value : Option Expression)
    (semi : TokenOf .semi) (rest : List Token) (pos : Nat) :
    returnStatement (.before ((Statement.ret word value semi).tokens ++ rest) pos) =
      .ok (Statement.ret word value semi).node
        (.before rest (pos + (Statement.ret word value semi).tokens.length)) := by
  refine within_of_ok _ ?_
  rw [Statement.tokens, List.cons_append, bind_of_ok (expect_before word.2 _ pos),
    bind_of_ok (looksAt_before _ _ _)]
  cases value with
  | none =>
    rw [if_pos (by simp [semi.2])]
    show (expect .semi >>= _ : Reader Node) _ = _
    rw [Option.map_none, Option.getD_none, List.nil_append, List.cons_append,
      bind_of_ok (expect_before semi.2 _ _)]
    rfl
  | some e =>
    have hlead : leads [.semi] (e.tokens ++ ([semi.1] ++ rest)) = false :=
      leads_eq_false_of_disjoint (by decide) (e.leads_tokens _)
    rw [Option.map_some, Option.getD_some, List.append_assoc, hlead, if_neg Bool.false_ne_true,
      List.cons_append, List.nil_append,
      bind_of_ok (expression_before e _ _ (e.stops_semi semi rest))]
    show (expect .semi >>= _ : Reader Node) _ = _
    rw [bind_of_ok (expect_before semi.2 _ _)]
    exact ok_before (by simp only [List.length_cons, List.length_append, List.length_nil]; omega)

theorem callStatement_before (c : Call) (semi : TokenOf .semi) (rest : List Token) (pos : Nat) :
    callStatement (.before ((Statement.call c semi).tokens ++ rest) pos) =
      .ok (Statement.call c semi).node
        (.before rest (pos + (Statement.call c semi).tokens.length)) := by
  refine within_of_ok _ ?_
  rw [Statement.tokens, List.append_assoc, bind_of_ok (call_before c _ pos), List.cons_append,
    bind_of_ok (expect_before semi.2 _ _)]
  exact ok_before (by simp only [List.length_append, List.length_cons, List.length_nil]; omega)

/-- **Completeness of statements**: a statement is read as what it stands for, wherever no
expression goes on. -/
theorem statement_before (s : Statement) (rest : List Token) (pos : Nat) (hr : Ends rest) :
    statement (.before (s.tokens ++ rest) pos) =
      .ok s.node (.before rest (pos + s.tokens.length)) := by
  unfold statement
  rw [bind_of_ok (looksAt_before _ _ _), Statement.leads_tokens]
  cases s with
  | ret word value semi =>
    rw [if_pos (by rfl)]
    exact returnStatement_before word value semi rest pos
  | letIn l =>
    rw [if_neg (by simp [Statement.kind]), bind_of_ok (looksAt_before _ _ _),
      Statement.leads_tokens, if_pos (by rfl)]
    exact letStatement_before l rest pos hr
  | call c semi =>
    rw [if_neg (by simp [Statement.kind]), bind_of_ok (looksAt_before _ _ _),
      Statement.leads_tokens, if_neg (by simp [Statement.kind]), bind_of_ok (looksAt_before _ _ _),
      Statement.leads_tokens, if_pos (by rfl)]
    exact callStatement_before c semi rest pos

/-! ## the head of a function -/

theorem parameter_before (d : Parameter) (rest : List Token) (pos : Nat) :
    parameter (.before (d.tokens ++ rest) pos) =
      .ok d.parsed (.before rest (pos + d.tokens.length)) := by
  obtain ⟨type, name⟩ := d
  refine within_of_ok _ ?_
  rw [Parameter.tokens, List.cons_append, bind_of_ok (expectText_before type.2 _ pos),
    List.cons_append, bind_of_ok (expectName_before name.2 _ _ _)]
  rfl

theorem parameter_readBy (d : Parameter) : ReadBy parameter d.tokens d.parsed where
  lead rest := by simp [Parameter.tokens, d.type.2]
  read rest pos _ := parameter_before d rest pos

theorem params_listed (params : Option (Parameter × List (TokenOf .comma × Parameter))) :
    Listed (ReadBy parameter) (paramsTokens params) (paramsParsed params) := by
  match params with
  | none => exact .none
  | some (first, more) =>
    refine .some (parameter_readBy first) ?_
    induction more with
    | nil => exact .nil
    | cons p more ih => exact .cons p.1 (parameter_readBy p.2) ih

/-- The parameters of a function are read up to the closing parenthesis. -/
theorem parameters_before (opening : TokenOf .lparen) (closing : TokenOf .rparen)
    (params : Option (Parameter × List (TokenOf .comma × Parameter))) (rest : List Token)
    (pos : Nat) :
    parameters (.before (opening.1 :: (paramsTokens params ++ closing.1 :: rest)) pos) =
      .ok (paramsParsed params) (.before rest (pos + (paramsTokens params).length + 2)) := by
  unfold parameters
  rw [bind_of_ok (expect_before opening.2 _ pos)]
  show listToParen parameter (Cursor.before _ _).rest.length _ = _
  rw [Cursor.length_rest_before,
    listToParen_of_listed (params_listed params) (by simp) closing rest (pos + 1)]
  exact ok_before (by omega)

theorem functionHead_before (h : Header) (rest : List Token) (pos : Nat) :
    functionHead (.before (h.tokens ++ rest) pos) =
      .ok (h.ret.1.kind, h.name.1.text, paramsParsed h.params)
        (.before rest (pos + h.tokens.length)) := by
  obtain ⟨ret, name, opening, params, closing, brace⟩ := h
  have hstart : ∀ us, (within (.function none) do
      let k ← part (← take).kind
      let i ← expect .ident
      return (k, i, ← part i.text)) (.before (ret.1 :: name.1 :: us) pos) =
        .ok (ret.1.kind, .token name.1, name.1.text) (.before us (pos + 2)) := by
    intro us
    refine within_of_ok _ ?_
    rw [bind_of_ok (take_before _ _ pos), Item.kind_token, bind_of_ok (part_ok _ _),
      bind_of_ok (expect_before name.2.1 _ _)]
    rfl
  unfold functionHead
  rw [Header.tokens, List.cons_append, List.cons_append, bind_of_ok (hstart _)]
  refine within_of_ok _ ?_
  rw [if_neg name.2.2, List.cons_append, List.append_assoc, List.cons_append, List.cons_append,
    List.nil_append]
  show (parameters >>= _ : Reader _) _ = _
  rw [bind_of_ok (parameters_before opening closing params _ _),
    bind_of_ok (expect_before brace.2 rest _)]
  exact ok_before (by simp only [List.length_cons, List.length_append, List.length_nil]; omega)

end LetCall.Reader
