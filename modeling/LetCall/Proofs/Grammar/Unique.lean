import LetCall.Proofs.Grammar

/-!
# LetCall.Proofs.Grammar.Unique

Derivations are unique: a tree is determined by its tokens.  For the parts of a program
this is said with tokens behind them, so that it can be passed from part to part; an
expression has to stop there, since nothing closes it.

Main statement: `Program.eq_of_tokens`.
-/

namespace LetCall.Grammar

/-! ## expressions -/

/-- Tokens of the same kind lead equal lists. -/
theorem Operand.kind_eq_of_append {x y : Operand} {rest rest' : List Token}
    (h : x.tokens ++ rest = y.tokens ++ rest') : x.kind = y.kind := by
  obtain ⟨t, ts, hx, ht⟩ := x.exists_lead
  obtain ⟨u, us, hy, hu⟩ := y.exists_lead
  rw [hx, hy, List.cons_append, List.cons_append, List.cons.injEq] at h
  rw [← ht, ← hu, h.1]

mutual

/-- An operand is determined by its tokens, wherever they stop. -/
theorem Operand.eq_of_append (x y : Operand) (rest rest' : List Token)
    (h : x.tokens ++ rest = y.tokens ++ rest') (hx : x.Stops rest) (hy : y.Stops rest') :
    x = y ∧ rest = rest' := by
  have hkind := Operand.kind_eq_of_append h
  cases x with
  | negated sign x =>
    cases y <;> simp only [Operand.kind, reduceCtorEq] at hkind
    next sign' y =>
      simp only [Operand.tokens, List.cons_append, List.cons.injEq] at h
      obtain ⟨rfl, rfl⟩ := Operand.eq_of_append x y rest rest' h.2 hx hy
      exact ⟨by rw [Subtype.ext h.1], rfl⟩
  | text t =>
    cases y <;> simp only [Operand.kind, reduceCtorEq] at hkind
    next t' =>
      simp only [Operand.tokens, List.cons_append, List.nil_append, List.cons.injEq] at h
      exact ⟨by rw [Subtype.ext h.1], h.2⟩
  | numeral t =>
    cases y <;> simp only [Operand.kind, reduceCtorEq] at hkind
    next t' =>
      simp only [Operand.tokens, List.cons_append, List.nil_append, List.cons.injEq] at h
      exact ⟨by rw [Subtype.ext h.1], h.2⟩
  | name t =>
    cases y <;> simp only [Operand.kind, reduceCtorEq] at hkind
    next t' =>
      simp only [Operand.tokens, List.cons_append, List.nil_append, List.cons.injEq] at h
      exact ⟨by rw [Subtype.ext h.1], h.2⟩
    next c =>
      -- the call has a parenthesis where the name stops
      obtain ⟨name, opening, args, closing⟩ := c
      simp only [Operand.tokens, Call.tokens, List.cons_append, List.nil_append,
        List.cons.injEq] at h
      have := hx rfl
      rw [h.2, leads_cons, opening.2] at this
      simp at this
  | call c =>
    cases y <;> simp only [Operand.kind, reduceCtorEq] at hkind
    next t =>
      obtain ⟨name, opening, args, closing⟩ := c
      simp only [Operand.tokens, Call.tokens, List.cons_append, List.nil_append,
        List.cons.injEq] at h
      have := hy rfl
      rw [← h.2, leads_cons, opening.2] at this
      simp at this
    next c' =>
      simp only [Operand.tokens] at h
      obtain ⟨rfl, rfl⟩ := Call.eq_of_append c c' rest rest' h
      exact ⟨rfl, rfl⟩
  | enclosed opening e closing =>
    cases y <;> simp only [Operand.kind, reduceCtorEq] at hkind
    next opening' e' closing' =>
      simp only [Operand.tokens, List.cons_append, List.append_assoc, List.nil_append,
        List.cons.injEq] at h
      have hs : e.Stops (closing.1 :: rest) := by simp [Expression.Stops, closing.2]
      have hs' : e'.Stops (closing'.1 :: rest') := by simp [Expression.Stops, closing'.2]
      obtain ⟨rfl, hrest⟩ := Expression.eq_of_append e e' _ _ h.2 hs hs'
      rw [List.cons.injEq] at hrest
      exact ⟨by rw [Subtype.ext h.1, Subtype.ext hrest.1], hrest.2⟩
termination_by structural x

/-- An expression is determined by its tokens, wherever they stop. -/
theorem Expression.eq_of_append (e e' : Expression) (rest rest' : List Token)
    (h : e.tokens ++ rest = e'.tokens ++ rest') (hs : e.Stops rest) (hs' : e'.Stops rest') :
    e = e' ∧ rest = rest' := by
  obtain ⟨x, more⟩ := e
  obtain ⟨x', more'⟩ := e'
  simp only [Expression.tokens, List.append_assoc] at h
  obtain ⟨rfl, hmore⟩ := Operand.eq_of_append x x' _ _ h (Operand.stops_terms hs.2)
    (Operand.stops_terms hs'.2)
  obtain ⟨rfl, rfl⟩ := Terms.eq_of_append more more' x.endsInName rest rest' hmore hs hs'
  exact ⟨rfl, rfl⟩
termination_by structural e

/-- Further operands are determined by their tokens, wherever they stop. -/
theorem Terms.eq_of_append (m m' : Terms) (b : Bool) (rest rest' : List Token)
    (h : m.tokens ++ rest = m'.tokens ++ rest')
    (hs : leads [.plus, .minus] rest = false ∧
      (m.endsInName b = true → leads [.lparen] rest = false))
    (hs' : leads [.plus, .minus] rest' = false ∧
      (m'.endsInName b = true → leads [.lparen] rest' = false)) :
    m = m' ∧ rest = rest' := by
  cases m with
  | nil =>
    cases m' with
    | nil => exact ⟨rfl, h⟩
    | cons sign x more =>
      have := hs.1
      simp only [Terms.tokens, List.nil_append, List.cons_append] at h
      rw [h, leads_cons] at this
      rcases sign.2 with hk | hk <;> rw [hk] at this <;> simp at this
  | cons sign x more =>
    cases m' with
    | nil =>
      have := hs'.1
      simp only [Terms.tokens, List.nil_append, List.cons_append] at h
      rw [← h, leads_cons] at this
      rcases sign.2 with hk | hk <;> rw [hk] at this <;> simp at this
    | cons sign' x' more' =>
      simp only [Terms.tokens, List.cons_append, List.append_assoc, List.cons.injEq] at h
      obtain ⟨rfl, hmore⟩ := Operand.eq_of_append x x' _ _ h.2 (Operand.stops_terms hs.2)
        (Operand.stops_terms hs'.2)
      obtain ⟨rfl, rfl⟩ := Terms.eq_of_append more more' x.endsInName rest rest' hmore hs hs'
      exact ⟨by rw [Subtype.ext h.1], rfl⟩
termination_by structural m

/-- A call is determined by its tokens, whatever follows them. -/
theorem Call.eq_of_append (c c' : Call) (rest rest' : List Token)
    (h : c.tokens ++ rest = c'.tokens ++ rest') : c = c' ∧ rest = rest' := by
  obtain ⟨name, opening, args, closing⟩ := c
  obtain ⟨name', opening', args', closing'⟩ := c'
  simp only [Call.tokens, List.cons_append, List.append_assoc, List.nil_append,
    List.cons.injEq] at h
  obtain ⟨rfl, hclosing, rfl⟩ := Arguments.eq_of_append args args' closing closing' _ _ h.2.2
  exact ⟨by rw [Subtype.ext h.1, Subtype.ext h.2.1, hclosing], rfl⟩
termination_by structural c

/-- Arguments are determined by their tokens up to the closing parenthesis. -/
theorem Arguments.eq_of_append (a a' : Arguments) (closing closing' : TokenOf .rparen)
    (rest rest' : List Token)
    (h : a.tokens ++ closing.1 :: rest = a'.tokens ++ closing'.1 :: rest') :
    a = a' ∧ closing = closing' ∧ rest = rest' := by
  cases a with
  | none =>
    cases a' with
    | none =>
      simp only [Arguments.tokens, List.nil_append, List.cons.injEq] at h
      exact ⟨rfl, Subtype.ext h.1, h.2⟩
    | some e' more' =>
      have hlead := e'.leads_tokens (more'.tokens ++ closing'.1 :: rest')
      simp only [Arguments.tokens, List.nil_append, List.append_assoc] at h
      rw [← h, leads_cons, closing.2] at hlead
      simp [operandKinds] at hlead
  | some e more =>
    cases a' with
    | none =>
      have hlead := e.leads_tokens (more.tokens ++ closing.1 :: rest)
      simp only [Arguments.tokens, List.nil_append, List.append_assoc] at h
      rw [h, leads_cons, closing'.2] at hlead
      simp [operandKinds] at hlead
    | some e' more' =>
      simp only [Arguments.tokens, List.append_assoc] at h
      obtain ⟨rfl, hmore⟩ := Expression.eq_of_append e e' _ _ h
        (MoreArguments.stops e more closing rest) (MoreArguments.stops e' more' closing' rest')
      obtain ⟨rfl, hclosing, hrest⟩ :=
        MoreArguments.eq_of_append more more' closing closing' _ _ hmore
      exact ⟨rfl, hclosing, hrest⟩
termination_by structural a

/-- Further arguments are determined by their tokens up to the closing parenthesis. -/
theorem MoreArguments.eq_of_append (m m' : MoreArguments) (closing closing' : TokenOf .rparen)
    (rest rest' : List Token)
    (h : m.tokens ++ closing.1 :: rest = m'.tokens ++ closing'.1 :: rest') :
    m = m' ∧ closing = closing' ∧ rest = rest' := by
  cases m with
  | nil =>
    cases m' with
    | nil =>
      simp only [MoreArguments.tokens, List.nil_append, List.cons.injEq] at h
      exact ⟨rfl, Subtype.ext h.1, h.2⟩
    | cons comma e more =>
      simp only [MoreArguments.tokens, List.nil_append, List.cons_append, List.cons.injEq] at h
      have := closing.2
      rw [h.1, comma.2] at this
      cases this
  | cons comma e more =>
    cases m' with
    | nil =>
      simp only [MoreArguments.tokens, List.nil_append, List.cons_append, List.cons.injEq] at h
      have := closing'.2
      rw [← h.1, comma.2] at this
      cases this
    | cons comma' e' more' =>
      simp only [MoreArguments.tokens, List.cons_append, List.append_assoc, List.cons.injEq] at h
      obtain ⟨rfl, hmore⟩ := Expression.eq_of_append e e' _ _ h.2
        (MoreArguments.stops e more closing rest) (MoreArguments.stops e' more' closing' rest')
      obtain ⟨rfl, hclosing, hrest⟩ :=
        MoreArguments.eq_of_append more more' closing closing' _ _ hmore
      exact ⟨by rw [Subtype.ext h.1], hclosing, hrest⟩
termination_by structural m

end

/-! ## larger parts -/

/-- Parts in a row are determined by their tokens, if each is and no part starts where
they stop. -/
theorem flatMap_inj {δ : Type} {f : δ → List Token} {starts : List Kind}
    (hstarts : ∀ k ∈ starts, k ∉ [Kind.plus, .minus, .lparen])
    (hlead : ∀ d rest, leads starts (f d ++ rest) = true)
    (hinj : ∀ d d' r r', f d ++ r = f d' ++ r' → Ends r → Ends r' → d = d' ∧ r = r')
    {rest rest' : List Token} (hr : Ends rest) (hr' : Ends rest')
    (hn : leads starts rest = false) (hn' : leads starts rest' = false) (ds ds' : List δ)
    (h : ds.flatMap f ++ rest = ds'.flatMap f ++ rest') : ds = ds' ∧ rest = rest' := by
  induction ds generalizing ds' with
  | nil =>
    cases ds' with
    | nil => exact ⟨rfl, h⟩
    | cons d' ds' =>
      rw [List.flatMap_nil, List.nil_append, List.flatMap_cons, List.append_assoc] at h
      rw [h, hlead] at hn
      cases hn
  | cons d ds ih =>
    cases ds' with
    | nil =>
      rw [List.flatMap_nil, List.nil_append, List.flatMap_cons, List.append_assoc] at h
      rw [← h, hlead] at hn'
      cases hn'
    | cons d' ds' =>
      rw [List.flatMap_cons, List.flatMap_cons, List.append_assoc, List.append_assoc] at h
      obtain ⟨rfl, htail⟩ := hinj d d' _ _ h (leads_flatMap_eq_false hlead hstarts hr ds)
        (leads_flatMap_eq_false hlead hstarts hr' ds')
      obtain ⟨rfl, hrest⟩ := ih ds' htail
      exact ⟨rfl, hrest⟩

theorem Version.eq_of_append {v w : Version} {rest rest' : List Token}
    (h : v.tokens ++ rest = w.tokens ++ rest') : v = w ∧ rest = rest' := by
  obtain ⟨word, text⟩ := v
  obtain ⟨word', text'⟩ := w
  simp only [Version.tokens, List.cons_append, List.nil_append, List.cons.injEq] at h
  exact ⟨by rw [Subtype.ext h.1, Subtype.ext h.2.1], h.2.2⟩

theorem Import.eq_of_append {i j : Import} {rest rest' : List Token}
    (h : i.tokens ++ rest = j.tokens ++ rest') : i = j ∧ rest = rest' := by
  obtain ⟨word, name, semi⟩ := i
  obtain ⟨word', name', semi'⟩ := j
  simp only [Import.tokens, List.cons_append, List.nil_append, List.cons.injEq] at h
  exact ⟨by rw [Subtype.ext h.1, Subtype.ext h.2.1, Subtype.ext h.2.2.1], h.2.2.2⟩

theorem Let.eq_of_append {l m : Let} {rest rest' : List Token}
    (h : l.tokens ++ rest = m.tokens ++ rest') (hr : Ends rest) (hr' : Ends rest') :
    l = m ∧ rest = rest' := by
  obtain ⟨word, name, assign, value⟩ := l
  obtain ⟨word', name', assign', value'⟩ := m
  simp only [Let.tokens, List.cons_append, List.cons.injEq] at h
  obtain ⟨rfl, hrest⟩ := Expression.eq_of_append value value' _ _ h.2.2.2
    (value.stops_of_ends hr) (value'.stops_of_ends hr')
  exact ⟨by rw [Subtype.ext h.1, Subtype.ext h.2.1, Subtype.ext h.2.2.1], hrest⟩

/-- The value of a return is determined by its tokens up to the semicolon. -/
theorem value_eq_of_append {v w : Option Expression} {semi semi' : TokenOf .semi}
    {rest rest' : List Token}
    (h : (v.map Expression.tokens).getD [] ++ semi.1 :: rest =
      (w.map Expression.tokens).getD [] ++ semi'.1 :: rest') :
    v = w ∧ semi = semi' ∧ rest = rest' := by
  cases v with
  | none =>
    cases w with
    | none =>
      simp only [Option.map_none, Option.getD_none, List.nil_append, List.cons.injEq] at h
      exact ⟨rfl, Subtype.ext h.1, h.2⟩
    | some e =>
      have hlead := e.leads_tokens (semi'.1 :: rest')
      simp only [Option.map_none, Option.map_some, Option.getD_none, Option.getD_some,
        List.nil_append] at h
      rw [← h, leads_cons, semi.2] at hlead
      simp [operandKinds] at hlead
  | some e =>
    cases w with
    | none =>
      have hlead := e.leads_tokens (semi.1 :: rest)
      simp only [Option.map_none, Option.map_some, Option.getD_none, Option.getD_some,
        List.nil_append] at h
      rw [h, leads_cons, semi'.2] at hlead
      simp [operandKinds] at hlead
    | some e' =>
      simp only [Option.map_some, Option.getD_some] at h
      obtain ⟨rfl, htail⟩ := Expression.eq_of_append e e' _ _ h (e.stops_semi semi rest)
        (e'.stops_semi semi' rest')
      rw [List.cons.injEq] at htail
      exact ⟨rfl, Subtype.ext htail.1, htail.2⟩

theorem Statement.eq_of_append {s s' : Statement} {rest rest' : List Token}
    (h : s.tokens ++ rest = s'.tokens ++ rest') (hr : Ends rest) (hr' : Ends rest') :
    s = s' ∧ rest = rest' := by
  have hkind : s.kind = s'.kind := by
    have := congrArg (leads [s'.kind]) h
    simpa using this
  cases s with
  | ret word value semi =>
    cases s' <;> simp only [Statement.kind, reduceCtorEq] at hkind
    next word' value' semi' =>
      simp only [Statement.tokens, List.cons_append, List.append_assoc, List.nil_append,
        List.cons.injEq] at h
      obtain ⟨rfl, rfl, hrest⟩ := value_eq_of_append h.2
      exact ⟨by rw [Subtype.ext h.1], hrest⟩
  | letIn l =>
    cases s' <;> simp only [Statement.kind, reduceCtorEq] at hkind
    next l' =>
      obtain ⟨rfl, hrest⟩ := Let.eq_of_append h hr hr'
      exact ⟨rfl, hrest⟩
  | call c semi =>
    cases s' <;> simp only [Statement.kind, reduceCtorEq] at hkind
    next c' semi' =>
      simp only [Statement.tokens, List.append_assoc] at h
      obtain ⟨rfl, htail⟩ := Call.eq_of_append c c' _ _ h
      simp only [List.cons_append, List.nil_append, List.cons.injEq] at htail
      exact ⟨by rw [Subtype.ext htail.1], htail.2⟩

theorem Parameter.eq_of_append {p q : Parameter} {rest rest' : List Token}
    (h : p.tokens ++ rest = q.tokens ++ rest') : p = q ∧ rest = rest' := by
  obtain ⟨type, name⟩ := p
  obtain ⟨type', name'⟩ := q
  simp only [Parameter.tokens, List.cons_append, List.nil_append, List.cons.injEq] at h
  exact ⟨by rw [Subtype.ext h.1, Subtype.ext h.2.1], h.2.2⟩

/-- Parameters behind the first are determined by their tokens up to the closing
parenthesis. -/
theorem moreParams_eq_of_append {ps qs : List (TokenOf .comma × Parameter)}
    {closing closing' : TokenOf .rparen} {rest rest' : List Token}
    (h : ps.flatMap (fun (comma, p) => comma.1 :: p.tokens) ++ closing.1 :: rest =
      qs.flatMap (fun (comma, p) => comma.1 :: p.tokens) ++ closing'.1 :: rest') :
    ps = qs ∧ closing.1 :: rest = closing'.1 :: rest' := by
  refine @flatMap_inj _ _ [.comma] (by decide) ?_ ?_ _ _ ?_ ?_ ?_ ?_ ps qs h
  · intro (comma, p) r
    simp [comma.2]
  · intro (comma, p) (comma', p') r r' hd _ _
    simp only [List.cons_append, List.cons.injEq] at hd
    obtain ⟨rfl, hr⟩ := Parameter.eq_of_append hd.2
    exact ⟨by rw [Subtype.ext hd.1], hr⟩
  all_goals simp [Ends, closing.2, closing'.2]

/-- Parameters are determined by their tokens up to the closing parenthesis. -/
theorem params_eq_of_append {ps qs : Option (Parameter × List (TokenOf .comma × Parameter))}
    {closing closing' : TokenOf .rparen} {rest rest' : List Token}
    (h : paramsTokens ps ++ closing.1 :: rest = paramsTokens qs ++ closing'.1 :: rest') :
    ps = qs ∧ closing = closing' ∧ rest = rest' := by
  -- the first token tells a parameter from a closing parenthesis
  have hne : ∀ (p : Parameter) (c : TokenOf .rparen) (r r' : List Token),
      c.1 :: r ≠ p.tokens ++ r' := by
    intro p c r r' hc
    simp only [Parameter.tokens, List.cons_append, List.cons.injEq] at hc
    have := c.2
    rw [hc.1, p.type.2] at this
    cases this
  match ps, qs with
  | none, none =>
    simp only [paramsTokens, List.nil_append, List.cons.injEq] at h
    exact ⟨rfl, Subtype.ext h.1, h.2⟩
  | none, some (q, qs) =>
    simp only [paramsTokens, List.nil_append, List.append_assoc] at h
    exact absurd h (hne q closing _ _)
  | some (p, ps), none =>
    simp only [paramsTokens, List.nil_append, List.append_assoc] at h
    exact absurd h.symm (hne p closing' _ _)
  | some (p, ps), some (q, qs) =>
    simp only [paramsTokens, List.append_assoc] at h
    obtain ⟨rfl, htail⟩ := Parameter.eq_of_append h
    obtain ⟨rfl, hrest⟩ := moreParams_eq_of_append htail
    rw [List.cons.injEq] at hrest
    exact ⟨rfl, Subtype.ext hrest.1, hrest.2⟩

theorem Header.eq_of_append {g h : Header} {rest rest' : List Token}
    (heq : g.tokens ++ rest = h.tokens ++ rest') : g = h ∧ rest = rest' := by
  obtain ⟨ret, name, opening, params, closing, brace⟩ := g
  obtain ⟨ret', name', opening', params', closing', brace'⟩ := h
  simp only [Header.tokens, List.cons_append, List.append_assoc, List.nil_append,
    List.cons.injEq] at heq
  obtain ⟨hret, hname, hopening, hparams⟩ := heq
  obtain ⟨rfl, rfl, htail⟩ := params_eq_of_append hparams
  rw [List.cons.injEq] at htail
  exact ⟨by rw [Subtype.ext hret, Subtype.ext hname, Subtype.ext hopening,
    Subtype.ext htail.1], htail.2⟩

/-- A body is determined by its tokens up to the closing brace. -/
theorem body_eq_of_append {ss ss' : List Statement} {brace brace' : TokenOf .rbrace}
    {rest rest' : List Token}
    (h : ss.flatMap Statement.tokens ++ brace.1 :: rest =
      ss'.flatMap Statement.tokens ++ brace'.1 :: rest') :
    ss = ss' ∧ brace.1 :: rest = brace'.1 :: rest' := by
  refine @flatMap_inj _ _ [.returnWord, .letWord, .ident] (by decide) ?_ ?_ _ _ ?_ ?_ ?_ ?_ ss ss' h
  · intro s r
    rw [Statement.leads_tokens]
    cases s <;> rfl
  · intro s s' r r' hs hr hr'
    exact Statement.eq_of_append hs hr hr'
  all_goals simp [Ends, brace.2, brace'.2]

theorem Function.eq_of_append {f g : Function} {rest rest' : List Token}
    (h : f.tokens ++ rest = g.tokens ++ rest') : f = g ∧ rest = rest' := by
  obtain ⟨header, body, brace⟩ := f
  obtain ⟨header', body', brace'⟩ := g
  simp only [Function.tokens, List.append_assoc, List.cons_append, List.nil_append] at h
  obtain ⟨rfl, hbody⟩ := Header.eq_of_append h
  obtain ⟨rfl, hrest⟩ := body_eq_of_append hbody
  rw [List.cons.injEq] at hrest
  exact ⟨by rw [Subtype.ext hrest.1], hrest.2⟩

/-- A program has one derivation at most. -/
theorem Program.eq_of_tokens {p q : Program} (h : p.tokens = q.tokens) : p = q := by
  obtain ⟨version, imports, lets, functions⟩ := p
  obtain ⟨version', imports', lets', functions'⟩ := q
  simp only [Program.tokens] at h
  have hversion : version = version' ∧ imports.flatMap Import.tokens ++
        (lets.flatMap Let.tokens ++ functions.flatMap Function.tokens) =
      imports'.flatMap Import.tokens ++
        (lets'.flatMap Let.tokens ++ functions'.flatMap Function.tokens) := by
    have hno := @leads_imports [.version] (by decide)
    cases version with
    | none =>
      cases version' with
      | none => exact ⟨rfl, h⟩
      | some w =>
        have := congrArg (leads [.version]) h
        simp [hno] at this
    | some v =>
      cases version' with
      | none =>
        have := congrArg (leads [.version]) h
        simp [hno] at this
      | some w =>
        obtain ⟨rfl, hrest⟩ := Version.eq_of_append h
        exact ⟨rfl, hrest⟩
  obtain ⟨rfl, himports⟩ := hversion
  obtain ⟨rfl, hlets⟩ := @flatMap_inj _ _ [.importWord] (by decide) (by simp)
    (fun _ _ _ _ h _ _ => Import.eq_of_append h) _ _ (leads_lets (by decide) lets functions)
    (leads_lets (by decide) lets' functions') (leads_lets (by decide) lets functions)
    (leads_lets (by decide) lets' functions') imports imports' himports
  obtain ⟨rfl, hfunctions⟩ := @flatMap_inj _ _ [.letWord] (by decide) (by simp)
    (fun _ _ _ _ => Let.eq_of_append) _ _ (leads_functions (by decide) functions)
    (leads_functions (by decide) functions') (leads_functions (by decide) functions)
    (leads_functions (by decide) functions') lets lets' hlets
  obtain ⟨rfl, -⟩ := flatMap_inj (by decide) Function.leads_tokens
    (fun _ _ _ _ h _ _ => Function.eq_of_append h) (leads_nil _ : Ends []) (leads_nil _ : Ends [])
    (leads_nil _) (leads_nil _) functions functions' (by rw [hfunctions])
  rfl

end LetCall.Grammar
