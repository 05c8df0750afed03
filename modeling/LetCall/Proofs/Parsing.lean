import LetCall.Proofs.Reading

/-!
# LetCall.Proofs.Parsing

How the steps of a parser end, under every limit on the reports at once.  The limit is
asked for in one place only, where an error is reported, so a step that depends on it ends
in one of two ways.  It `Settles`: under every limit that allows for its reports it ends
in the same way and the same state, and under any other it is abandoned.  Or it `Stalls`:
it comes to a state from which it reports one and the same error until the limit is
reached, whatever the limit.

Main statements: both are passed along `>>=`, `attempt` and `within`.
-/

namespace LetCall.Parsing

variable {α β : Type}

/-! ## settling and stalling -/

/-- The end of a step that is not abandoned: a value or a syntax error. -/
def ended : Except SyntaxError α → Parser → EStateM.Result Halt Parser α
  | .ok a, q => .ok a q
  | .error e, q => .error (.failure (.syntaxError e)) q

/-- A limit allows for the reports between two states. -/
def Allows (limit : Nat) (p q : Parser) : Prop :=
  q.reports.length = p.reports.length ∨ q.reports.length < limit

theorem allows_trans {limit : Nat} {p q r : Parser} (hpq : p.reports.length ≤ q.reports.length)
    (hqr : q.reports.length ≤ r.reports.length) :
    Allows limit p r ↔ Allows limit p q ∧ Allows limit q r := by
  unfold Allows
  omega

/-- Under every limit that allows for its reports a step ends in the same way, and under
any other it is abandoned. -/
structure Settles (x : Nat → Parsing α) (p : Parser) (out : Except SyntaxError α) (q : Parser) :
    Prop where
  grows : p.reports.length ≤ q.reports.length
  ends : ∀ {limit}, Allows limit p q → x limit p = ended out q
  abandons : ∀ {limit}, ¬ Allows limit p q → ∃ r, x limit p = .error .abandoned r

/-- The state in which a parser is abandoned that has come to the state `h` and reports
nothing but `r` from there on. -/
def repeating (h : Parser) (r : Report) (limit : Nat) : Parser :=
  ⟨h.cursor, h.reports ++ List.replicate (limit - h.reports.length) r, true⟩

/-- A step comes to the state `h`, and from there on it reports `r` again and again and
reads nothing more, up to any limit. -/
structure Stalls (x : Nat → Parsing α) (p h : Parser) (r : Report) : Prop where
  grows : p.reports.length ≤ h.reports.length
  repeats : ∀ {limit}, h.reports.length < limit →
    x limit p = .error .abandoned (repeating h r limit)
  abandons : ∀ {limit}, limit ≤ h.reports.length → ∃ q, x limit p = .error .abandoned q

/-- A step that stalls has no end under any limit. -/
theorem Stalls.exists_abandoned {x : Nat → Parsing α} {p h : Parser} {r : Report}
    (hx : Stalls x p h r) (limit : Nat) : ∃ q, x limit p = .error .abandoned q := by
  by_cases hl : h.reports.length < limit
  · exact ⟨_, hx.repeats hl⟩
  · exact hx.abandons (Nat.le_of_not_lt hl)

/-- A step that has come to an end under one limit settles, if it does not stall. -/
theorem Settles.eq_of_ok {x : Nat → Parsing α} {p q q' : Parser} {out : Except SyntaxError α}
    {a : α} (hx : Settles x p out q) (limit : Nat) (h : x limit p = .ok a q') :
    out = .ok a ∧ q = q' ∧ Allows limit p q := by
  by_cases hl : Allows limit p q
  · rw [hx.ends hl] at h
    cases out with
    | ok b =>
      cases h
      exact ⟨rfl, rfl, hl⟩
    | error e => cases h
  · obtain ⟨r, hr⟩ := hx.abandons hl
    rw [hr] at h
    cases h

/-! ## steps in a row -/

section Bind

variable {x y : Nat → Parsing α} {f : Nat → α → Parsing β} {p q h : Parser} {a : α}

theorem Settles.congr {out : Except SyntaxError α} (hxy : ∀ limit, x limit p = y limit p)
    (hy : Settles y p out q) : Settles x p out q where
  grows := hy.grows
  ends hl := by rw [hxy, hy.ends hl]
  abandons hl := by
    rw [hxy]
    exact hy.abandons hl

theorem Stalls.congr {r : Report} (hxy : ∀ limit, x limit p = y limit p) (hy : Stalls y p h r) :
    Stalls x p h r where
  grows := hy.grows
  repeats hl := by rw [hxy, hy.repeats hl]
  abandons hl := by
    rw [hxy]
    exact hy.abandons hl

/-- A step that asks for no limit settles without a report. -/
theorem Settles.of_eq {x : Parsing α} {out : Except SyntaxError α} (hx : x p = ended out q)
    (hreports : q.reports = p.reports) : Settles (fun _ => x) p out q where
  grows := hreports ▸ Nat.le_refl _
  ends _ := hx
  abandons hl := (hl (.inl (by rw [hreports]))).elim

theorem Settles.bind {out : Except SyntaxError β} {r : Parser} (hx : Settles x p (.ok a) q)
    (hf : Settles (fun limit => f limit a) q out r) :
    Settles (fun limit => x limit >>= f limit) p out r where
  grows := Nat.le_trans hx.grows hf.grows
  ends hl := by
    obtain ⟨hpq, hqr⟩ := (allows_trans hx.grows hf.grows).mp hl
    rw [bind_of_ok (hx.ends hpq), hf.ends hqr]
  abandons {limit} hl := by
    by_cases hpq : Allows limit p q
    · rw [bind_of_ok (hx.ends hpq)]
      exact hf.abandons fun hqr => hl ((allows_trans hx.grows hf.grows).mpr ⟨hpq, hqr⟩)
    · obtain ⟨s, hs⟩ := hx.abandons hpq
      exact ⟨s, bind_of_error hs⟩

theorem Settles.bind_error {e : SyntaxError} (hx : Settles x p (.error e) q) :
    Settles (fun limit => x limit >>= f limit) p (.error e) q where
  grows := hx.grows
  ends hl := bind_of_error (hx.ends hl)
  abandons hl := by
    obtain ⟨s, hs⟩ := hx.abandons hl
    exact ⟨s, bind_of_error hs⟩

theorem Settles.bind_stalls {r : Report} (hx : Settles x p (.ok a) q)
    (hf : Stalls (fun limit => f limit a) q h r) :
    Stalls (fun limit => x limit >>= f limit) p h r where
  grows := Nat.le_trans hx.grows hf.grows
  repeats hl := by
    have hpq : Allows _ p q := .inr (Nat.lt_of_le_of_lt hf.grows hl)
    rw [bind_of_ok (hx.ends hpq), hf.repeats hl]
  abandons {limit} hl := by
    by_cases hpq : Allows limit p q
    · rw [bind_of_ok (hx.ends hpq)]
      exact hf.abandons hl
    · obtain ⟨s, hs⟩ := hx.abandons hpq
      exact ⟨s, bind_of_error hs⟩

theorem Stalls.bind {r : Report} (hx : Stalls x p h r) :
    Stalls (fun limit => x limit >>= f limit) p h r where
  grows := hx.grows
  repeats hl := bind_of_error (hx.repeats hl)
  abandons hl := by
    obtain ⟨s, hs⟩ := hx.abandons hl
    exact ⟨s, bind_of_error hs⟩

end Bind

/-! ## primitive steps -/

section Primitive

variable {x : Nat → Parsing α} {p q h : Parser}

theorem read_of_ok {r : Reader α} {a : α} {c : Cursor} (hr : r p.cursor = .ok a c) :
    read r p = .ok a { p with cursor := c } := by
  simp only [read, hr]

theorem read_of_syntaxError {r : Reader α} {e : SyntaxError} {c : Cursor}
    (hr : r p.cursor = .error (.syntaxError e) c) :
    read r p = .error (.failure (.syntaxError e)) { p with cursor := c } := by
  simp only [read, hr]

/-- A parser that has taken note of an error. -/
def noted (p : Parser) (r : Report) : Parser := ⟨p.cursor, p.reports ++ [r], true⟩

theorem report_eq (limit : Nat) (r : Report) (p : Parser) :
    report limit r p =
      if limit ≤ p.reports.length + 1 then .error .abandoned (noted p r)
      else .ok () (noted p r) := by
  show (if limit ≤ (p.reports ++ [r]).length then throw Halt.abandoned else pure () :
    Parsing Unit) (noted p r) = _
  rw [List.length_append, List.length_singleton]
  split <;> rfl

theorem settles_report (r : Report) (p : Parser) :
    Settles (fun limit => report limit r) p (.ok ()) (noted p r) where
  grows := by simp [noted]
  ends {limit} hl := by
    have hlt : ¬ limit ≤ p.reports.length + 1 := by
      simp only [Allows, noted, List.length_append, List.length_singleton] at hl
      omega
    rw [report_eq, if_neg hlt]
    rfl
  abandons {limit} hl := by
    have hle : limit ≤ p.reports.length + 1 := by
      simp only [Allows, noted, List.length_append, List.length_singleton] at hl
      omega
    exact ⟨_, by rw [report_eq, if_pos hle]⟩

/-! ## errors caught -/

theorem attempt_of_ok {limit : Nat} {x : Parsing α} {a : α} (hx : x p = .ok a q) :
    attempt limit x p = .ok (some a) q :=
  tryCatch_of_ok (map_of_ok some hx)

theorem attempt_of_abandoned {limit : Nat} {x : Parsing α} (hx : x p = .error .abandoned q) :
    attempt limit x p = .error .abandoned q :=
  tryCatch_of_error (map_of_error some hx)

theorem attempt_of_syntaxError {limit : Nat} {x : Parsing α} {e : SyntaxError}
    (hx : x p = .error (.failure (.syntaxError e)) q) :
    attempt limit x p = (do report limit (.nested e); synchronize; return none) q :=
  tryCatch_of_error (map_of_error some hx)

theorem Settles.attempt {a : α} (hx : Settles x p (.ok a) q) :
    Settles (fun limit => Parsing.attempt limit (x limit)) p (.ok (some a)) q where
  grows := hx.grows
  ends hl := attempt_of_ok (hx.ends hl)
  abandons hl := by
    obtain ⟨s, hs⟩ := hx.abandons hl
    exact ⟨s, attempt_of_abandoned hs⟩

/-- After an error one more report is made, and reading is taken up again. -/
theorem Settles.attempt_error {e : SyntaxError} {q' : Parser} (hx : Settles x p (.error e) q)
    (hsync : synchronize (noted q (.nested e)) = .ok () q')
    (hreports : q'.reports = q.reports ++ [.nested e]) :
    Settles (fun limit => Parsing.attempt limit (x limit)) p (.ok none) q' := by
  have hrecover : Settles (fun limit => do report limit (.nested e); synchronize; return none) q
      (.ok (none : Option α)) q' := by
    refine (settles_report (.nested e) q).bind (Settles.of_eq ?_ hreports)
    rw [bind_of_ok hsync]
    rfl
  refine ⟨Nat.le_trans hx.grows hrecover.grows, ?_, ?_⟩
  · intro limit hl
    obtain ⟨hpq, hqr⟩ := (allows_trans hx.grows hrecover.grows).mp hl
    exact (attempt_of_syntaxError (hx.ends hpq)).trans (hrecover.ends hqr)
  · intro limit hl
    by_cases hpq : Allows limit p q
    · obtain ⟨s, hs⟩ := hrecover.abandons fun hqr =>
        hl ((allows_trans hx.grows hrecover.grows).mpr ⟨hpq, hqr⟩)
      exact ⟨s, (attempt_of_syntaxError (hx.ends hpq)).trans hs⟩
    · obtain ⟨s, hs⟩ := hx.abandons hpq
      exact ⟨s, attempt_of_abandoned hs⟩

theorem Stalls.attempt {r : Report} (hx : Stalls x p h r) :
    Stalls (fun limit => Parsing.attempt limit (x limit)) p h r where
  grows := hx.grows
  repeats hl := attempt_of_abandoned (hx.repeats hl)
  abandons hl := by
    obtain ⟨s, hs⟩ := hx.abandons hl
    exact ⟨s, attempt_of_abandoned hs⟩

/-- A construct changes only how a flaw ends. -/
theorem within_eq (construct : Construct) {x : Parsing α}
    (hx : ∀ f q, x p ≠ .error (.failure (.flaw f)) q) : within construct x p = x p := by
  cases h : x p with
  | ok a q => exact tryCatch_of_ok h
  | error e q =>
    refine (tryCatch_of_error h).trans ?_
    cases e with
    | abandoned => rfl
    | failure f =>
      cases f with
      | flaw f => exact (hx f q h).elim
      | syntaxError e => rfl

theorem within_of_ok (construct : Construct) {x : Parsing α} {a : α} (hx : x p = .ok a q) :
    within construct x p = .ok a q := by
  refine (within_eq construct fun f s hflaw => ?_).trans hx
  rw [hx] at hflaw
  cases hflaw

theorem Settles.within {out : Except SyntaxError α} (construct : Construct)
    (hx : Settles x p out q) :
    Settles (fun limit => Parsing.within construct (x limit)) p out q := by
  refine hx.congr fun limit => within_eq construct fun f s hs => ?_
  by_cases hl : Allows limit p q
  · rw [hx.ends hl] at hs
    cases out <;> cases hs
  · obtain ⟨s', hs'⟩ := hx.abandons hl
    rw [hs'] at hs
    cases hs

theorem Stalls.within {r : Report} (construct : Construct) (hx : Stalls x p h r) :
    Stalls (fun limit => Parsing.within construct (x limit)) p h r := by
  refine hx.congr fun limit => within_eq construct fun f s hs => ?_
  obtain ⟨s', hs'⟩ := hx.exists_abandoned limit
  rw [hs'] at hs
  cases hs

end Primitive

end LetCall.Parsing
