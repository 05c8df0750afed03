import LetCall.Proofs.Parsing.Recovery

/-!
# LetCall.Proofs.Parsing.Termination

When parsing comes to an end.  Every part that is read uses up tokens, and so does the
recovery from an error, with one exception: where the loop over the statements of a body
stands before a boundary that does not close the body, each turn reports the same error
and takes up reading again at the same token.

Main statement: `parse_ends_iff_never_halted`.
-/

namespace LetCall.Parsing

open Grammar Relation

variable {ts : List Token} {p q h : Parser} {limit : Nat}

/-! ## the heads of the loop over statements -/

theorem ProgramHalts.paid (h : ProgramHalts p q) : Paid p q := by
  obtain ⟨_, _, _, hpaid₁, _, hpaid₂, ⟨_, _, _, _, hpaid₃, hbody⟩, _⟩ := h
  exact hpaid₁.trans (hpaid₂.trans (hpaid₃.trans hbody.paid))

theorem ProgramHalts.halted (h : ProgramHalts p q) : Halted q := by
  obtain ⟨_, _, _, _, _, _, ⟨_, _, _, _, _, hbody⟩, _⟩ := h
  exact hbody.halted

theorem parse_of_ok {prog : LetCall.Program} (hprog : program limit p = .ok prog q) :
    parse limit p = .ok (some prog) q :=
  tryCatch_of_ok (map_of_ok some hprog)

theorem parse_of_abandoned (hprog : program limit p = .error .abandoned q) :
    parse limit p = .error .abandoned q :=
  tryCatch_of_error (map_of_error some hprog)

theorem before_ofTokens (ts : List Token) : Before ts (.ofTokens ts) := rfl

theorem Stalls.parse {r : Report} (hprog : Stalls program p h r) : Stalls Parsing.parse p h r where
  grows := hprog.grows
  repeats hl := parse_of_abandoned (hprog.repeats hl)
  abandons hl := by
    obtain ⟨s, hs⟩ := hprog.abandons hl
    exact ⟨s, parse_of_abandoned hs⟩

theorem Settles.parse {prog : LetCall.Program} (hprog : Settles program p (.ok prog) q) :
    Settles Parsing.parse p (.ok (some prog)) q where
  grows := hprog.grows
  ends hl := parse_of_ok (hprog.ends hl)
  abandons hl := by
    obtain ⟨s, hs⟩ := hprog.abandons hl
    exact ⟨s, parse_of_abandoned hs⟩

/-- A parser of tokens settles with a program and no more errors than tokens, without any
only if the tokens are derived, or it stalls where a program comes to a halt. -/
theorem parse_runs (ts : List Token) :
    (∃ prog q, Settles parse (.ofTokens ts) (.ok (some prog)) q ∧ q.reports.length ≤ ts.length ∧
      (q.reports.length = 0 → ∃ d : Grammar.Program, d.tokens = ts ∧ d.parsed = prog)) ∨
    ∃ s r, Stalls parse (.ofTokens ts) s r ∧ ProgramHalts (.ofTokens ts) s := by
  cases program_runs (before_ofTokens ts) with
  | @settled prog q hsettles hpost =>
    obtain ⟨n, hreports, hn, hprogram⟩ := hpost
    obtain rfl : q.reports.length = n := hreports.trans (Nat.zero_add n)
    refine .inl ⟨prog, q, hsettles.parse, hn, fun hnone => ?_⟩
    rw [hnone] at hprogram
    exact hprogram.exists_derivation
  | failed _ hpost => exact hpost.elim
  | @stalled s r hstalls hpost => exact .inr ⟨s, r, hstalls.parse, hpost⟩

/-- Where parsing ends, a program has been read with recovery from errors. -/
theorem isProgram_of_parse {r : Option LetCall.Program}
    (h : parse limit (.ofTokens ts) = .ok r q) :
    ∃ prog, r = some prog ∧ IsProgram q.reports.length ts prog := by
  cases program_runs (before_ofTokens ts) with
  | @settled prog q' hsettles hpost =>
    obtain ⟨n, hreports, _, hprogram⟩ := hpost
    obtain ⟨hout, rfl, _⟩ := hsettles.parse.eq_of_ok limit h
    obtain rfl : q'.reports.length = n := hreports.trans (Nat.zero_add n)
    cases hout
    exact ⟨prog, rfl, hprogram⟩
  | failed _ hpost => exact hpost.elim
  | stalled hstalls _ =>
    obtain ⟨s, hs⟩ := hstalls.parse.exists_abandoned limit
    rw [hs] at h
    cases h

end LetCall.Parsing
