import LetCall.Proofs.Moments
import LetCall.Proofs.Parsing.Acceptance

/-!
# LetCall.Proofs.Source.FallThrough

Functions that end without a return.  What such a function gives depends on the word that its
return type is kept as: zero for `int`, nothing for every other word (`callFunction_of_no_return`).
The parser keeps the name of a kind of tokens, and none of these is `int`.

Main statement: in a program that has been parsed without an error, a function without a return
gives nothing, whether it is declared to return an integer or not (`fallen_through_gives_nothing`).
-/

namespace LetCall

namespace Run

variable {p : Program}

/-- What a function gives that ends without a return. -/
def fallThrough (ret : String) : Value := if ret = "int" then .int 0 else .null

/-- A body without a return is its statements one after the other. -/
theorem body_of_no_return (ret : String) {ns : List Node}
    (hns : ∀ n ∈ ns, n.isReturn = false) :
    body p ret ns = do executeAll p ns; return fallThrough ret := by
  induction ns with
  | nil => rfl
  | cons n ns ih =>
    rw [List.forall_mem_cons] at hns
    rw [body_cons, ih hns.2]
    simp [hns.1, executeAll]

/-- A function without a return ends if its statements can be executed in a frame of its own. -/
theorem callFunction_of_no_return {f : FunctionDef} (hbody : ∀ n ∈ f.body, n.isReturn = false)
    {args : List Value} (hcount : args.length = f.params.length) {m m' : Machine} {v : Value} :
    callFunction p f args m = .ok v m' ↔
      v = fallThrough f.ret ∧ m.stack.length < m.maxDepth ∧
        ∃ m₁, executeAll p f.body (m.push (frameOf f args)) = .ok () m₁ ∧ m₁.pop = m' := by
  constructor
  · intro h
    by_cases hdepth : m.maxDepth ≤ m.stack.length
    · rw [callFunction_eq, if_pos hdepth] at h
      cases h
    · rw [callFunction_of_enterable p hdepth hcount, inFrame_eq_ok_iff] at h
      obtain ⟨m₁, h, hpop⟩ := h
      rw [inContext_eq_ok_iff, body_of_no_return f.ret hbody, bind_eq_ok_iff] at h
      obtain ⟨⟨⟩, m₂, hexecuted, h⟩ := h
      cases h
      exact ⟨rfl, Int.not_le.mp hdepth, m₁, hexecuted, hpop⟩
  · rintro ⟨rfl, hdepth, m₁, hexecuted, rfl⟩
    rw [callFunction_of_enterable p (Int.not_le.mpr hdepth) hcount, inFrame_eq_ok_iff]
    refine ⟨m₁, ?_, rfl⟩
    rw [inContext_eq_ok_iff, body_of_no_return f.ret hbody, bind_of_ok hexecuted]
    rfl

end Run

open Grammar Parsing Run

/-- The word that a parsed function keeps for its return type is not `int`. -/
theorem Grammar.Function.fallThrough_ret (f : Grammar.Function) :
    fallThrough f.parsed.ret = .null := by
  have hret : f.parsed.ret = f.header.ret.1.kind.name := rfl
  rw [hret]
  rcases f.header.ret.2 with hkind | hkind <;> rw [hkind] <;> rfl

/-- **Falling off the end of a function.**  Take tokens that are parsed without an error: they
are derived as a program, in which every function is declared with an integer or a void token.
A function without a return ends just if the frames allow one more and its statements can be
executed in it, and then it gives nothing, with either token. -/
theorem fallen_through_gives_nothing {tokens : List Token} {limit : Nat}
    {r : Option LetCall.Program} {q : Parser} (hparse : parse limit (.ofTokens tokens) = .ok r q)
    (hreports : q.reports = []) :
    ∃ d : Grammar.Program, d.tokens = tokens ∧ r = some d.parsed ∧
      ∀ f ∈ d.functions, (f.header.ret.1.kind = .int ∨ f.header.ret.1.kind = .void) ∧
        ((∀ n ∈ f.parsed.body, n.isReturn = false) →
          ∀ args, args.length = f.parsed.params.length → ∀ m v m',
            callFunction d.parsed f.parsed args m = .ok v m' ↔
              v = .null ∧ m.stack.length < m.maxDepth ∧
                ∃ m₁, executeAll d.parsed f.parsed.body (m.push (frameOf f.parsed args)) =
                  .ok () m₁ ∧ m₁.pop = m') := by
  obtain ⟨prog, rfl, hprogram⟩ := isProgram_of_parse hparse
  rw [hreports] at hprogram
  obtain ⟨d, hd, rfl⟩ := hprogram.exists_derivation
  refine ⟨d, hd, rfl, fun f _ => ⟨f.header.ret.2, fun hbody args hcount m v m' => ?_⟩⟩
  rw [callFunction_of_no_return hbody hcount, f.fallThrough_ret]

/-- The derivation of a function without statements that is declared to return an integer. -/
def idle : Grammar.Function :=
  ⟨⟨⟨⟨.int, "int", 2, 3⟩, .inl rfl⟩, ⟨⟨.ident, "f", 2, 7⟩, rfl, by decide⟩,
    ⟨⟨.lparen, "(", 2, 8⟩, rfl⟩, none, ⟨⟨.rparen, ")", 2, 9⟩, rfl⟩,
    ⟨⟨.lbrace, "\x7b", 2, 11⟩, rfl⟩⟩, [], ⟨⟨.rbrace, "\x7d", 2, 13⟩, rfl⟩⟩

/-- It gives nothing. -/
theorem idle_gives_nothing :
    ∃ q, parse reportLimit (.ofTokens idle.tokens) = .ok (some { functions := [idle.parsed] }) q ∧
      q.reports = [] ∧ idle.header.ret.1.kind = .int ∧
      callFunction { functions := [idle.parsed] } idle.parsed [] {} = .ok .null {} :=
  ⟨_, rfl, rfl, rfl, rfl⟩

/-- It does so in every machine that allows one more frame. -/
theorem idle_falls_through :
    let d : Grammar.Program := ⟨none, [], [], [idle]⟩
    ∃ q, parse reportLimit (.ofTokens d.tokens) = .ok (some d.parsed) q ∧ q.reports = [] ∧
      ∀ m : Machine, m.stack.length < m.maxDepth →
        callFunction d.parsed idle.parsed [] m = .ok .null m := by
  intro d
  have hparse := parse_derived reportLimit d
  obtain ⟨d', htokens, _, hlaw⟩ := fallen_through_gives_nothing hparse rfl
  obtain rfl : d' = d := Program.eq_of_tokens htokens
  refine ⟨_, hparse, rfl, fun m hdepth => ?_⟩
  obtain ⟨_, hends⟩ := hlaw idle List.mem_cons_self
  have hbody : ∀ n ∈ idle.parsed.body, n.isReturn = false := by
    simp [idle, Function.parsed, Header.withBody]
  exact (hends hbody [] rfl m .null m).mpr ⟨rfl, hdepth, _, rfl, rfl⟩

end LetCall
