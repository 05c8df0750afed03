import LetCall.Proofs.Parsing.Loops
import LetCall.Proofs.Reading.Braces
import LetCall.Proofs.Reading.Sound

/-!
# LetCall.Proofs.Parsing.Recovery

What the parts of a program come to when they are read with recovery from errors.  Each
error that a part reports is paid for by a token that it has used up, with one exception:
a statement that starts at a boundary is refused without a token being used up, and
reading is taken up again at the same boundary.  So a function stalls exactly where the
loop over its statements comes to such a token.

Main statements: `statements_stall`, and for each part what it comes to (`body_runs`,
`function_runs`, `program_runs`).
-/

namespace LetCall.Parsing

open Grammar Relation

open Reader (Braceless)

variable {α : Type}

/-! ## parts and turns -/

/-- A part has been read from `p` to `q`: it has used up tokens, and each error inside it
is paid for by one of them. -/
def PartRead (P : Nat → List Token → α → Prop) (p : Parser) (a : α) (q : Parser) : Prop :=
  ∃ used n, Advance used n p q ∧ used ≠ [] ∧ n ≤ used.length ∧ P n used a

/-- A part has failed between `p` and `q`, and one error more can be paid for: by a token
already used up, or by one that is passed over next. -/
def PartFailed (p q : Parser) : Prop :=
  ∃ used n, Advance used n p q ∧
    (n < used.length ∨ n ≤ used.length ∧ ∃ t rest, Before (t :: rest) q ∧ passedOver t = true)

/-- A turn that reads a part settles and is paid for, or it stalls like the part. -/
theorem turn_of_runs {x : Nat → Parsing α} {ts : List Token} {p : Parser}
    {P : Nat → List Token → α → Prop} {stuck : Parser → Prop} (hp : Before ts p)
    (hx : Runs x p (PartRead P p) (PartFailed p) stuck) :
    (∃ found q used n, Settles (fun limit => attempt limit (x limit)) p (.ok found) q ∧
      Advance used n p q ∧ used ≠ [] ∧ n ≤ used.length ∧ Turned P n used found) ∨
    ∃ s r, Stalls (fun limit => attempt limit (x limit)) p s r ∧ stuck s := by
  have hbefore : ∀ q, PartFailed p q → ∃ ts, Before ts q := by
    rintro q ⟨used, n, hadvance, _⟩
    obtain ⟨rest, _, hq⟩ := hadvance.exists_before hp
    exact ⟨rest, hq⟩
  cases hx.attempt hbefore with
  | @settled found q h hpost =>
    left
    rcases hpost with ⟨a, rfl, used, n, hadvance, hused, hn, ha⟩ |
      ⟨rfl, q₀, ts₀, ⟨used, n, hadvance, hpaid⟩, hq₀, hskip⟩
    · exact ⟨some a, q, used, n, h, hadvance, hused, hn, ha⟩
    · have hlen : n + 1 ≤ (used ++ ts₀.takeWhile passedOver).length := by
        rw [List.length_append]
        rcases hpaid with hlt | ⟨hle, t, rest, ht, hover⟩
        · omega
        · obtain rfl := hq₀.unique ht
          rw [List.takeWhile_cons_of_pos hover, List.length_cons]
          omega
      have hused : used ++ ts₀.takeWhile passedOver ≠ [] := by
        intro hnil
        rw [hnil] at hlen
        simp at hlen
      exact ⟨none, q, _, n + 1, h, hadvance.trans hskip, hused, hlen, Nat.succ_pos n⟩
  | failed _ hpost => exact hpost.elim
  | @stalled s r h hs => exact .inr ⟨s, r, h, hs⟩

/-- A part without errors inside it. -/
def Clean (Q : List Token → α → Prop) (n : Nat) (used : List Token) (a : α) : Prop :=
  n = 0 ∧ Q used a

section ReaderParts

variable {r : Reader α} {Q : List Token → α → Prop} {err : List Token → Prop} {ts : List Token}
  {p : Parser}

/-- A reader as a part: where it fails without using up a token, the next token has to be
one that is passed over. -/
theorem read_runs (hr : Reader.Reads r ts (fun used a _ => Q used a) err)
    (hQ : ∀ used a, Q used a → used ≠ [])
    (herr : err [] → ts ≠ [] ∧ leads Reader.boundaries ts = false) (hp : Before ts p) :
    Runs (fun _ => read r) p (PartRead (Clean Q) p) (PartFailed p) (fun _ => False) := by
  refine (Runs.read hr hp).mono ?_ ?_ (fun _ h => h)
  · rintro a q ⟨used, rest, hadvance, _, ha⟩
    exact ⟨used, 0, hadvance, hQ used a ha, Nat.zero_le _, rfl, ha⟩
  · rintro q ⟨used, hadvance, he⟩
    refine ⟨used, 0, hadvance, ?_⟩
    cases used with
    | cons t used => exact .inl (Nat.succ_pos _)
    | nil =>
      obtain ⟨_, rfl, hq⟩ := hadvance.exists_before hp
      obtain ⟨hne, hlead⟩ := herr he
      cases ts with
      | nil => exact (hne rfl).elim
      | cons t rest =>
        have hover : passedOver t = true := by
          rw [leads_cons] at hlead
          rw [passedOver, hlead]
          rfl
        exact .inr ⟨Nat.le_refl _, t, rest, hq, hover⟩

/-- Readers make up a loop: a turn that fails reports an error, any other uses up a
token. -/
theorem loop_read {more : Parsing Bool} {goesOn : List Token → Bool}
    (hmore : ∀ {ts p}, Before ts p → more p = .ok (goesOn ts) p) (hnil : goesOn [] = false)
    (hr : ∀ ts, goesOn ts = true → ∃ err, Reader.Reads r ts (fun used a _ => Q used a) err)
    (hQ : ∀ used a, Q used a → used ≠ []) : Loop more (fun _ => read r) goesOn where
  more_eq := hmore
  nil := hnil
  turn {ts p} hp hgo := by
    obtain ⟨err, hreads⟩ := hr ts hgo
    have hbefore : ∀ q, (∃ used, Advance used 0 p q ∧ err used) → ∃ ts, Before ts q := by
      rintro q ⟨used, hadvance, _⟩
      obtain ⟨rest, _, hq⟩ := hadvance.exists_before hp
      exact ⟨rest, hq⟩
    refine ((Runs.read hreads hp).attempt hbefore).mono ?_ (fun _ h => h) (fun _ _ => trivial)
    rintro found q (⟨a, _, used, rest, hadvance, _, ha⟩ |
      ⟨_, q₀, ts₀, ⟨used, hadvance, _⟩, _, hskip⟩)
    · exact ⟨used, 0, hadvance, .inl (hQ used a ha)⟩
    · exact ⟨_, 0 + 1, hadvance.trans hskip, .inr (Nat.succ_pos 0)⟩

theorem starts_before (kinds : List Kind) (hp : Before ts p) :
    starts kinds p = .ok (leads kinds ts) p := by
  have h := Reader.looksAt_before kinds ts p.cursor.pos
  rw [← hp.cursor_eq] at h
  exact read_of_ok h

/-- A loop over readers that start with tokens of some kinds comes to an end. -/
theorem parts_settle {kinds : List Kind}
    (hloop : Loop (starts kinds) (fun _ => read r) (leads kinds))
    (hr : ∀ ts, leads kinds ts = true →
      Reader.Reads r ts (fun used a _ => Q used a) (fun used => used ≠ []))
    (hQ : ∀ used a, Q used a → used ≠ []) (hp : Before ts p) :
    ∃ as q used n rest, Settles (fun limit => parts limit (starts kinds) (read r)) p (.ok as) q ∧
      Advance used n p q ∧ n ≤ used.length ∧ Salvaged (Clean Q) n used as ∧ Before rest q := by
  have hturn : ∀ {ts p}, Before ts p → leads kinds ts = true → _ ∨ ∃ s r', _ ∧ False :=
    fun {ts p} hp hlead =>
      (turn_of_runs hp (read_runs (hr ts hlead) hQ (fun h => (h rfl).elim) hp)).imp_right
        fun ⟨s, r', hstalls, hfalse⟩ => ⟨s, r', hloop.stalls_of_attempt hp hlead hstalls, hfalse⟩
  cases hloop.parts_runs hturn hp with
  | @settled as q h hpost =>
    obtain ⟨used, n, rest, hadvance, hn, hsalvaged, hq, _⟩ := hpost
    exact ⟨as, q, used, n, rest, h, hadvance, hn, hsalvaged, hq⟩
  | failed _ hpost => exact hpost.elim
  | stalled _ hpost =>
    obtain ⟨_, _, hfalse, _⟩ := hpost
    exact hfalse.elim

end ReaderParts

/-! ## statements -/

/-- The body of a function goes on before these tokens. -/
def bodyGoesOn (ts : List Token) : Bool := !leads [.rbrace] ts && !ts.isEmpty

/-- The kinds at which the statements of a body come to a halt: boundaries, but no end of
the body. -/
def stuckKinds : List Kind := [.semi, .int, .void, .importWord, .version]

/-- Where a body goes on and does not come to a halt, no boundary is next. -/
theorem not_boundary {t : Token} {ts : List Token} (hgo : bodyGoesOn (t :: ts) = true)
    (ht : t.kind ∉ stuckKinds) : leads Reader.boundaries (t :: ts) = false := by
  have hkinds : ∀ k ∈ Reader.boundaries, k ∈ stuckKinds ∨ k = .rbrace := by decide
  have hbrace : t.kind ≠ .rbrace := by simpa [bodyGoesOn] using hgo
  rw [leads_cons, List.contains_eq_mem, decide_eq_false_iff_not]
  intro hmem
  rcases hkinds _ hmem with h | h
  · exact ht h
  · exact hbrace h

/-- A parser before a token at which the statements of a body come to a halt. -/
def Halted (p : Parser) : Prop := ∃ t rest, Before (t :: rest) p ∧ t.kind ∈ stuckKinds

/-- A statement has been derived. -/
def IsStatement (used : List Token) (e : Node) : Prop :=
  ∃ s : Statement, s.tokens = used ∧ s.node = e

theorem atEnd_before {ts : List Token} {p : Parser} (hp : Before ts p) :
    atEnd p = .ok ts.isEmpty p := by
  have h : p.cursor.atEnd = ts.isEmpty := by
    rw [hp.cursor_eq]
    cases ts <;> rfl
  rw [← h]
  rfl

theorem inBody_before {ts : List Token} {p : Parser} (hp : Before ts p) :
    inBody p = .ok (bodyGoesOn ts) p := by
  unfold inBody bodyGoesOn
  rw [bind_of_ok (starts_before [.rbrace] hp)]
  cases leads [.rbrace] ts with
  | true => rfl
  | false =>
    simp only [Bool.false_eq_true, if_false]
    rw [bind_of_ok (atEnd_before hp)]
    rfl

theorem isStatement_ne_nil (used : List Token) (e : Node) (h : IsStatement used e) :
    used ≠ [] := by
  obtain ⟨s, rfl, _⟩ := h
  cases s with
  | ret word value semi => exact List.cons_ne_nil _ _
  | letIn l => exact List.cons_ne_nil _ _
  | call c semi =>
    obtain ⟨name, opening, args, closing⟩ := c
    exact List.cons_ne_nil _ _

theorem loop_statements : Loop inBody (fun _ => read Reader.statement) bodyGoesOn :=
  loop_read inBody_before rfl (fun ts _ => ⟨_, Reader.statement_reads ts⟩) isStatement_ne_nil

/-- A token at which statements come to a halt is a boundary, but neither the end of the
body nor the start of a statement. -/
theorem stuckKinds_subset : ∀ k ∈ stuckKinds,
    k ∉ Reader.statementKinds ∧ k ≠ .rbrace ∧ k ∈ Reader.boundaries := by
  decide

/-- The report where no statement starts. -/
def refusal (ts : List Token) : Report := .nested (Reader.noStatement ts)

/-- A parser that has reported an error and taken up reading again at the same token. -/
def refused (p : Parser) (r : Report) : Parser := ⟨p.cursor, p.reports ++ [r], false⟩

theorem repeating_refused {p : Parser} {limit : Nat} (h : p.reports.length < limit) (r : Report) :
    repeating (refused p r) r limit = repeating p r limit := by
  have hlen : limit - p.reports.length = limit - (p.reports.length + 1) + 1 := by omega
  simp only [repeating, refused, List.length_append, List.length_singleton]
  rw [hlen, List.replicate_succ, List.append_assoc, List.singleton_append]

section Halted

variable {t : Token} {ts : List Token} {p : Parser}

/-- A turn before such a token only adds a report, and is abandoned with the last one. -/
theorem attempt_of_halted (hp : Before (t :: ts) p) (ht : t.kind ∈ stuckKinds) (limit : Nat) :
    attempt limit (read Reader.statement) p =
      if limit ≤ p.reports.length + 1 then
        .error .abandoned (noted p (refusal (t :: ts)))
      else .ok none (refused p (refusal (t :: ts))) := by
  obtain ⟨hstatement, _, hboundary⟩ := stuckKinds_subset _ ht
  have hlead : leads Reader.statementKinds (t :: ts) = false := by simpa using hstatement
  have hread : read Reader.statement p =
      .error (.failure (.syntaxError (Reader.noStatement (t :: ts)))) p := by
    have h := Reader.statement_before_of_not_leads hlead p.cursor.pos
    rw [← hp.cursor_eq] at h
    exact read_of_syntaxError h
  rw [attempt_of_syntaxError hread]
  by_cases hlimit : limit ≤ p.reports.length + 1
  · rw [if_pos hlimit]
    exact bind_of_error ((report_eq ..).trans (if_pos hlimit))
  · have hskip := skipToBoundary_before (t :: ts) p.cursor.pos
    have hover : ¬ passedOver t = true := by simpa [passedOver] using hboundary
    rw [List.takeWhile_cons_of_neg hover, List.dropWhile_cons_of_neg hover, ← hp,
      List.length_nil, Nat.add_zero, ← hp.cursor_eq] at hskip
    rw [if_neg hlimit, bind_of_ok ((report_eq ..).trans (if_neg hlimit))]
    exact bind_of_ok (read_of_ok hskip)

/-- Before a token at which they come to a halt the statements of a body stall. -/
theorem statements_stall (hp : Before (t :: ts) p) (ht : t.kind ∈ stuckKinds) :
    Stalls (fun limit => parts limit inBody (read Reader.statement)) p p (refusal (t :: ts)) := by
  obtain ⟨_, hbrace, _⟩ := stuckKinds_subset _ ht
  have hgo : bodyGoesOn (t :: ts) = true := by simpa [bodyGoesOn] using hbrace
  -- induction on the reports that are left before the last one
  have hrepeats : ∀ k {p : Parser} {limit : Nat}, Before (t :: ts) p →
      limit = p.reports.length + k + 1 → parts limit inBody (read Reader.statement) p =
        .error .abandoned (repeating p (refusal (t :: ts)) limit) := by
    intro k
    induction k with
    | zero =>
      intro p limit hp hlimit
      have hturn := attempt_of_halted hp ht limit
      rw [if_pos (by omega)] at hturn
      rw [loop_statements.parts_of_more hp hgo, bind_of_error hturn, repeating,
        show limit - p.reports.length = 1 by omega]
      rfl
    | succ k ih =>
      intro p limit hp hlimit
      have hturn := attempt_of_halted hp ht limit
      rw [if_neg (by omega)] at hturn
      have hbefore : Before (t :: ts) (refused p (refusal (t :: ts))) := hp
      have hlength : limit = (refused p (refusal (t :: ts))).reports.length + k + 1 := by
        simp only [refused, List.length_append, List.length_singleton]
        omega
      have hrest := ih hbefore hlength
      rw [loop_statements.parts_of_more hp hgo, bind_of_ok hturn, bind_of_error hrest,
        repeating_refused (by omega)]
  refine ⟨Nat.le_refl _, fun {limit} hlimit => ?_, fun {limit} hlimit => ?_⟩
  · exact hrepeats (limit - p.reports.length - 1) hp (by omega)
  · have hturn := attempt_of_halted hp ht limit
    rw [if_pos (by omega)] at hturn
    exact ⟨_, (loop_statements.parts_of_more hp hgo).trans (bind_of_error hturn)⟩

end Halted

/-- Nothing that is passed over closes a body. -/
theorem braceless_takeWhile (ts : List Token) : Braceless (ts.takeWhile passedOver) := by
  intro t ht hkind
  have hover := List.all_eq_true.mp List.all_takeWhile t ht
  rw [passedOver, hkind] at hover
  cases hover

/-- A turn over a statement, read or refused, ends before the brace that closes the body. -/
theorem attempt_spares {ts : List Token} {p q : Parser} {limit : Nat} {found : Option Node}
    (hp : Before ts p) (h : attempt limit (read Reader.statement) p = .ok found q) :
    ∃ used n, Advance used n p q ∧ Braceless used := by
  have hruns := Runs.read (Reader.statement_spares ts) hp
  have hbefore : ∀ q, (∃ used, Advance used 0 p q ∧ Braceless used) → ∃ ts, Before ts q := by
    rintro q ⟨used, hadvance, _⟩
    obtain ⟨rest, _, hq⟩ := hadvance.exists_before hp
    exact ⟨rest, hq⟩
  rcases (hruns.attempt hbefore).of_ok h with
    ⟨_, _, used, _, hadvance, _, hused⟩ | ⟨_, _, ts₀, ⟨used, hadvance, hused⟩, _, hskip⟩
  · exact ⟨used, 0, hadvance, hused⟩
  · exact ⟨_, _, hadvance.trans hskip, hused.append (braceless_takeWhile ts₀)⟩

/-- The turns over the statements of a body end before the brace that closes it. -/
theorem partsUpTo_spares {ts : List Token} {p q : Parser} {limit turns : Nat} {nodes : List Node}
    (hp : Before ts p)
    (h : partsUpTo limit inBody (read Reader.statement) turns p = .ok nodes q) :
    ∃ used n, Advance used n p q ∧ Braceless used := by
  induction turns generalizing ts p nodes with
  | zero =>
    cases h
    exact ⟨[], 0, Advance.refl _, .nil⟩
  | succ turns ih =>
    cases hgo : bodyGoesOn ts with
    | false =>
      cases (loop_statements.partsUpTo_of_not_more hp hgo (turns + 1)).symm.trans h
      exact ⟨[], 0, Advance.refl _, .nil⟩
    | true =>
      rw [loop_statements.partsUpTo_of_more hp hgo] at h
      obtain ⟨found, p₁, hturn, hrest⟩ := bind_eq_ok_iff.mp h
      obtain ⟨nodes', p₂, hparts, hpure⟩ := bind_eq_ok_iff.mp hrest
      cases hpure
      obtain ⟨used, n, hadvance, hused⟩ := attempt_spares hp hturn
      obtain ⟨rest, _, hp₁⟩ := hadvance.exists_before hp
      obtain ⟨used', n', hadvance', hused'⟩ := ih hp₁ hparts
      exact ⟨_, _, hadvance.trans hadvance', hused.append hused'⟩

/-! ## bodies and functions -/

/-- From `p` on, the statements of a body come to a halt in the state `s`. -/
structure BodyHalts (p s : Parser) : Prop where
  paid : Paid p s
  halted : Halted s
  trace : ∀ limit, s.reports.length < limit →
    ReflTransGen (Turn limit inBody (read Reader.statement)) p s

/-- The statements of a body, up to its end or to where they come to a halt. -/
theorem statements_run {ts : List Token} {p : Parser} (hp : Before ts p) :
    Runs (fun limit => parts limit inBody (read Reader.statement)) p
      (fun nodes q => ∃ used n rest, Advance used n p q ∧ n ≤ used.length ∧
        Salvaged (Clean IsStatement) n used nodes ∧ Braceless used ∧ Before rest q ∧
        bodyGoesOn rest = false)
      (fun _ => False) (BodyHalts p) := by
  have hturn : ∀ {ts p}, Before ts p → bodyGoesOn ts = true →
      (∃ found q used n, Settles (fun limit => attempt limit (read Reader.statement)) p
        (.ok found) q ∧ Advance used n p q ∧ used ≠ [] ∧ n ≤ used.length ∧
        Turned (Clean IsStatement) n used found) ∨
      ∃ s r, Stalls (fun limit => parts limit inBody (read Reader.statement)) p s r ∧
        (p = s ∧ Halted s) := by
    intro ts p hp hgo
    cases ts with
    | nil => cases hgo
    | cons t rest =>
      by_cases ht : t.kind ∈ stuckKinds
      · exact .inr ⟨p, _, statements_stall hp ht, rfl, t, rest, hp, ht⟩
      · have hruns := read_runs (Reader.statement_reads (t :: rest)) isStatement_ne_nil
          (fun _ => ⟨List.cons_ne_nil t rest, not_boundary hgo ht⟩) hp
        exact (turn_of_runs hp hruns).imp_right fun ⟨_, _, _, hfalse⟩ => hfalse.elim
  cases loop_statements.parts_runs hturn hp with
  | @settled nodes q h hpost =>
    obtain ⟨used, n, rest, hadvance, hn, hsalvaged, hq, hgo⟩ := hpost
    -- under a limit that allows one report more, the loop ends and what it has read is the same
    have hrun := h.ends (.inr (Nat.lt_succ_self q.reports.length))
    obtain ⟨used', _, hadvance', hused'⟩ := partsUpTo_spares hp hrun
    obtain rfl := hadvance.unique hadvance'
    exact .settled h ⟨used, n, rest, hadvance, hn, hsalvaged, hused', hq, hgo⟩
  | failed _ hpost => exact hpost.elim
  | stalled h hpost =>
    obtain ⟨_, hpaid, ⟨rfl, hhalted⟩, htrace⟩ := hpost
    exact .stalled h ⟨hpaid, hhalted, htrace⟩

/-- A body: its statements and its closing brace. -/
theorem body_runs {ts : List Token} {p : Parser} (hp : Before ts p) :
    Runs body p
      (fun nodes q => ∃ (used : List Token) (n : Nat) (brace : TokenOf .rbrace),
        Advance (used ++ [brace.1]) n p q ∧ n ≤ used.length ∧
          Salvaged (Clean IsStatement) n used nodes ∧ Braceless used)
      (Paid p) (BodyHalts p) := by
  unfold body
  refine (statements_run hp).bind ?_ (fun _ h => h.elim) (fun _ h => h)
  rintro nodes q _ ⟨used, n, rest, hadvance, hn, hsalvaged, hused, hq, hgo⟩
  cases rest with
  | nil =>
    have hend : Settles (fun _ => (do
        if ← atEnd then read (Reader.fail .unclosedBody)
        let _ ← read (Reader.expect .rbrace)
        return nodes : Parsing (List Node))) q (.error ⟨.unclosedBody, none⟩) q := by
      refine Settles.of_eq ?_ rfl
      rw [bind_of_ok (atEnd_before hq)]
      rfl
    exact .failed hend ⟨used, n, hadvance, hn⟩
  | cons brace rest =>
    have hbrace : brace.kind = .rbrace := by simpa [bodyGoesOn] using hgo
    have hexpect := Reader.expect_before hbrace rest q.cursor.pos
    rw [← hq.cursor_eq] at hexpect
    have hclosed : Settles (fun _ => (do
        if ← atEnd then read (Reader.fail .unclosedBody)
        let _ ← read (Reader.expect .rbrace)
        return nodes : Parsing (List Node))) q (.ok nodes)
        { q with cursor := .before rest (q.cursor.pos + 1) } := by
      refine Settles.of_eq ?_ rfl
      rw [bind_of_ok (atEnd_before hq)]
      exact bind_of_ok (read_of_ok hexpect)
    have hbefore : Before ([brace] ++ rest) q := hq
    exact .settled hclosed ⟨used, n, ⟨brace, hbrace⟩, hadvance.trans hbefore.advance, hn, hsalvaged,
      hused⟩

/-- A function has been read, its body with recovery from errors, up to the first brace that
closes one. -/
def IsFunction (n : Nat) (used : List Token) (f : FunctionDef) : Prop :=
  ∃ (h : Header) (inner : List Token) (brace : TokenOf .rbrace) (nodes : List Node),
    used = h.tokens ++ (inner ++ [brace.1]) ∧ Salvaged (Clean IsStatement) n inner nodes ∧
      Braceless inner ∧ f = h.withBody nodes

/-- From `p` on, the head of a function is read, and then the statements of its body come
to a halt in the state `s`. -/
def FunctionHalts (p s : Parser) : Prop :=
  ∃ head q, read Reader.functionHead p = .ok head q ∧ Paid p q ∧ BodyHalts q s

/-- A function: what is used up of its head pays for the error it may end with. -/
theorem function_runs {ts : List Token} {p : Parser} (hlead : leads [.int, .void] ts = true)
    (hp : Before ts p) :
    Runs function p (PartRead IsFunction p) (PartFailed p) (FunctionHalts p) := by
  cases ts with
  | nil => cases hlead
  | cons ret rest =>
    have hret : ret.kind = .int ∨ ret.kind = .void := by simpa using hlead
    unfold function
    refine (Runs.read (Reader.functionHead_reads hret rest) hp).bind ?_ ?_ (fun _ h => h.elim)
    · rintro _ q hsettles ⟨used, rest', hadvance, hq, h, rfl, rfl⟩
      have hpos : 0 < h.tokens.length := Nat.succ_pos _
      refine Runs.within _ ((body_runs hq).bind ?_ ?_ ?_)
      · rintro nodes q' _ ⟨inner, n, brace, hadvance', hn, hsalvaged, hinner⟩
        refine .settled (Settles.of_eq rfl rfl) ⟨_, _, hadvance.trans hadvance', ?_, ?_,
          h, inner, brace, nodes, rfl, ?_, hinner, rfl⟩
        · exact List.cons_ne_nil _ _
        · simp only [List.length_append]
          omega
        · rwa [Nat.zero_add]
      · rintro q' ⟨inner, n, hadvance', hn⟩
        refine ⟨_, _, hadvance.trans hadvance', .inl ?_⟩
        rw [List.length_append]
        omega
      · intro s hs
        have hallows : Allows 0 p q := .inl hadvance.reports
        exact ⟨_, q, hsettles.ends hallows, ⟨_, 0, hadvance, Nat.zero_le _⟩, hs⟩
    · rintro q ⟨used, hadvance, hused⟩
      exact ⟨used, 0, hadvance, .inl (List.length_pos_iff.mpr hused)⟩

theorem loop_functions : Loop (starts [.int, .void]) function (leads [.int, .void]) where
  more_eq := starts_before _
  nil := rfl
  turn hp hlead := by
    rcases turn_of_runs hp (function_runs hlead hp) with
      ⟨found, q, used, n, h, hadvance, hused, _⟩ | ⟨s, r, h, _⟩
    · exact .settled h ⟨used, n, hadvance, .inl hused⟩
    · exact .stalled h trivial

/-- From `p` on, functions are read up to one whose statements come to a halt in the state
`s`. -/
def FunctionsHalt (p s : Parser) : Prop :=
  ∃ q, Paid p q ∧ (starts [.int, .void] q = .ok true q ∧ FunctionHalts q s) ∧
    ∀ limit, s.reports.length < limit →
      ReflTransGen (Turn limit (starts [.int, .void]) (function limit)) p q

/-- The functions of a program, up to its end or to where one comes to a halt. -/
theorem functions_run {ts : List Token} {p : Parser} (hp : Before ts p) :
    Runs (fun limit => parts limit (starts [.int, .void]) (function limit)) p
      (fun fs q => ∃ used n rest, Advance used n p q ∧ n ≤ used.length ∧
        Salvaged IsFunction n used fs ∧ Before rest q ∧ leads [.int, .void] rest = false)
      (fun _ => False) (FunctionsHalt p) := by
  refine loop_functions.parts_runs (fun {ts p} hp hlead => ?_) hp
  refine (turn_of_runs hp (function_runs hlead hp)).imp_right ?_
  rintro ⟨s, r, hstalls, hs⟩
  have hstarts := starts_before [.int, .void] hp
  rw [hlead] at hstarts
  exact ⟨s, r, loop_functions.stalls_of_attempt hp hlead hstalls, hstarts, hs⟩

/-! ## programs -/

/-- Parts salvaged without an error are derived one after the other. -/
theorem Salvaged.exists_derivation {β : Type} {P : Nat → List Token → α → Prop}
    {tokens : β → List Token} {value : β → α}
    (hP : ∀ used a, P 0 used a → ∃ d, tokens d = used ∧ value d = a) {n : Nat}
    {used : List Token} {as : List α} (h : Salvaged P n used as) (hn : n = 0) :
    ∃ ds : List β, ds.flatMap tokens = used ∧ ds.map value = as := by
  induction h with
  | nil => exact ⟨[], rfl, rfl⟩
  | @turn n m used used' found as hturn _ ih =>
    obtain ⟨rfl, rfl⟩ : n = 0 ∧ m = 0 := by omega
    obtain ⟨ds, rfl, rfl⟩ := ih rfl
    cases found with
    | none => exact (Nat.lt_irrefl 0 hturn).elim
    | some a =>
      obtain ⟨d, rfl, rfl⟩ := hP used a hturn
      exact ⟨d :: ds, rfl, rfl⟩

theorem IsFunction.exists_derivation (used : List Token) (f : FunctionDef)
    (h : IsFunction 0 used f) : ∃ d : Function, d.tokens = used ∧ d.parsed = f := by
  obtain ⟨header, inner, brace, nodes, rfl, hsalvaged, _, rfl⟩ := h
  obtain ⟨body, rfl, rfl⟩ := hsalvaged.exists_derivation (fun _ _ h => h.2) rfl
  exact ⟨⟨header, body, brace⟩, rfl, rfl⟩

/-- The version directive that a program may start with. -/
theorem leadingVersion_settles {ts : List Token} {p : Parser} (hp : Before ts p) :
    ∃ found q used n rest, Settles leadingVersion p (.ok found) q ∧ Advance used n p q ∧
      n ≤ used.length ∧ Before rest q ∧
      (n = 0 → ∃ v : Option Version,
        (v.map Version.tokens).getD [] = used ∧ v.map Version.parsed = found) := by
  unfold leadingVersion
  have hlook : Settles (fun _ => starts [.version]) p (.ok (leads [.version] ts)) p :=
    Settles.of_eq (starts_before [.version] hp) rfl
  cases hlead : leads [.version] ts with
  | false =>
    rw [hlead] at hlook
    exact ⟨none, p, [], 0, ts, hlook.bind (Settles.of_eq rfl rfl), Advance.refl p, Nat.le_refl _,
      hp, fun _ => ⟨none, rfl, rfl⟩⟩
  | true =>
    rw [hlead] at hlook
    have hreads := Reader.version_reads ts
    rw [hlead] at hreads
    have hne : ∀ used v, (∃ d : Version, d.tokens = used ∧ d.parsed = v) → used ≠ [] := by
      rintro _ _ ⟨d, rfl, _⟩
      exact List.cons_ne_nil _ _
    rcases turn_of_runs hp (read_runs hreads hne (fun h => (h rfl rfl).elim) hp) with
      ⟨found, q, used, n, h, hadvance, _, hn, hturned⟩ | ⟨_, _, _, hfalse⟩
    · obtain ⟨rest, _, hq⟩ := hadvance.exists_before hp
      refine ⟨found, q, used, n, rest, hlook.bind h, hadvance, hn, hq, ?_⟩
      rintro rfl
      cases found with
      | none => exact (Nat.lt_irrefl 0 hturned).elim
      | some v =>
        obtain ⟨_, d, rfl, rfl⟩ := hturned
        exact ⟨some d, rfl, rfl⟩
    · exact hfalse.elim

/-- An import has been derived. -/
def IsImport (used : List Token) (m : String) : Prop :=
  ∃ d : Import, d.tokens = used ∧ d.parsed = m

/-- A let has been derived. -/
def IsLet (used : List Token) (e : Node) : Prop := ∃ d : Let, d.tokens = used ∧ d.node = e

theorem isImport_ne_nil (used : List Token) (m : String) (h : IsImport used m) : used ≠ [] := by
  obtain ⟨d, rfl, _⟩ := h
  exact List.cons_ne_nil _ _

theorem isLet_ne_nil (used : List Token) (e : Node) (h : IsLet used e) : used ≠ [] := by
  obtain ⟨d, rfl, _⟩ := h
  exact List.cons_ne_nil _ _

theorem loop_imports :
    Loop (starts [.importWord]) (fun _ => read Reader.importDirective) (leads [.importWord]) :=
  loop_read (starts_before _) rfl (fun ts _ => ⟨_, Reader.importDirective_reads ts⟩) isImport_ne_nil

theorem loop_lets :
    Loop (starts [.letWord]) (fun _ => read Reader.letStatement) (leads [.letWord]) :=
  loop_read (starts_before _) rfl (fun ts _ => ⟨_, Reader.letStatement_reads ts⟩) isLet_ne_nil

/-- What stands before the functions of a program has been read with recovery from
errors. -/
def IsPreamble (n : Nat) (used : List Token) (a : Option String × List String × List Node) :
    Prop :=
  ∃ n₁ n₂ n₃ used₁ used₂ used₃, n = n₁ + (n₂ + n₃) ∧ used = used₁ ++ (used₂ ++ used₃) ∧
    (n₁ = 0 → ∃ v : Option Version,
      (v.map Version.tokens).getD [] = used₁ ∧ v.map Version.parsed = a.1) ∧
    Salvaged (Clean IsImport) n₂ used₂ a.2.1 ∧ Salvaged (Clean IsLet) n₃ used₃ a.2.2

theorem IsPreamble.exists_derivation {used : List Token}
    {a : Option String × List String × List Node} (h : IsPreamble 0 used a) :
    ∃ (v : Option Version) (is : List Import) (ls : List Let),
      used = (v.map Version.tokens).getD [] ++ (is.flatMap Import.tokens ++
        ls.flatMap Let.tokens) ∧
      a = (v.map Version.parsed, is.map Import.parsed, ls.map Let.node) := by
  obtain ⟨n₁, n₂, n₃, used₁, used₂, used₃, hn, rfl, hversion, himports, hlets⟩ := h
  obtain ⟨version, imports, lets⟩ := a
  obtain ⟨v, rfl, hv⟩ := hversion (by omega)
  obtain ⟨is, rfl, his⟩ := himports.exists_derivation (fun _ _ h => h.2) (by omega)
  obtain ⟨ls, rfl, hls⟩ := hlets.exists_derivation (fun _ _ h => h.2) (by omega)
  exact ⟨v, is, ls, rfl, by rw [hv, his, hls]⟩

/-- What stands before the functions of a program. -/
theorem preamble_settles {ts : List Token} {p : Parser} (hp : Before ts p) :
    ∃ a q used n rest, Settles preamble p (.ok a) q ∧ Advance used n p q ∧ n ≤ used.length ∧
      Before rest q ∧ IsPreamble n used a := by
  obtain ⟨found, q₁, used₁, n₁, rest₁, hsettles₁, hadvance₁, hn₁, hq₁, hderived₁⟩ :=
    leadingVersion_settles hp
  obtain ⟨imports, q₂, used₂, n₂, rest₂, hsettles₂, hadvance₂, hn₂, hsalvaged₂, hq₂⟩ :=
    parts_settle loop_imports (fun ts hlead => (Reader.importDirective_reads ts).mono
      (fun _ _ _ _ h => h) (fun _ h => h hlead)) isImport_ne_nil hq₁
  obtain ⟨lets, q₃, used₃, n₃, rest₃, hsettles₃, hadvance₃, hn₃, hsalvaged₃, hq₃⟩ :=
    parts_settle loop_lets (fun ts hlead => (Reader.letStatement_reads ts).mono
      (fun _ _ _ _ h => h) (fun _ h => h hlead)) isLet_ne_nil hq₂
  refine ⟨(found, imports, lets), q₃, used₁ ++ (used₂ ++ used₃), n₁ + (n₂ + n₃), rest₃, ?_,
    hadvance₁.trans (hadvance₂.trans hadvance₃), ?_, hq₃, ?_⟩
  · unfold preamble
    exact hsettles₁.bind (hsettles₂.bind (hsettles₃.bind (Settles.of_eq rfl rfl)))
  · simp only [List.length_append]
    omega
  · exact ⟨n₁, n₂, n₃, used₁, used₂, used₃, rfl, rfl, hderived₁, hsalvaged₂, hsalvaged₃⟩

theorem ending_of_nil {p : Parser} (hp : Before [] p) (limit : Nat) :
    ending limit p = .ok () p := by
  rw [ending, bind_of_ok (show (get : Parsing Parser) p = .ok p p from rfl), hp]
  rfl

theorem ending_of_cons {t : Token} {ts : List Token} {p : Parser} (hp : Before (t :: ts) p)
    (limit : Nat) : ending limit p = report limit (.unexpectedToken t) p := by
  rw [ending, bind_of_ok (show (get : Parsing Parser) p = .ok p p from rfl), hp]
  rfl

/-- Tokens left behind the functions are reported once. -/
theorem ending_settles {ts : List Token} {p : Parser} (hp : Before ts p) :
    ∃ q n, Settles ending p (.ok ()) q ∧ q.reports.length = p.reports.length + n ∧
      n ≤ ts.length ∧ (n = 0 → ts = []) := by
  cases ts with
  | nil =>
    have hsettles : Settles ending p (.ok ()) p :=
      Settles.congr (ending_of_nil hp) (Settles.of_eq rfl rfl)
    exact ⟨p, 0, hsettles, rfl, Nat.le_refl _, fun _ => rfl⟩
  | cons t ts =>
    refine ⟨noted p (.unexpectedToken t), 1,
      Settles.congr (ending_of_cons hp) (settles_report _ p), ?_, ?_, ?_⟩
    · simp [noted]
    · simp
    · simp

/-- From `p` on, a program is read up to a function whose statements come to a halt in the
state `s`. -/
def ProgramHalts (p s : Parser) : Prop :=
  ∃ a q, Settles preamble p (.ok a) q ∧ Paid p q ∧ FunctionsHalt q s

/-- A whole program has been read with recovery from errors, with `n` reports in all; what
is left behind its functions is one of them. -/
def IsProgram (n : Nat) (ts : List Token) (prog : LetCall.Program) : Prop :=
  ∃ n₁ n₂ n₃ used₁ used₂ rest imports, n = n₁ + n₂ + n₃ ∧ ts = used₁ ++ (used₂ ++ rest) ∧
    IsPreamble n₁ used₁ (prog.version, imports, prog.statements) ∧
    prog.imports = some imports ∧ Salvaged IsFunction n₂ used₂ prog.functions ∧
    (n₃ = 0 → rest = [])

theorem IsProgram.exists_derivation {ts : List Token} {prog : LetCall.Program}
    (h : IsProgram 0 ts prog) : ∃ d : Grammar.Program, d.tokens = ts ∧ d.parsed = prog := by
  obtain ⟨n₁, n₂, n₃, used₁, used₂, rest, imports, hn, rfl, hpreamble, himports, hfunctions,
    hrest⟩ := h
  obtain ⟨rfl, rfl, rfl⟩ : n₁ = 0 ∧ n₂ = 0 ∧ n₃ = 0 := by omega
  obtain ⟨v, is, ls, rfl, ha⟩ := hpreamble.exists_derivation
  obtain ⟨ds, rfl, hds⟩ := hfunctions.exists_derivation IsFunction.exists_derivation rfl
  obtain rfl := hrest rfl
  obtain ⟨version, _, functions, statements⟩ := prog
  cases ha
  cases himports
  cases hds
  exact ⟨⟨v, is, ls, ds⟩, by simp [Program.tokens], rfl⟩

/-- A whole program: it ends with no more errors than tokens, or it comes to a halt. -/
theorem program_runs {ts : List Token} {p : Parser} (hp : Before ts p) :
    Runs program p
      (fun prog q => ∃ n, q.reports.length = p.reports.length + n ∧ n ≤ ts.length ∧
        IsProgram n ts prog)
      (fun _ => False) (ProgramHalts p) := by
  obtain ⟨⟨version, imports, lets⟩, q₁, used₁, n₁, rest₁, hsettles₁, hadvance₁, hn₁, hq₁,
    hpreamble⟩ := preamble_settles hp
  unfold program
  cases functions_run hq₁ with
  | failed _ hpost => exact hpost.elim
  | @stalled s r h hpost =>
    exact .stalled (hsettles₁.bind_stalls h.bind)
      ⟨_, q₁, hsettles₁, ⟨used₁, n₁, hadvance₁, hn₁⟩, hpost⟩
  | @settled fs q₂ h hpost =>
    obtain ⟨used₂, n₂, rest, hadvance₂, hn₂, hsalvaged, hq₂, _⟩ := hpost
    obtain ⟨_, rfl, hrest₁⟩ := hadvance₁.exists_before hp
    obtain rfl := hq₁.unique hrest₁
    obtain ⟨_, rfl, hrest₂⟩ := hadvance₂.exists_before hq₁
    obtain rfl := hq₂.unique hrest₂
    obtain ⟨q₃, n₃, hsettles₃, hreports₃, hn₃, hrest⟩ := ending_settles hq₂
    have hreports := (hadvance₁.trans hadvance₂).reports
    refine .settled (hsettles₁.bind (h.bind (hsettles₃.bind (Settles.of_eq rfl rfl))))
      ⟨n₁ + n₂ + n₃, by omega, ?_, n₁, n₂, n₃, used₁, used₂, rest, imports, rfl, rfl, hpreamble,
        rfl, hsalvaged, hrest⟩
    simp only [List.length_append]
    omega

end LetCall.Parsing
