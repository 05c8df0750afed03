import Mathlib.Data.List.Forall2
import LetCall.Proofs.Parsing.Expressions
import LetCall.Proofs.Parsing.Termination

/-!
# LetCall.Proofs.Parsing.Segments

Where the parts of a program come from.  Recovery from errors leaves tokens out and does
nothing else: each part that is kept is derived by tokens of its own that stand in a row, the
parts come in the order of their tokens, and the statements of a function stand between the
brace that opens its body and the first brace behind it that closes one.

Main statement: `parsed_in_order`.
-/

namespace LetCall

/-! ## spans -/

/-- Positions in a row, from `start` on and before `stop`, of which there is one at least. -/
structure Span where
  start : Nat
  stop : Nat
  lt : start < stop

namespace Span

variable {α : Type} {s : Span} {ss ss' : List Span} {lo lo' mid hi hi' : Nat}

/-- The tokens at the positions of a span. -/
def cut (tokens : List Token) (s : Span) : List Token := segment tokens s.start s.stop

/-- All positions of one span come before those of another. -/
def Precedes (s s' : Span) : Prop := s.stop ≤ s'.start

/-- A span lies within the tokens, and those at its positions derive something. -/
structure Derives (P : List Token → α → Prop) (tokens : List Token) (s : Span) (a : α) : Prop where
  stop_le : s.stop ≤ tokens.length
  derived : P (s.cut tokens) a

/-- Spans that come one behind the other, from `lo` on and up to `hi`. -/
inductive Ordered : Nat → List Span → Nat → Prop
  | nil {lo hi : Nat} (h : lo ≤ hi) : Ordered lo [] hi
  | cons {lo hi : Nat} {s : Span} {ss : List Span} (h : lo ≤ s.start) (hs : Ordered s.stop ss hi) :
      Ordered lo (s :: ss) hi

namespace Ordered

theorem widen (h : Ordered lo ss hi) (hlo : lo' ≤ lo) (hhi : hi ≤ hi') : Ordered lo' ss hi' := by
  induction h generalizing lo' with
  | nil h => exact .nil (by omega)
  | cons h _ ih => exact .cons (by omega) (ih (Nat.le_refl _) hhi)

theorem append (h : Ordered lo ss mid) (h' : Ordered mid ss' hi) : Ordered lo (ss ++ ss') hi := by
  induction h with
  | nil h => exact h'.widen h (Nat.le_refl _)
  | cons h _ ih => exact .cons h (ih h')

theorem le (h : Ordered lo ss hi) : lo ≤ hi := by
  induction h with
  | nil h => exact h
  | @cons _ _ s _ h _ ih =>
    have hlt := s.lt
    omega

theorem bounds (h : Ordered lo ss hi) (hs : s ∈ ss) : lo ≤ s.start ∧ s.stop ≤ hi := by
  induction h with
  | nil => cases hs
  | @cons _ _ s' _ h hordered ih =>
    rcases List.mem_cons.mp hs with rfl | hs
    · exact ⟨h, hordered.le⟩
    · have hbounds := ih hs
      have hlt := s'.lt
      omega

theorem pairwise (h : Ordered lo ss hi) : ss.Pairwise Precedes := by
  induction h with
  | nil => exact .nil
  | cons _ hordered ih => exact .cons (fun _ hs => (hordered.bounds hs).1) ih

end Ordered

end Span

section Split

variable {tokens used rest : List Token} {t : Token} {p i : Nat}

theorem kindAt_of_drop (h : tokens.drop p = t :: rest) : kindAt tokens p = some t.kind := by
  rw [kindAt, ← List.head?_drop, h]
  rfl

/-- The tokens between two positions are those that have been used up from one to the other. -/
theorem exists_mem_of_split (h : tokens.drop p = used ++ rest) (hp : p ≤ i)
    (hi : i < p + used.length) : ∃ t ∈ used, kindAt tokens i = some t.kind := by
  have hlt : i - p < used.length := by omega
  have hat : tokens[i]? = some used[i - p] := by
    have hdrop : (tokens.drop p)[i - p]? = tokens[i]? := by
      rw [List.getElem?_drop, Nat.add_sub_cancel' hp]
    rw [← hdrop, h, List.getElem?_append_left hlt, List.getElem?_eq_getElem hlt]
  exact ⟨used[i - p], List.getElem_mem hlt, by rw [kindAt, hat]; rfl⟩

end Split

namespace Parsing

open Grammar

variable {α : Type} {tokens used rest : List Token} {n p : Nat}

/-! ## the parts that a loop has found -/

/-- What a loop has found is derived by spans one behind the other, within what it has used
up. -/
theorem Salvaged.exists_spans {P : Nat → List Token → α → Prop} {as : List α}
    (hne : ∀ n used a, P n used a → used ≠ []) (h : Salvaged P n used as)
    (hsplit : tokens.drop p = used ++ rest) :
    ∃ spans, List.Forall₂ (Span.Derives (fun used a => ∃ n, P n used a) tokens) spans as ∧
      Span.Ordered p spans (p + used.length) := by
  induction h generalizing p with
  | nil => exact ⟨[], .nil, .nil (Nat.le_refl _)⟩
  | @turn n m used used' found as hturned _ ih =>
    rw [List.append_assoc] at hsplit
    obtain ⟨spans, hspans, hordered⟩ := ih (eq_drop_of_split hsplit).symm
    rw [List.length_append, ← Nat.add_assoc]
    cases found with
    -- a gap gives no span, and the spans behind it need not begin where it does
    | none => exact ⟨spans, hspans, hordered.widen (Nat.le_add_right _ _) (Nat.le_refl _)⟩
    | some a =>
      have hused := hne n used a hturned
      have hpos := List.length_pos_iff.mpr hused
      refine ⟨⟨p, p + used.length, by omega⟩ :: spans, .cons ⟨?_, n, ?_⟩ hspans,
        .cons (Nat.le_refl _) hordered⟩
      · exact le_length_of_split hsplit hused
      · rw [Span.cut, ← eq_segment_of_split hsplit]
        exact hturned

/-- Parts without errors inside them are derived by their spans. -/
theorem Salvaged.exists_clean_spans {Q : List Token → α → Prop} {as : List α}
    (hne : ∀ used a, Q used a → used ≠ []) (h : Salvaged (Clean Q) n used as)
    (hsplit : tokens.drop p = used ++ rest) :
    ∃ spans, List.Forall₂ (Span.Derives Q tokens) spans as ∧
      Span.Ordered p spans (p + used.length) := by
  obtain ⟨spans, hspans, hordered⟩ := h.exists_spans (fun _ used a h => hne used a h.2) hsplit
  exact ⟨spans, hspans.imp fun _ _ ⟨hle, _, _, hderived⟩ => ⟨hle, hderived⟩, hordered⟩

/-! ## functions -/

/-- The positions of a function: where it begins, where its body is opened and closed, and the
spans of its statements. -/
structure FunctionSite where
  start : Nat
  opening : Nat
  closing : Nat
  statements : List Span
  start_lt : start < opening
  opening_lt : opening < closing

namespace FunctionSite

/-- All positions of a function, from the first of its head to the brace that closes its
body. -/
def span (site : FunctionSite) : Span where
  start := site.start
  stop := site.closing + 1
  lt := Nat.lt_succ_of_lt (Nat.lt_trans site.start_lt site.opening_lt)

/-- A function is derived at its site: its head up to the brace that opens the body, and each
statement of the body behind that brace and before the one that closes it, which is the first
of its kind. -/
structure Derives (tokens : List Token) (site : FunctionSite) (f : FunctionDef) : Prop where
  head : ∃ h : Header, h.tokens = segment tokens site.start (site.opening + 1) ∧
    f = h.withBody f.body
  opens : kindAt tokens site.opening = some .lbrace
  body : List.Forall₂ (Span.Derives IsStatement tokens) site.statements f.body
  inside : ∀ s ∈ site.statements, site.opening < s.start ∧ s.stop ≤ site.closing
  closes : kindAt tokens site.closing = some .rbrace
  first : ∀ i, site.opening < i → i < site.closing → kindAt tokens i ≠ some .rbrace

end FunctionSite

theorem isFunction_ne_nil (n : Nat) (used : List Token) (f : FunctionDef)
    (h : IsFunction n used f) : used ≠ [] := by
  obtain ⟨header, inner, brace, nodes, rfl, _⟩ := h
  simp [Header.tokens]

/-- The brace that opens a body is the last token of a head, and not its first. -/
theorem exists_opening {header : Header} (hsplit : tokens.drop p = header.tokens ++ rest) :
    ∃ opening, p < opening ∧ opening + 1 = p + header.tokens.length ∧
      kindAt tokens opening = some .lbrace := by
  obtain ⟨front, hfront, hheader⟩ : ∃ front, 0 < front.length ∧
      header.tokens = front ++ [header.brace.1] :=
    ⟨header.ret.1 :: header.name.1 :: header.opening.1 ::
      (paramsTokens header.params ++ [header.closing.1]), Nat.succ_pos _, by simp [Header.tokens]⟩
  rw [hheader, List.append_assoc] at hsplit
  refine ⟨p + front.length, by omega, ?_, ?_⟩
  · rw [hheader, List.length_append, List.length_singleton, Nat.add_assoc]
  · rw [kindAt_of_drop (eq_drop_of_split hsplit).symm, header.brace.2]

/-- A function that has been read at a span has a site there. -/
theorem exists_site {s : Span} {f : FunctionDef}
    (h : s.Derives (fun used f => ∃ n, IsFunction n used f) tokens f) :
    ∃ site : FunctionSite, site.span = s ∧ site.Derives tokens f ∧
      Span.Ordered (site.opening + 1) site.statements site.closing := by
  obtain ⟨hstop, _, header, inner, brace, nodes, hcut, hsalvaged, hinner, rfl⟩ := h
  have hsplit : tokens.drop s.start =
      header.tokens ++ (inner ++ ([brace.1] ++ tokens.drop s.stop)) := by
    rw [drop_eq_segment_append (Nat.le_of_lt s.lt) hstop, ← Span.cut, hcut, List.append_assoc,
      List.append_assoc]
  obtain ⟨opening, hlt, hnext, hopens⟩ := exists_opening hsplit
  have hhead := eq_segment_of_split hsplit
  have hbody := (eq_drop_of_split hsplit).symm
  rw [← hnext] at hhead hbody
  obtain ⟨spans, hspans, hordered⟩ := hsalvaged.exists_clean_spans isStatement_ne_nil hbody
  have hend : opening + 1 + inner.length + 1 = s.stop := by
    have hlength := congrArg List.length hcut
    rw [Span.cut, length_segment hstop] at hlength
    simp only [List.length_append, List.length_singleton] at hlength
    omega
  refine ⟨⟨s.start, opening, opening + 1 + inner.length, spans, hlt, by omega⟩, ?_,
    ⟨⟨header, hhead, rfl⟩, hopens, hspans, fun _ hs => hordered.bounds hs, ?_, ?_⟩, hordered⟩
  · obtain ⟨start, stop, _⟩ := s
    cases hend
    rfl
  · rw [kindAt_of_drop (eq_drop_of_split hbody).symm, brace.2]
  · intro i hi hclosing hkind
    obtain ⟨t, ht, hat⟩ := exists_mem_of_split hbody hi hclosing
    rw [hat, Option.some.injEq] at hkind
    exact hinner t ht hkind

/-- Functions that have been read have sites at their spans. -/
theorem exists_sites {spans : List Span} {fs : List FunctionDef}
    (h : List.Forall₂ (Span.Derives (fun used f => ∃ n, IsFunction n used f) tokens) spans fs) :
    ∃ sites : List FunctionSite, sites.map FunctionSite.span = spans ∧
      List.Forall₂ (FunctionSite.Derives tokens) sites fs ∧
      ∀ site ∈ sites, Span.Ordered (site.opening + 1) site.statements site.closing := by
  induction h with
  | nil => exact ⟨[], rfl, .nil, by simp⟩
  | cons hderives _ ih =>
    obtain ⟨site, rfl, hsite, hordered⟩ := exists_site hderives
    obtain ⟨sites, rfl, hsites, hall⟩ := ih
    exact ⟨site :: sites, rfl, .cons hsite hsites, List.forall_mem_cons.mpr ⟨hordered, hall⟩⟩

/-- The statements of functions one behind the other come one behind the other. -/
theorem ordered_statements {sites : List FunctionSite} {lo hi : Nat}
    (h : Span.Ordered lo (sites.map FunctionSite.span) hi)
    (hall : ∀ site ∈ sites, Span.Ordered (site.opening + 1) site.statements site.closing) :
    Span.Ordered lo (sites.flatMap FunctionSite.statements) hi := by
  induction sites generalizing lo with
  | nil => exact .nil h.le
  | cons site sites ih =>
    obtain ⟨hsite, hsites⟩ := List.forall_mem_cons.mp hall
    cases h with
    | cons hstart hrest =>
      have hlo : lo ≤ site.opening + 1 := by
        have hlt := site.start_lt
        simp only [FunctionSite.span] at hstart
        omega
      exact (hsite.widen hlo (Nat.le_succ _)).append (ih hrest hsites)

/-! ## programs -/

/-- **Recovery keeps code in place.**  Where parsing ends, with errors or without, each import,
each global let and each statement of a function is derived by a span of tokens of its own;
these spans come one behind the other in the order of the program, and so do the functions.  The
spans of one function's statements lie between the brace that opens its body and the first one
behind it that closes a body. -/
theorem parsed_in_order {limit : Nat} {r : Option LetCall.Program} {q : Parser}
    (h : parse limit (.ofTokens tokens) = .ok r q) :
    ∃ prog names imports lets sites, r = some prog ∧ prog.imports = some names ∧
      List.Forall₂ (Span.Derives IsImport tokens) imports names ∧
      List.Forall₂ (Span.Derives IsLet tokens) lets prog.statements ∧
      List.Forall₂ (FunctionSite.Derives tokens) sites prog.functions ∧
      (imports ++ lets ++ sites.map FunctionSite.span).Pairwise Span.Precedes ∧
      (imports ++ lets ++ sites.flatMap FunctionSite.statements).Pairwise Span.Precedes := by
  obtain ⟨prog, rfl, hprogram⟩ := isProgram_of_parse h
  obtain ⟨_, _, _, _, used, rest, names, _, htokens, hpreamble, hnames, hfunctions, _⟩ := hprogram
  obtain ⟨_, _, _, version, front, back, _, rfl, _, himports, hlets⟩ := hpreamble
  have hsplit : tokens.drop version.length = front ++ (back ++ (used ++ rest)) := by
    rw [htokens, List.append_assoc, List.drop_left, List.append_assoc]
  have hsplit' := (eq_drop_of_split hsplit).symm
  obtain ⟨imports, hderived, hordered⟩ := himports.exists_clean_spans isImport_ne_nil hsplit
  obtain ⟨lets, hderived', hordered'⟩ := hlets.exists_clean_spans isLet_ne_nil hsplit'
  obtain ⟨spans, hspans, hordered''⟩ :=
    hfunctions.exists_spans isFunction_ne_nil (eq_drop_of_split hsplit').symm
  obtain ⟨sites, rfl, hsites, hall⟩ := exists_sites hspans
  have hfront := hordered.append hordered'
  exact ⟨prog, names, imports, lets, sites, rfl, hnames, hderived, hderived', hsites,
    (hfront.append hordered'').pairwise,
    (hfront.append (ordered_statements hordered'' hall)).pairwise⟩

/-- The tokens of a program with a flaw in an import and one in a body. -/
def flawed : List Token :=
  [⟨.importWord, "import", 1, 1⟩, ⟨.importWord, "import", 1, 8⟩, ⟨.ident, "math", 1, 15⟩,
    ⟨.semi, ";", 1, 19⟩, ⟨.int, "int", 2, 1⟩, ⟨.ident, "f", 2, 5⟩, ⟨.lparen, "(", 2, 6⟩,
    ⟨.rparen, ")", 2, 7⟩, ⟨.lbrace, "\x7b", 2, 9⟩, ⟨.ident, "x", 3, 1⟩, ⟨.lparen, "(", 3, 2⟩,
    ⟨.rparen, ")", 3, 3⟩, ⟨.semi, ";", 3, 4⟩, ⟨.letWord, "let", 4, 1⟩, ⟨.assign, "=", 4, 5⟩,
    ⟨.rbrace, "\x7d", 5, 1⟩]

/-- Both flaws are passed over, and the import and the statement before them are in place. -/
theorem flawed_in_order :
    ∃ prog p, parse reportLimit (.ofTokens flawed) = .ok (some prog) p ∧ p.reports.length = 2 ∧
      prog.imports = some ["math"] ∧ prog.functions.map (·.body.length) = [1] ∧
      ∃ imports lets sites, List.Forall₂ (Span.Derives IsImport flawed) imports ["math"] ∧
        List.Forall₂ (Span.Derives IsLet flawed) lets prog.statements ∧
        List.Forall₂ (FunctionSite.Derives flawed) sites prog.functions ∧
        (imports ++ lets ++ sites.map FunctionSite.span).Pairwise Span.Precedes ∧
        (imports ++ lets ++ sites.flatMap FunctionSite.statements).Pairwise Span.Precedes := by
  have hsummary : EStateM.run' (do
      let r ← parse reportLimit
      return (r.map fun prog => (prog.imports, prog.functions.map (·.body.length)),
        (← get).reports.length)) (.ofTokens flawed) = some (some (some ["math"], [1]), 2) := by
    decide +kernel
  obtain ⟨_, hrun⟩ := exists_ok_of_run' hsummary
  obtain ⟨r, p, hok, hrest⟩ := bind_eq_ok_iff.mp hrun
  obtain ⟨prog, names, imports, lets, sites, rfl, hnames, horder⟩ := parsed_in_order hok
  have hvalue : (some (prog.imports, prog.functions.map (·.body.length)), p.reports.length) =
      (some (some ["math"], [1]), 2) := by
    injection hrest
  simp only [Prod.mk.injEq, Option.some.injEq] at hvalue
  obtain ⟨⟨himports, hbodies⟩, hreports⟩ := hvalue
  cases himports.symm.trans hnames
  exact ⟨prog, p, hok, hreports, himports, hbodies, imports, lets, sites, horder⟩

end Parsing

end LetCall
