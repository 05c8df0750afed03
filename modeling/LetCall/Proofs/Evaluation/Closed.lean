import LetCall.Proofs.Evaluation

/-!
# LetCall.Proofs.Evaluation.Closed

Expressions without names and calls.  Such an expression is built from integers and texts by
plus, minus and negation, and needs neither a program nor a machine to be understood: it has a
type, and if it has one, it stands for an integer or a text.  Plus is read by the types of its
operands, so `(1 + 2) + "x"` and `1 + (2 + "x")` stand for different texts.

Main statement: an expression is evaluated, to what it stands for, just if it has a type and
no integer with too many digits is written into a text; otherwise it is a fault
(`evaluate_closed`).
-/

namespace LetCall

/-! ## types -/

/-- The types of expressions without names and calls. -/
inductive Scalar where
  | int
  | str
  deriving DecidableEq

namespace Scalar

/-- What an expression of a type stands for. -/
abbrev Val : Scalar → Type
  | int => Int
  | str => String

/-- What an expression stands for, as a value of the machine. -/
def value : (τ : Scalar) → τ.Val → Value
  | int, n => .int n
  | str, s => .str s

/-- What an expression stands for, as part of a text: integers are written in decimal. -/
def text : (τ : Scalar) → τ.Val → String
  | int, n => toString n
  | str, s => s

/-- A plus is a text as soon as one of its operands is. -/
def plus : Scalar → Scalar → Scalar
  | int, int => int
  | _, _ => str

/-- The sum of two integers, or else the two operands in a row. -/
def sum : (σ τ : Scalar) → σ.Val → τ.Val → (σ.plus τ).Val
  | int, int, a, b => a + b
  | int, str, a, b => text int a ++ b
  | str, int, a, b => a ++ text int b
  | str, str, a, b => a ++ b

theorem eq_int_of_plus {σ τ : Scalar} (h : σ.plus τ ≠ str) : σ = int ∧ τ = int := by
  cases σ <;> cases τ <;> simp_all [plus]

/-- What can be written into a text: an integer must not have too many digits. -/
def Writable : (τ : Scalar) → τ.Val → Prop
  | int, n => Numeric.digitCount n.natAbs ≤ Numeric.digitLimit
  | str, _ => True

/-- Two operands that can be joined, if it is a text that they make. -/
def Joinable (σ τ : Scalar) (a : σ.Val) (b : τ.Val) : Prop :=
  σ.plus τ = str → σ.Writable a ∧ τ.Writable b

end Scalar

/-! ## expressions -/

/-- Expressions without names and calls. -/
inductive Closed where
  | number (n : Int)
  | text (s : String)
  | plus (l r : Closed)
  | minus (l r : Closed)
  | negated (x : Closed)

/-- An expression as a tree of the program. -/
def Closed.node : Closed → Node
  | number n => .num (.int n)
  | text s => .str s
  | plus l r => .bin "+" l.node r.node
  | minus l r => .bin "-" l.node r.node
  | negated x => .un "-" x.node

/-- Expressions that have a type: any two can be added, and only integers can be subtracted
and negated. -/
inductive Typed : Scalar → Type where
  | number (n : Int) : Typed .int
  | text (s : String) : Typed .str
  | plus {σ τ : Scalar} (l : Typed σ) (r : Typed τ) : Typed (σ.plus τ)
  | minus (l r : Typed .int) : Typed .int
  | negated (x : Typed .int) : Typed .int

namespace Typed

/-- An expression without its type. -/
def erase {τ : Scalar} : Typed τ → Closed
  | number n => .number n
  | text s => .text s
  | plus l r => .plus l.erase r.erase
  | minus l r => .minus l.erase r.erase
  | negated x => .negated x.erase

/-- What an expression stands for. -/
def denote {τ : Scalar} : Typed τ → τ.Val
  | number n => n
  | text s => s
  | plus l r => Scalar.sum _ _ l.denote r.denote
  | minus l r => (l.denote - r.denote : Int)
  | negated x => (-x.denote : Int)

/-- No integer with too many digits is written into a text. -/
def Short {τ : Scalar} : Typed τ → Prop
  | number _ => True
  | text _ => True
  | plus l r => l.Short ∧ r.Short ∧ Scalar.Joinable _ _ l.denote r.denote
  | minus l r => l.Short ∧ r.Short
  | negated x => x.Short

end Typed

/-- The expression has a type, and no integer with too many digits is written into a text. -/
def Closed.HasSense (e : Closed) : Prop := ∃ (τ : Scalar) (t : Typed τ), t.erase = e ∧ t.Short

/-! ## integers as text -/

theorem Numeric.intDigits_eq_toString (n : Int) : intDigits n = toString n := by
  cases n with
  | ofNat k =>
    have hpos : ¬ Int.ofNat k < 0 := by simp
    rw [intDigits, if_neg hpos, String.empty_append]
    exact Nat.repr_eq_ofList_toDigits.symm
  | negSucc k =>
    rw [intDigits, if_pos (Int.negSucc_lt_zero k)]
    exact congrArg ("-" ++ ·) Nat.repr_eq_ofList_toDigits.symm

theorem Numeric.digitCount_le_iff {k : Nat} (hk : 0 < k) (n : Nat) :
    digitCount n ≤ k ↔ n < tenPow k :=
  Nat.length_toDigits_le_iff (by decide) hk

/-- An integer has a text just if it does not have too many digits. -/
theorem Numeric.intText?_eq (n : Int) :
    intText? n = if digitCount n.natAbs ≤ digitLimit then some (toString n) else none := by
  have hcount := digitCount_le_iff (k := digitLimit) (by decide) n.natAbs
  rw [intText?, intDigits_eq_toString, digitBound]
  by_cases hn : n.natAbs < tenPow digitLimit
  · rw [if_pos hn, if_pos (hcount.mpr hn)]
  · rw [if_neg hn, if_neg (mt hcount.mp hn)]

namespace Run

/-! ## operators -/

section Operators

variable {σ τ : Scalar} {a : σ.Val} {b : τ.Val}

theorem textOf_of_writable (h : σ.Writable a) : textOf (σ.value a) = pure (σ.text a) := by
  cases σ with
  | int =>
    have htext : (Value.int a).text? = some (toString a) :=
      (Numeric.intText?_eq a).trans (if_pos h)
    simp only [Scalar.value, Scalar.text, textOf, htext]
  | str => rfl

theorem textOf_of_not_writable (h : ¬ σ.Writable a) :
    textOf (σ.value a) = fail (.trouble .tooManyDigits) := by
  cases σ with
  | int =>
    have htext : (Value.int a).text? = none := (Numeric.intText?_eq a).trans (if_neg h)
    simp only [Scalar.value, textOf, htext]
  | str => exact (h trivial).elim

/-- Where one operand is a text, plus joins the texts of both. -/
theorem applyBinary_plus_of_str (h : σ.plus τ = .str) (a : σ.Val) (b : τ.Val) :
    applyBinary "+" (σ.value a) (τ.value b) = (do
      let s ← textOf (σ.value a)
      let t ← textOf (τ.value b)
      return .str (s ++ t)) := by
  have htext : isText (σ.value a) = true ∨ isText (τ.value b) = true := by
    cases σ <;> cases τ <;> simp_all [Scalar.plus, Scalar.value, isText]
  exact if_pos ⟨rfl, htext⟩

theorem applyBinary_plus_of_joinable (h : σ.Joinable τ a b) :
    applyBinary "+" (σ.value a) (τ.value b) = pure ((σ.plus τ).value (Scalar.sum σ τ a b)) := by
  by_cases hstr : σ.plus τ = .str
  · have hsum : (σ.plus τ).value (Scalar.sum σ τ a b) = .str (σ.text a ++ τ.text b) := by
      cases σ <;> cases τ <;> simp_all [Scalar.plus, Scalar.sum, Scalar.value, Scalar.text]
    obtain ⟨ha, hb⟩ := h hstr
    rw [applyBinary_plus_of_str hstr, textOf_of_writable ha, textOf_of_writable hb, hsum]
    rfl
  · obtain ⟨rfl, rfl⟩ := Scalar.eq_int_of_plus hstr
    rfl

theorem applyBinary_plus_of_not_joinable (h : ¬ σ.Joinable τ a b) :
    applyBinary "+" (σ.value a) (τ.value b) = fail (.trouble .tooManyDigits) := by
  obtain ⟨hstr, hlong⟩ := Classical.not_imp.mp h
  rw [applyBinary_plus_of_str hstr]
  by_cases ha : σ.Writable a
  · have hb : ¬ τ.Writable b := fun hb => hlong ⟨ha, hb⟩
    rw [textOf_of_writable ha, textOf_of_not_writable hb]
    rfl
  · rw [textOf_of_not_writable ha]
    rfl

/-- Texts cannot be subtracted, and nothing from them. -/
theorem applyBinary_minus_of_str (h : σ.plus τ = .str) (a : σ.Val) (b : τ.Val) :
    applyBinary "-" (σ.value a) (τ.value b) =
      fail (.binaryOperands .sub (σ.value a).typeName (τ.value b).typeName) := by
  cases σ <;> cases τ
  case int.int => cases h
  all_goals rfl

end Operators

/-! ## faults -/

/-- A step that fails and leaves the machine as it was. -/
def Faults {α : Type} (x : Run α) (m : Machine) : Prop := ∃ f, x m = .error (.fault f) m

namespace Faults

variable {α β : Type} {x : Run α} {f : α → Run β} {m : Machine} {a : α}

theorem of_fail {c : Fault.Cause} (h : x = fail c) : Faults x m := by
  rw [h]
  exact ⟨_, rfl⟩

theorem inContext (c : Context) (h : Faults x m) : Faults (Run.inContext c x) m := by
  obtain ⟨f, hf⟩ := h
  exact ⟨_, inContext_of_fault c hf⟩

theorem bind (h : Faults x m) : Faults (x >>= f) m := by
  obtain ⟨e, he⟩ := h
  exact ⟨e, bind_of_error he⟩

theorem bind_of_ok (hx : x m = .ok a m) (h : Faults (f a) m) : Faults (x >>= f) m := by
  obtain ⟨e, he⟩ := h
  exact ⟨e, (LetCall.bind_of_ok hx).trans he⟩

end Faults

/-! ## evaluating operators -/

section Evaluate

variable {p : Program} {l r x : Node} {op : String} {v w : Value} {m : Machine}

theorem evaluate_bin_of_ok {u : Value} (hl : evaluate p l m = .ok v m)
    (hr : evaluate p r m = .ok w m) (h : applyBinary op v w = pure u) :
    evaluate p (.bin op l r) m = .ok u m := by
  rw [evaluate_bin_eq]
  refine inContext_of_ok _ (inContext_of_ok _ ?_)
  rw [bind_of_ok hl, bind_of_ok hr, h]
  rfl

theorem evaluate_un_of_ok {u : Value} (hx : evaluate p x m = .ok v m)
    (h : applyUnary op v = pure u) : evaluate p (.un op x) m = .ok u m := by
  rw [evaluate_un_eq]
  refine inContext_of_ok _ (inContext_of_ok _ ?_)
  rw [bind_of_ok hx, h]
  rfl

/-- Evaluation stops with a fault in the context of the expression, and leaves the machine as
it was. -/
def Refused (p : Program) (n : Node) (m : Machine) : Prop :=
  ∃ f : Fault, evaluate p n m = .error (.fault (f.inContext .expression)) m

namespace Refused

theorem of_inContext {n : Node} {x : Run Value} (hn : evaluate p n = inContext .expression x)
    (hx : Faults x m) : Refused p n m := by
  obtain ⟨f, hf⟩ := hx
  exact ⟨f, by rw [hn, inContext_of_fault _ hf]⟩

theorem faults (h : Refused p x m) : Faults (evaluate p x) m := by
  obtain ⟨f, hf⟩ := h
  exact ⟨_, hf⟩

theorem bin_left (hl : Refused p l m) : Refused p (.bin op l r) m :=
  of_inContext (evaluate_bin_eq ..) (.inContext _ hl.faults.bind)

theorem bin_right (hl : evaluate p l m = .ok v m) (hr : Refused p r m) :
    Refused p (.bin op l r) m :=
  of_inContext (evaluate_bin_eq ..) (.inContext _ (.bind_of_ok hl hr.faults.bind))

theorem bin {c : Fault.Cause} (hl : evaluate p l m = .ok v m) (hr : evaluate p r m = .ok w m)
    (h : applyBinary op v w = fail c) : Refused p (.bin op l r) m :=
  of_inContext (evaluate_bin_eq ..)
    (.inContext _ (.bind_of_ok hl (.bind_of_ok hr (.of_fail h))))

theorem un_operand (hx : Refused p x m) : Refused p (.un op x) m :=
  of_inContext (evaluate_un_eq ..) (.inContext _ hx.faults.bind)

theorem un {c : Fault.Cause} (hx : evaluate p x m = .ok v m) (h : applyUnary op v = fail c) :
    Refused p (.un op x) m :=
  of_inContext (evaluate_un_eq ..) (.inContext _ (.bind_of_ok hx (.of_fail h)))

end Refused

end Evaluate

/-! ## evaluating closed expressions -/

section Closed

variable (p : Program) (m : Machine)

/-- **Preservation**: an expression that has a type is evaluated to what it stands for. -/
theorem evaluate_typed {τ : Scalar} (t : Typed τ) (h : t.Short) :
    evaluate p t.erase.node m = .ok (τ.value t.denote) m := by
  induction t with
  | number n => rfl
  | text s => rfl
  | plus l r ihl ihr =>
    obtain ⟨hl, hr, hjoin⟩ := h
    exact evaluate_bin_of_ok (ihl hl) (ihr hr) (applyBinary_plus_of_joinable hjoin)
  | minus l r ihl ihr =>
    obtain ⟨hl, hr⟩ := h
    exact evaluate_bin_of_ok (ihl hl) (ihr hr) rfl
  | negated x ih => exact evaluate_un_of_ok (ih h) rfl

/-- An operator is refused together with the first of its operands that is. -/
theorem operands_or_refused (op : String) {l r : Closed} (hl : l.HasSense ∨ Refused p l.node m)
    (hr : r.HasSense ∨ Refused p r.node m) :
    (l.HasSense ∧ r.HasSense) ∨ Refused p (.bin op l.node r.node) m := by
  rcases hl with hl | hl
  · rcases hr with hr | hr
    · exact .inl ⟨hl, hr⟩
    · obtain ⟨σ, t, rfl, ht⟩ := hl
      exact .inr (.bin_right (evaluate_typed p m t ht) hr)
  · exact .inr hl.bin_left

/-- **Progress**: an expression makes sense or is refused. -/
theorem hasSense_or_refused (e : Closed) : e.HasSense ∨ Refused p e.node m := by
  induction e with
  | number n => exact .inl ⟨.int, .number n, rfl, trivial⟩
  | text s => exact .inl ⟨.str, .text s, rfl, trivial⟩
  | plus l r ihl ihr =>
    rcases operands_or_refused p m "+" ihl ihr with ⟨⟨σ, t, rfl, ht⟩, τ, u, rfl, hu⟩ | hrefused
    · -- both operands have values, so it is up to the operator
      have hl := evaluate_typed p m t ht
      have hr := evaluate_typed p m u hu
      by_cases hjoin : σ.Joinable τ t.denote u.denote
      · exact .inl ⟨_, t.plus u, rfl, ht, hu, hjoin⟩
      · exact .inr (.bin hl hr (applyBinary_plus_of_not_joinable hjoin))
    · exact .inr hrefused
  | minus l r ihl ihr =>
    rcases operands_or_refused p m "-" ihl ihr with ⟨⟨σ, t, rfl, ht⟩, τ, u, rfl, hu⟩ | hrefused
    · have hl := evaluate_typed p m t ht
      have hr := evaluate_typed p m u hu
      by_cases hstr : σ.plus τ = .str
      · exact .inr (.bin hl hr (applyBinary_minus_of_str hstr t.denote u.denote))
      · obtain ⟨rfl, rfl⟩ := Scalar.eq_int_of_plus hstr
        exact .inl ⟨.int, t.minus u, rfl, ht, hu⟩
    · exact .inr hrefused
  | negated x ih =>
    rcases ih with ⟨σ, t, rfl, ht⟩ | hrefused
    · have hx := evaluate_typed p m t ht
      cases σ with
      | int => exact .inl ⟨.int, t.negated, rfl, ht⟩
      | str => exact .inr (.un hx rfl)
    · exact .inr hrefused.un_operand

/-- **What closed expressions come to.**  An expression without names and calls is evaluated
just if it has a type and writes no integer with too many digits into a text.  Then it comes
to what it stands for and changes nothing; otherwise it is refused. -/
theorem evaluate_closed (e : Closed) :
    ((∃ v m', evaluate p e.node m = .ok v m') ↔ e.HasSense) ∧
    (∀ (τ : Scalar) (t : Typed τ), t.erase = e → t.Short →
      evaluate p e.node m = .ok (τ.value t.denote) m) ∧
    (¬ e.HasSense → Refused p e.node m) := by
  refine ⟨⟨?_, ?_⟩, ?_, ?_⟩
  · intro ⟨v, m', hok⟩
    rcases hasSense_or_refused p m e with hsense | ⟨f, hf⟩
    · exact hsense
    · rw [hok] at hf
      cases hf
  · intro ⟨τ, t, ht, hshort⟩
    subst ht
    exact ⟨_, _, evaluate_typed p m t hshort⟩
  · intro τ t ht hshort
    subst ht
    exact evaluate_typed p m t hshort
  · intro hnone
    exact (hasSense_or_refused p m e).resolve_left hnone

end Closed

-- the same operands in the same order, grouped in two ways
example : (Typed.plus (.plus (.number 1) (.number 2)) (.text "x")).denote = "3x" := rfl

example : (Typed.plus (.number 1) (.plus (.number 2) (.text "x"))).denote = "12x" := rfl

end Run

end LetCall
