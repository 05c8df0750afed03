import LetCall.Static
import LetCall.Proofs.Moments

/-!
# LetCall.Proofs.Evaluation.Types

The types that operators give, as they are declared and as they come out.  Both are tables over
the types of the operands: `Static.binaryType` is the declared one, and `BinaryOp.outcome?` is
the one that running the operator follows (`type?_of_applyBinary`).

Main statement: where an operation succeeds and a type is declared for its result, this is the
type of the result unless two integers are divided or a text is joined with a float
(`binaryType_holds_iff`).
-/

namespace LetCall

open Static (Ty binaryType)

/-! ## types of values -/

/-- The type of a value, if it has one of those that can be declared. -/
def Value.type? : Value → Option Ty
  | .bool _ => some .bool
  | .int _ => some .int
  | .float _ => some .float
  | .str _ => some .string
  | _ => none

/-! ## numbers -/

theorem exists_ok_of_bind {ε α β : Type} {x : Except ε α} {f : α → Except ε β} {b : β}
    (h : x >>= f = .ok b) : ∃ a, x = .ok a ∧ f a = .ok b := by
  cases x with
  | error e => cases h
  | ok a => exact ⟨a, rfl, h⟩

/-- The operation on numbers that an operator stands for. -/
def BinaryOp.onNumbers : BinaryOp → Number → Number → Except Trouble Number
  | add => Number.add
  | sub => Number.sub
  | mul => Number.mul
  | div => Number.div
  | mod => Number.mod

/-- What an operator gives for two integers: a quotient is a float. -/
def BinaryOp.ofIntegers : BinaryOp → Ty
  | div => .float
  | _ => .int

namespace Number

variable {x y z : Number} {ints : Int → Int → Except Trouble Number}
  {floats : Float → Float → Except Trouble Number}
  {complexes : Numeric.Complex → Numeric.Complex → Except Trouble Number}

/-- A float on either side makes the result a float. -/
theorem type?_of_lift {s t u : Ty} (hints : ∀ a b z, ints a b = .ok z → z.value.type? = some u)
    (hfloats : ∀ a b z, floats a b = .ok z → z.value.type? = some .float)
    (hx : x.value.type? = some s) (hy : y.value.type? = some t)
    (h : lift ints floats complexes x y = .ok z) :
    z.value.type? = some (if s = .float ∨ t = .float then .float else u) := by
  cases x with
  | int a =>
    cases hx
    cases y with
    | int b =>
      cases hy
      exact hints a b z h
    | float b =>
      cases hy
      obtain ⟨a', _, h⟩ := exists_ok_of_bind h
      exact hfloats a' b z h
    | complex b => cases hy
  | float a =>
    cases hx
    cases y with
    | int b =>
      cases hy
      obtain ⟨b', _, h⟩ := exists_ok_of_bind h
      exact hfloats a b' z h
    | float b =>
      cases hy
      exact hfloats a b z h
    | complex b => cases hy
  | complex a => cases hx

/-- Two numbers give a float if one of them is a float or an integer is divided by another. -/
theorem type?_of_onNumbers {op : BinaryOp} {s t : Ty} (hx : x.value.type? = some s)
    (hy : y.value.type? = some t) (h : op.onNumbers x y = .ok z) :
    z.value.type? = some (if s = .float ∨ t = .float then .float else op.ofIntegers) := by
  cases op with
  | add | sub | mul =>
    refine type?_of_lift (fun a b z h => ?_) (fun a b z h => ?_) hx hy h
    · cases h
      rfl
    · cases h
      rfl
  | div =>
    refine type?_of_lift (fun a b z h => ?_) (fun a b z h => ?_) hx hy h
    · simp only [divInts] at h
      split at h
      · cases h
      · split at h
        · cases h
          rfl
        · cases h
    · split at h
      · cases h
      · cases h
        rfl
  | mod =>
    refine type?_of_lift (fun a b z h => ?_) (fun a b z h => ?_) hx hy h
    · simp only [modInts] at h
      split at h
      · cases h
      · cases h
        rfl
    · simp only [modFloats] at h
      split at h
      · cases h
      · cases h
        rfl

end Number

namespace Run

variable {m m' : Machine}

/-- An operator on numbers gives the value of a number. -/
theorem exists_onNumbers_of_arithmetic {op : BinaryOp} {x y : Number} {v : Value}
    (h : arithmetic op x y m = .ok v m') : ∃ z, op.onNumbers x y = .ok z ∧ v = z.value := by
  have hvalue : ∀ r : Except Trouble Number,
      (do return (← ofTrouble r).value : Run Value) m = .ok v m' →
        ∃ z, r = .ok z ∧ v = z.value := by
    intro r hr
    cases r with
    | ok z =>
      cases hr
      exact ⟨z, rfl, rfl⟩
    | error t => cases hr
  cases op with
  | add | sub | mul => exact hvalue _ h
  | div | mod =>
    simp only [arithmetic] at h
    split at h
    · cases h
    · exact hvalue _ h

end Run

/-! ## the table of what comes out -/

/-- The type of what an operator gives for operands of two types, if it gives anything: texts
are joined with everything and take no other operator, and truth values count as integers. -/
def BinaryOp.outcome? (op : BinaryOp) (s t : Ty) : Option Ty :=
  if s = .string ∨ t = .string then
    if op = .add then some .string else none
  else some (if s = .float ∨ t = .float then .float else op.ofIntegers)

namespace Run

variable {m m' : Machine} {symbol : String} {a b v : Value} {s t : Ty}

theorem isText_iff (h : a.type? = some s) : isText a = true ↔ s = .string := by
  cases a <;> cases h <;> simp [isText]

/-- Everything but a text counts as a number. -/
theorem exists_realNumber (h : a.type? = some s) (hs : s ≠ .string) :
    ∃ x, a.realNumber? = some x ∧ x.value.type? = some (if s = .float then .float else .int) := by
  cases a with
  | bool b | int n | float x =>
    cases h
    exact ⟨_, rfl, rfl⟩
  | str w =>
    cases h
    exact (hs rfl).elim
  | _ => cases h

theorem realNumber?_of_string (h : a.type? = some .string) : a.realNumber? = none := by
  cases a <;> cases h
  rfl

/-- What comes out of an operator has the type that the table says. -/
theorem type?_of_applyBinary {op : BinaryOp} (hop : BinaryOp.ofSymbol? symbol = some op)
    (ha : a.type? = some s) (hb : b.type? = some t) (h : applyBinary symbol a b m = .ok v m') :
    ∃ u, op.outcome? s t = some u ∧ v.type? = some u := by
  simp only [applyBinary, hop, isText_iff ha, isText_iff hb] at h
  split at h
  · next hjoin =>
    obtain ⟨u, m₁, _, h⟩ := bind_eq_ok_iff.mp h
    obtain ⟨w, m₂, _, h⟩ := bind_eq_ok_iff.mp h
    cases h
    exact ⟨.string, by rw [BinaryOp.outcome?, if_pos hjoin.2, if_pos hjoin.1], rfl⟩
  · next hjoin =>
    by_cases hs : s = .string
    · subst hs
      rw [realNumber?_of_string ha] at h
      cases h
    · obtain ⟨x, hx, hxtype⟩ := exists_realNumber ha hs
      by_cases ht : t = .string
      · subst ht
        rw [hx, realNumber?_of_string hb] at h
        cases h
      · obtain ⟨y, hy, hytype⟩ := exists_realNumber hb ht
        rw [hx, hy] at h
        obtain ⟨z, hz, rfl⟩ := exists_onNumbers_of_arithmetic h
        refine ⟨_, if_neg (by simp [hs, ht]), ?_⟩
        rw [Number.type?_of_onNumbers hxtype hytype hz]
        by_cases hsf : s = .float <;> by_cases htf : t = .float <;> simp [hsf, htf]

/-- An operation evaluates its left operand, then its right one, and applies the operator. -/
theorem evaluateBinary_eq (p : Program) (op : String) (left right : Node) :
    evaluateBinary p op left right = binary op (evaluate p left) (evaluate p right) := by
  funext m
  have hrun := sameAt_callFunction p m.budget
  have hsame : ∀ n, SameAt m.budget (evaluateWith p (execute p m.budget) n) (evaluate p n) := by
    intro n
    rw [evaluate_eq]
    exact evaluateWith_congr hrun (callFunction_moves p) n
  have hmoves : ∀ n, Moves SameSetting (evaluate p n) :=
    fun n => (evaluate_moves p n).mono fun _ _ => OnlyWorld.sameSetting
  refine SameAt.inContext .binary (.bind (hsame left) (hmoves left) fun a => ?_) m rfl
  exact .bind (hsame right) (hmoves right) fun b => .refl _

/-- The result of an operation comes out of its operator. -/
theorem applyBinary_of_evaluateBinary {p : Program} {op : String} {left right : Node}
    {m₁ m₂ : Machine} (hl : evaluate p left m = .ok a m₁) (hr : evaluate p right m₁ = .ok b m₂)
    (h : evaluateBinary p op left right m = .ok v m') : applyBinary op a b m₂ = .ok v m' := by
  rw [evaluateBinary_eq, binary, inContext_eq_ok_iff, bind_of_ok hl, bind_of_ok hr] at h
  exact h

end Run

/-! ## the declared table -/

/-- The symbols of the operators. -/
def BinaryOp.symbols : List String := ["+", "-", "*", "/", "%"]

theorem BinaryOp.exists_ofSymbol? {symbol : String} (h : symbol ∈ symbols) :
    ∃ op, ofSymbol? symbol = some op := by
  simp only [symbols, List.mem_cons, List.not_mem_nil, or_false] at h
  rcases h with rfl | rfl | rfl | rfl | rfl <;> exact ⟨_, rfl⟩

/-- The declared type is wrong: the quotient of two integers is declared an integer, and a text
joined with a float is declared a float. -/
def Misjudged (s : Ty) (symbol : String) (t : Ty) : Prop :=
  symbol = "/" ∧ s = .int ∧ t = .int ∨
    symbol = "+" ∧ (s = .string ∧ t = .float ∨ s = .float ∧ t = .string)

instance (s : Ty) (symbol : String) (t : Ty) : Decidable (Misjudged s symbol t) :=
  inferInstanceAs (Decidable (_ ∨ _))

/-- The two tables, entry by entry: where the declared type is wrong, what comes out is a float
or a text. -/
theorem outcome?_table : (BinaryOp.symbols.all fun symbol => Ty.all.all fun s =>
    Ty.all.all fun t => binaryType s symbol t == .unknown ||
      ((BinaryOp.ofSymbol? symbol).bind (·.outcome? s t)).all fun u =>
        decide ((u = binaryType s symbol t ↔ ¬ Misjudged s symbol t) ∧
          (Misjudged s symbol t → u = if symbol = "/" then .float else .string))) = true := by
  decide

theorem binaryType_of_outcome? {symbol : String} {op : BinaryOp} {s t u : Ty}
    (hsymbol : symbol ∈ BinaryOp.symbols) (hop : BinaryOp.ofSymbol? symbol = some op)
    (hknown : binaryType s symbol t ≠ .unknown) (hu : op.outcome? s t = some u) :
    (u = binaryType s symbol t ↔ ¬ Misjudged s symbol t) ∧
      (Misjudged s symbol t → u = if symbol = "/" then .float else .string) := by
  have hall : ∀ t : Ty, t ∈ Ty.all := fun t => by cases t <;> decide
  have hentry := List.all_eq_true.mp (List.all_eq_true.mp
    (List.all_eq_true.mp outcome?_table symbol hsymbol) s (hall s)) t (hall t)
  simp only [hop, hu, Option.bind_some, Option.all_some, Bool.or_eq_true, beq_iff_eq,
    decide_eq_true_eq] at hentry
  exact hentry.resolve_left hknown

namespace Run

/-- **What operators are declared to give.**  Take two operands that evaluate, one after the
other, to truth values, numbers or texts, and an operation on them that succeeds.  If a type is
declared for it, this is the type of the result unless it is wrong: it is wrong for the quotient
of two integers, which is a float, and for a text joined with a float, which is a text. -/
theorem binaryType_holds_iff {p : Program} {m m₁ m₂ m' : Machine} {left right : Node}
    {op : String} {a b v : Value} {s t : Ty} (hop : op ∈ BinaryOp.symbols)
    (hl : evaluate p left m = .ok a m₁) (hr : evaluate p right m₁ = .ok b m₂)
    (ha : a.type? = some s) (hb : b.type? = some t)
    (hv : evaluateBinary p op left right m = .ok v m') (hknown : binaryType s op t ≠ .unknown) :
    (v.type? = some (binaryType s op t) ↔ ¬ Misjudged s op t) ∧
      (Misjudged s op t → v.type? = some (if op = "/" then .float else .string)) := by
  obtain ⟨o, ho⟩ := BinaryOp.exists_ofSymbol? hop
  have happly := applyBinary_of_evaluateBinary hl hr hv
  obtain ⟨u, hu, htype⟩ := type?_of_applyBinary ho ha hb happly
  simpa [htype] using binaryType_of_outcome? hop ho hknown hu

/-- The quotient of two integers is declared an integer, and it is a float; a text joined with a
float is declared a float, and it is a text. -/
theorem quotients_and_joined_texts :
    (∃ v m', evaluateBinary {} "/" (.num (.int 7)) (.num (.int 2)) {} = .ok v m' ∧
      binaryType .int "/" .int = .int ∧ v.type? = some .float) ∧
    ∃ v m', evaluateBinary {} "+" (.str "x") (.num (.float 1.5)) {} = .ok v m' ∧
      binaryType .string "+" .float = .float ∧ v.type? = some .string :=
  ⟨⟨_, _, rfl, rfl, rfl⟩, ⟨_, _, rfl, rfl, rfl⟩⟩

/-- Two integers add up to what is declared. -/
theorem sum_declared_int :
    let m : Machine := {}
    evaluate {} (.num (.int 7)) m = .ok (.int 7) m ∧
    evaluate {} (.num (.int 2)) m = .ok (.int 2) m ∧
    evaluateBinary {} "+" (.num (.int 7)) (.num (.int 2)) m = .ok (.int 9) m ∧
    (Value.int 9).type? = some (binaryType .int "+" .int) := by
  intro m
  have hl : evaluate {} (.num (.int 7)) m = .ok (.int 7) m := rfl
  have hr : evaluate {} (.num (.int 2)) m = .ok (.int 2) m := rfl
  have hv : evaluateBinary {} "+" (.num (.int 7)) (.num (.int 2)) m = .ok (.int 9) m := rfl
  have hlaw := binaryType_holds_iff (s := .int) (t := .int) (by decide) hl hr rfl rfl hv (by decide)
  exact ⟨hl, hr, hv, hlaw.1.mpr (by decide)⟩

end Run

end LetCall
