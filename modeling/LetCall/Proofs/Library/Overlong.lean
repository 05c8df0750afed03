import LetCall.Machine.Bindings

/-!
# LetCall.Proofs.Library.Overlong

Values without text.  An integer may have too many digits to be written, and then a list that
holds it cannot be written either; every other value has a text.

Main statements: `Value.text?_eq_none_iff`, and for bindings `Value.shownBindings?_eq_none_iff`.
-/

namespace LetCall

/-- A value that has no text: an integer with too many digits, or a list that holds such a
value. -/
inductive Value.Overlong : Value → Prop
  | int {n : Int} (h : Numeric.digitBound ≤ n.natAbs) : Overlong (.int n)
  | list {vs : List Value} {v : Value} (hv : v ∈ vs) (h : v.Overlong) : Overlong (.list vs)

namespace Value

theorem overlong_int_iff {n : Int} : (int n).Overlong ↔ Numeric.digitBound ≤ n.natAbs := by
  constructor
  · rintro ⟨h⟩
    exact h
  · exact .int

theorem overlong_list_iff {vs : List Value} : (list vs).Overlong ↔ ∃ v ∈ vs, v.Overlong := by
  constructor
  · rintro (_ | ⟨hv, h⟩)
    exact ⟨_, hv, h⟩
  · rintro ⟨v, hv, h⟩
    exact .list hv h

-- by recursion on the value, as writing itself
mutual

theorem shown?_eq_none_iff : (v : Value) → (v.shown? = none ↔ v.Overlong)
  | .null => by simp [shown?]; nofun
  | .bool _ => by simp [shown?]; nofun
  | .int n => by
    rw [overlong_int_iff, shown?, Numeric.intText?]
    by_cases hn : n.natAbs < Numeric.digitBound
    · simp [hn]
    · simp [hn, Nat.le_of_not_lt hn]
  | .float _ => by simp [shown?]; nofun
  | .str _ => by simp [shown?]; nofun
  | .list vs => by
    rw [overlong_list_iff, shown?, Option.map_eq_none_iff]
    exact shownAll?_eq_none_iff vs
  | .complex _ _ => by simp [shown?]; nofun
  | .fn _ => by simp [shown?]; nofun
termination_by structural v => v

theorem shownAll?_eq_none_iff :
    (vs : List Value) → (shownAll? vs = none ↔ ∃ v ∈ vs, v.Overlong)
  | [] => by simp [shownAll?]
  | v :: vs => by
    have hv := shown?_eq_none_iff v
    have hvs := shownAll?_eq_none_iff vs
    simp only [List.mem_cons, exists_eq_or_imp, ← hv, ← hvs, shownAll?]
    cases v.shown? with
    | none => simp
    | some t => cases shownAll? vs <;> simp
termination_by structural vs => vs

end

theorem text?_eq_none_iff (v : Value) : v.text? = none ↔ v.Overlong := by
  cases v with
  | str s => simp [text?]; nofun
  | _ => exact shown?_eq_none_iff _

theorem shownBindings?_eq_none_iff (bs : Bindings) :
    shownBindings? bs = none ↔ ∃ b ∈ bs, b.2.Overlong := by
  have hentries : (bs.mapM fun b => do return Text.quoted b.1 ++ ": " ++ (← b.2.shown?)) = none ↔
      ∃ b ∈ bs, b.2.Overlong := by
    induction bs with
    | nil => simp
    | cons b bs ih =>
      simp only [List.mem_cons, exists_eq_or_imp, ← shown?_eq_none_iff b.2, ← ih, List.mapM_cons]
      cases b.2.shown? with
      | none => simp
      | some t =>
        cases bs.mapM fun b => do return Text.quoted b.1 ++ ": " ++ (← b.2.shown?) <;> simp
  rw [← hentries]
  unfold shownBindings?
  cases bs.mapM fun b => do return Text.quoted b.1 ++ ": " ++ (← b.2.shown?) <;> simp

end Value

end LetCall
