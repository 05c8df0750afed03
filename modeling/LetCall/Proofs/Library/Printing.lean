import LetCall.Library
import LetCall.Proofs.Library.Overlong
import LetCall.Proofs.Steps
import Mathlib.Data.List.Forall2

/-!
# LetCall.Proofs.Library.Printing

What is printed.  All arguments are converted before anything is written, so on an output that
takes every text a call writes one text and does not fail: the arguments with spaces between
them, or a note on the first of them that has no text (`Printed`).  The values without text are
known (`converted_eq_error_iff`).

Main statement: `print` writes such a text, and `println` the same text and a line feed
(`print_atomic`).
-/

namespace LetCall.Library

variable {v : Value} {vs : List Value} {t : String} {e : Trouble}

/-! ## single values -/

/-- A value as text, or why it has none. -/
def converted (v : Value) : Except Trouble String :=
  match v.text? with
  | some t => .ok t
  | none => .error .tooManyDigits

theorem converted_eq_ok_iff : converted v = .ok t ↔ v.text? = some t := by
  unfold converted
  cases v.text? <;> simp

/-- Only integers with too many digits, and lists that hold one, cannot be converted. -/
theorem converted_eq_error_iff : converted v = .error e ↔ v.Overlong ∧ e = .tooManyDigits := by
  rw [← Value.text?_eq_none_iff]
  unfold converted
  cases v.text? <;> simp [eq_comm]

/-- What a value is printed as: nothing and truth values have words of their own, a text is
itself, and everything else is printed as it is converted. -/
inductive Rendered : Value → String → Prop
  | null : Rendered .null "null"
  | true : Rendered (.bool true) "true"
  | false : Rendered (.bool false) "false"
  | str (s : String) : Rendered (.str s) s
  | other {v : Value} {t : String} (hnull : v ≠ .null) (hbool : ∀ b, v ≠ .bool b)
      (hstr : ∀ s, v ≠ .str s) (h : converted v = .ok t) : Rendered v t

theorem rendered_of_printed? (h : v.printed? = some t) : Rendered v t := by
  cases v with
  | null =>
    cases h
    exact .null
  | bool b =>
    cases b
    · cases h
      exact .false
    · cases h
      exact .true
  | str s =>
    cases h
    exact .str t
  | _ => exact .other nofun nofun nofun (converted_eq_ok_iff.mpr h)

/-- A value can be printed just if it can be converted: the words for nothing and truth values
stand for texts that they have. -/
theorem printed?_eq_none_iff : v.printed? = none ↔ converted v = .error .tooManyDigits := by
  have hconverted : converted v = .error .tooManyDigits ↔ v.text? = none := by
    simp [converted_eq_error_iff, Value.text?_eq_none_iff]
  rw [hconverted]
  cases v <;> simp [Value.printed?, Value.text?, Value.shown?]

theorem exists_converted (h : v.printed? = some t) : ∃ s, converted v = .ok s := by
  cases hv : converted v with
  | ok s => exact ⟨s, rfl⟩
  | error e =>
    obtain ⟨_, rfl⟩ := converted_eq_error_iff.mp hv
    rw [printed?_eq_none_iff.mpr hv] at h
    cases h

/-! ## all arguments -/

/-- What a call writes: if all arguments can be converted, all of them as they are printed, with
single spaces between them; if one cannot, only a note on why the first of those cannot. -/
inductive Printed (vs : List Value) : String → Prop
  | whole {texts : List String} (hall : ∀ v ∈ vs, ∃ s, converted v = .ok s)
      (h : List.Forall₂ Rendered vs texts) : Printed vs (" ".intercalate texts)
  | note {before after : List Value} {v : Value} {e : Trouble} (hvs : vs = before ++ v :: after)
      (hbefore : ∀ u ∈ before, ∃ s, converted u = .ok s) (h : converted v = .error e) :
      Printed vs ("[Print Error: " ++ e.message ++ "]")

/-- A row of values is converted if its first is and then the others are. -/
theorem printedAll_cons_of_some (h : v.printed? = some t) :
    printedAll (v :: vs) = (printedAll vs).map (t :: ·) := by
  rw [printedAll, h]

theorem printedAll_cons_of_none (h : v.printed? = none) :
    printedAll (v :: vs) = .error .tooManyDigits := by
  rw [printedAll, h]

theorem rendered_of_printedAll {texts : List String} (h : printedAll vs = .ok texts) :
    (∀ v ∈ vs, ∃ s, converted v = .ok s) ∧ List.Forall₂ Rendered vs texts := by
  induction vs generalizing texts with
  | nil =>
    cases h
    exact ⟨nofun, .nil⟩
  | cons v vs ih =>
    cases hv : v.printed? with
    | none =>
      rw [printedAll_cons_of_none hv] at h
      cases h
    | some t =>
      rw [printedAll_cons_of_some hv] at h
      cases hvs : printedAll vs with
      | error e =>
        rw [hvs] at h
        cases h
      | ok ts =>
        rw [hvs] at h
        cases h
        obtain ⟨hall, hrendered⟩ := ih hvs
        exact ⟨List.forall_mem_cons.mpr ⟨exists_converted hv, hall⟩,
          .cons (rendered_of_printed? hv) hrendered⟩

/-- The failure of a row of values is that of the first of them that cannot be converted. -/
theorem exists_failing_of_printedAll (h : printedAll vs = .error e) :
    ∃ before v after, vs = before ++ v :: after ∧ (∀ u ∈ before, ∃ s, converted u = .ok s) ∧
      converted v = .error e := by
  induction vs with
  | nil => cases h
  | cons v vs ih =>
    cases hv : v.printed? with
    | none =>
      rw [printedAll_cons_of_none hv] at h
      cases h
      exact ⟨[], v, vs, rfl, nofun, printed?_eq_none_iff.mp hv⟩
    | some t =>
      rw [printedAll_cons_of_some hv] at h
      cases hvs : printedAll vs with
      | ok ts =>
        rw [hvs] at h
        cases h
      | error e' =>
        rw [hvs] at h
        cases h
        obtain ⟨before, u, after, rfl, hbefore, hu⟩ := ih hvs
        exact ⟨v :: before, u, after, rfl,
          List.forall_mem_cons.mpr ⟨exists_converted hv, hbefore⟩, hu⟩

/-! ## calls -/

section Print

variable {w : World} (hw : w.device = .anyText) (ending : String)

include hw

theorem print_of_ok {texts : List String} (h : printedAll vs = .ok texts) :
    print ending vs w = .ok .null (w.write (" ".intercalate texts ++ ending)) := by
  rw [print, bind_of_ok (show (get : WorldM Trouble World) w = .ok w w from rfl), h]
  simp only [hw]
  rfl

theorem print_of_error (h : printedAll vs = .error e) :
    print ending vs w =
      .ok .null (w.write ("[Print Error: " ++ e.message ++ "]" ++ ending)) := by
  rw [print, bind_of_ok (show (get : WorldM Trouble World) w = .ok w w from rfl), h]
  simp only [hw]
  rfl

/-- One text is printed as it is. -/
theorem print_line (line : String) :
    print "\n" [.str line] w = .ok .null (w.writeLine line) := by
  have hprinted : printedAll [.str line] = .ok [line] := rfl
  rw [print_of_ok hw "\n" hprinted, World.writeLine, String.intercalate_singleton]

end Print

/-- A call writes one text, and what comes behind it. -/
theorem exists_printed (vs : List Value) :
    ∃ text, Printed vs text ∧ ∀ w : World, w.device = .anyText →
      ∀ ending, print ending vs w = .ok .null (w.write (text ++ ending)) := by
  cases h : printedAll vs with
  | ok texts =>
    obtain ⟨hall, hrendered⟩ := rendered_of_printedAll h
    exact ⟨_, .whole hall hrendered, fun w hw ending => print_of_ok hw ending h⟩
  | error e =>
    obtain ⟨before, v, after, hvs, hbefore, hv⟩ := exists_failing_of_printedAll h
    exact ⟨_, .note hvs hbefore hv, fun w hw ending => print_of_error hw ending h⟩

/-- **Printing is atomic.**  For every list of values there is one text so that on an output that
takes every text `print` writes this text and `println` writes it and a line feed; neither fails,
and neither does anything else.  The text is all arguments as they are printed, with single
spaces between them, unless one of them cannot be converted; then it is only a note on why the
first of those cannot. -/
theorem print_atomic (vs : List Value) :
    ∃ text, Printed vs text ∧ ∀ w : World, w.device = .anyText →
      Builtin.print.call vs w = .ok .null (w.write text) ∧
      Builtin.println.call vs w = .ok .null (w.write (text ++ "\n")) := by
  obtain ⟨text, hprinted, hwrites⟩ := exists_printed vs
  refine ⟨text, hprinted, fun w hw => ⟨?_, hwrites w hw "\n"⟩⟩
  have hprint := hwrites w hw ""
  rw [String.append_empty] at hprint
  exact hprint

/-- An integer without text inside of a list leaves nothing of the arguments around it. -/
theorem overlong_noted :
    let vs : List Value := [.str "a", .list [.null, .int Numeric.digitBound], .bool true]
    let note := "[Print Error: " ++ Trouble.tooManyDigits.message ++ "]"
    let w : World := {}
    w.device = .anyText ∧ Builtin.print.call vs w = .ok .null (w.write note) ∧
      Builtin.println.call vs w = .ok .null (w.write (note ++ "\n")) := by
  intro vs note w
  obtain ⟨text, hprinted, hwrites⟩ := print_atomic vs
  have hoverlong : (Value.list [.null, .int Numeric.digitBound]).Overlong :=
    .list (List.mem_cons_of_mem _ List.mem_cons_self)
      (.int (Nat.le_of_eq (Int.natAbs_natCast _).symm))
  have htext : text = note := by
    cases hprinted with
    | whole hall _ =>
      obtain ⟨s, hs⟩ := hall _ (List.mem_cons_of_mem _ List.mem_cons_self)
      cases hs.symm.trans (converted_eq_error_iff.mpr ⟨hoverlong, rfl⟩)
    | note _ _ h =>
      obtain ⟨_, rfl⟩ := converted_eq_error_iff.mp h
      rfl
  subst htext
  exact ⟨rfl, hwrites w rfl⟩

end LetCall.Library
