import LetCall.Compile
import LetCall.Proofs.Lexing
import LetCall.Proofs.Steps

/-!
# LetCall.Proofs.Phases

What the first two phases of a compilation leave behind.  All that they do to the world is to
write, more of it if they are asked to say what they do; the tokens are those of the lexer,
with errors recovered from, and the program is what the parser gives.  What is left to do is to
run it.

Main statements: `tokenizePhase_gives`, `parsePhase_gives` and `compileAndRun_of_phases`.
-/

namespace LetCall

/-! ## worlds with more output -/

/-- The second world is the first with more output, in between and at the end. -/
structure World.Adds (w w' : World) : Prop where
  output : List.Sublist w.output.toList w'.output.toList
  device : w'.device = w.device
  now : w'.now = w.now
  clockBroken : w'.clockBroken = w.clockBroken
  timer : w'.timer = w.timer
  modules : w'.modules = w.modules

namespace World.Adds

variable {w w' w'' : World}

theorem refl (w : World) : Adds w w := ⟨List.Sublist.refl _, rfl, rfl, rfl, rfl, rfl⟩

theorem trans (h : Adds w w') (h' : Adds w' w'') : Adds w w'' where
  output := h.output.trans h'.output
  device := h'.device.trans h.device
  now := h'.now.trans h.now
  clockBroken := h'.clockBroken.trans h.clockBroken
  timer := h'.timer.trans h.timer
  modules := h'.modules.trans h.modules

theorem write_self (w : World) (s : String) : Adds w (w.write s) :=
  { refl w with output := by simp }

theorem write (h : Adds w w') (s : String) : Adds (w.write s) (w'.write s) :=
  { h with output := by simpa using h.output }

end World.Adds

namespace Compile

/-! ## steps that write -/

/-- A step that does nothing but write. -/
def Adding (e : Compiling Unit) : Prop := ∀ w, ∃ w', e w = .ok () w' ∧ w.Adds w'

namespace Adding

variable {α : Type} {e e' : Compiling Unit}

theorem pure : Adding (Pure.pure ()) := fun w => ⟨w, rfl, .refl w⟩

theorem putLine (s : String) : Adding (LetCall.putLine s) := fun w => ⟨_, rfl, .write_self w _⟩

theorem debugLine (o : Options) (s : String) : Adding (Compile.debugLine o s) := by
  unfold Compile.debugLine
  split
  · exact putLine s
  · exact pure

theorem bind (he : Adding e) (he' : Adding e') : Adding (e >>= fun _ => e') := by
  intro w
  obtain ⟨w₁, hw₁, hadds₁⟩ := he w
  obtain ⟨w₂, hw₂, hadds₂⟩ := he' w₁
  exact ⟨w₂, (bind_of_ok hw₁).trans hw₂, hadds₁.trans hadds₂⟩

theorem forM {f : α → Compiling Unit} (hf : ∀ a, Adding (f a)) (l : List α) :
    Adding (l.forM f) := by
  induction l with
  | nil => exact pure
  | cons a l ih => exact bind (hf a) ih

end Adding

theorem showTokens_adding (tokens : List Token) : Adding (showTokens tokens) := by
  refine .bind (.putLine _) (.bind (.forM (fun _ => .putLine _) _) ?_)
  split
  · exact .putLine _
  · exact .pure

theorem showProgram_adding (p : Program) : Adding (showProgram p) :=
  .bind (.putLine _) (.bind (.putLine _) (.bind (.putLine _) (.bind (.putLine _) (.putLine _))))

/-! ## what phases give -/

/-- Every value that a step gives is as `P` says, and nothing but writing has been done. -/
def Gives {α : Type} (P : α → Prop) (x : Compiling α) : Prop :=
  ∀ w a w', x w = .ok a w' → P a ∧ w.Adds w'

section Gives

variable {α : Type} {P Q : α → Prop}

theorem Gives.pure {a : α} (h : P a) : Gives P (Pure.pure a) := by
  intro w a' w' hok
  cases hok
  exact ⟨h, .refl w⟩

theorem Gives.after {e : Compiling Unit} {f : Unit → Compiling α} (he : Adding e)
    (hf : Gives P (f ())) : Gives P (e >>= f) := by
  intro w a w' hok
  obtain ⟨w₁, hw₁, hadds⟩ := he w
  rw [bind_of_ok hw₁] at hok
  obtain ⟨ha, hadds'⟩ := hf w₁ a w' hok
  exact ⟨ha, hadds.trans hadds'⟩

theorem Gives.mono {x : Compiling α} (h : ∀ a, P a → Q a) (hx : Gives P x) : Gives Q x :=
  fun w a w' hok => (hx w a w' hok).imp_left (h a)

end Gives

/-- The tokens of the first phase are those of the lexer, with errors recovered from. -/
theorem tokenizePhase_gives (o : Options) (code : Option String) :
    Gives (fun r => ∀ tokens, r = some tokens → ∃ text, tokens = (recover text).1)
      (tokenizePhase o code) := by
  unfold tokenizePhase
  refine .after (.debugLine o _) ?_
  cases code with
  | none => exact .after (.putLine _) (.pure (by simp))
  | some text =>
    have hrecovered : ∀ tokens, some (recover text).1 = some tokens →
        ∃ text, tokens = (recover text).1 := fun tokens h => ⟨text, (Option.some.inj h).symm⟩
    simp only
    cases h : tokenize text with
    | ok tokens =>
      rw [tokenize_eq_ok_iff.mp h] at hrecovered
      simp only
      split
      · exact .after (showTokens_adding tokens) (.pure hrecovered)
      · exact .pure hrecovered
    | error e =>
      simp only
      refine .after (.putLine _) (.after (.putLine _) ?_)
      split
      · exact .after (.putLine _) (.pure (by simp))
      · exact .after (.putLine _) (.after (.forM (fun _ => .putLine _) _) (.pure hrecovered))

/-- The second phase gives what the parser gives. -/
theorem parsePhase_gives (o : Options) (items : List Item) :
    Gives (fun r => ∃ q, Parsing.parse o.limit (.ofItems items) = .ok r q)
      (parsePhase o items) := by
  unfold parsePhase
  refine .after (.debugLine o _) ?_
  cases h : Parsing.parse o.limit (.ofItems items) with
  | error e q =>
    intro w a w' hok
    cases hok
  | ok r q =>
    have hshow : Adding (r.forM showProgram) := by
      cases r with
      | none => exact .pure
      | some p => exact showProgram_adding p
    have hend : Gives (· = r)
        (if o.debug then (do r.forM showProgram; return r) else return r) := by
      split
      · exact .after hshow (.pure rfl)
      · exact .pure rfl
    refine Gives.mono (fun r' (hr' : r' = r) => ⟨q, by rw [hr']⟩) ?_
    simp only
    split
    · refine .after (.putLine _) (.after (.forM (fun _ => .putLine _) _) ?_)
      split
      · next hnone =>
        exact .after (.putLine _) (.pure (Option.isNone_iff_eq_none.mp hnone).symm)
      · exact .after (.putLine _) hend
    · exact hend

/-! ## from a source to its run -/

/-- Nothing is written about a source without errors. -/
theorem tokenizePhase_of_tokenize {file : String} {limit : Nat} {code : String}
    {tokens : List Token} (h : tokenize code = .ok tokens) (w : World) :
    tokenizePhase ⟨file, false, limit⟩ (some code) w = .ok (some tokens) w := by
  unfold tokenizePhase
  simp only [h]
  rfl

theorem compileAndRun_of_phases {o : Options} {code : Option String} {w w₁ w₂ : World}
    {tokens : List Token} {p : Program} (hne : tokens ≠ [])
    (htokens : tokenizePhase o code w = .ok (some tokens) w₁)
    (hprogram : parsePhase o (tokens.map .token) w₁ = .ok (some p) w₂) :
    compileAndRun o code w = interpretPhase o (some p) w₂ := by
  unfold compileAndRun
  rw [bind_of_ok htokens]
  cases tokens with
  | nil => exact (hne rfl).elim
  | cons t ts => exact bind_of_ok hprogram

end Compile

end LetCall
