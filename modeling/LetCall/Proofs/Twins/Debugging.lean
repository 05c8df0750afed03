import LetCall.Proofs.Library.Overlong
import LetCall.Proofs.Phases
import LetCall.Proofs.Twins.Calls

/-!
# LetCall.Proofs.Twins.Debugging

What saying what is done changes about a run.  The phases of a compilation that are asked to
say what they do write more than those that are not, and a program runs the same behind
whatever has been written.  But at the end they write the exit value and the variables, and an
integer with too many digits has no text: that failure is taken for one of the run.

Main statements: `program_blind`, and `debug_law`, which says just when the exit value of a
source is another one if it is run with debugging; `debugging_fails_overlong` is about a source
of that kind.
-/

namespace LetCall

/-! ## programs -/

namespace Run

variable {S : Surroundings} {d : Nat} {whole : Prop}

theorem fail_bind_blind {α : Type} (cause : Fault.Cause) (f : Unit → Run α) :
    Blind S d whole (fail cause >>= f) := fun _ _ h => .of_error h

theorem register_blind (md : Module) : Blind S d whole (register md) :=
  .bind (.onWorld beside_worldly (start_oblivious md)) fun _ =>
    .modify fun _ _ h => { h with env := congrArg (Bindings.setAll · md.exports) h.env }

theorem registerFound_blind (name : String) (found : Found) :
    Blind S d True (registerFound name found) := by
  cases found with
  | nothing => exact .throw _
  | noRegister => exact .throw _
  | withRegister f =>
    intro m m' h
    simp only [registerFound, h.env]
    obtain ⟨env, raised⟩ := f m.env
    cases raised with
    | none => exact .of_ok { h with env := rfl }
    | some message => exact .of_error { h with env := rfl }

theorem load_blind (name : String) : Blind S d True (load name) := by
  rcases load_cases name with ⟨cause, h⟩ | ⟨md, _, h⟩ | ⟨_, h⟩
  · rw [h]
    exact .throw _
  · rw [h]
    refine .tryCatch (register_blind md) fun s => ?_
    cases s <;> exact .throw _
  · intro m m' hm
    simp only [h, hm.world.modules]
    exact registerFound_blind name (m.world.modules name) m m' hm

theorem importModule_blind (name : String) : Blind S d True (importModule name) := by
  refine .tryCatch (load_blind name) fun s => ?_
  cases s with
  | fault f => exact .putLine beside_worldly _
  | interrupted s => exact .throw _

theorem imports_blind (names : List String) : Blind S d True (imports names) := by
  induction names with
  | nil => exact .pure ()
  | cons name names ih => exact .bind (importModule_blind name) fun _ => ih

section Programs

variable {p : Program} (hidden : S.Hidden d) (hfits : S.Fits True)

include hidden hfits

theorem result_blind : Blind S d True (result p) := by
  have hstatement : ∀ n, Blind S d True (statement p n) := by
    intro n
    rw [statement_eq]
    exact statementWith_echoes (beside_alike hidden (callFunction_blind hfits)) n
  have hmain : Blind S d True (callMain p) := by
    unfold callMain
    cases p.find? "main" with
    | none => exact .throw _
    | some f => exact callFunction_blind hfits f []
  unfold result
  by_cases hfunctions : p.functions.isEmpty = true
  · rw [if_pos hfunctions]
    exact fail_bind_blind _ _
  · rw [if_neg hfunctions]
    cases p.imports with
    | none => exact fail_bind_blind _ _
    | some names =>
      exact .bind (imports_blind names) fun _ =>
        .bind (globals_echoes beside_worldly hstatement p.statements) fun _ => hmain

/-- A program runs the same behind whatever has been written. -/
theorem program_blind : Blind S d True (program p) :=
  fun m m' h => program_echo beside_worldly (result_blind hidden hfits m m' h)

end Programs

end Run

/-! ## phases that write more -/

/-- Worlds side by side stay so related. -/
theorem World.Adds.of_beside {w w' w₁ w₁' : World} (h : w.Adds w')
    (hbeside : World.Beside w.output w'.output w₁ w₁') : w₁.Adds w₁' := by
  obtain ⟨text, hout, hout'⟩ := hbeside.output
  refine { hbeside with output := ?_ }
  rw [hout, hout', String.toList_append, String.toList_append]
  exact h.output.append (List.Sublist.refl _)

namespace Compile

variable {file : String} {limit : Nat}

section Echo

variable {α : Type} {s : String}

/-- What is only written by the second step. -/
theorem echoes_of_adding {e : Compiling Unit} (he : Adding e) {x : Compiling α}
    {g : Unit → Compiling α} (h : Echoes World.Adds True x (g ())) :
    Echoes World.Adds True x (e >>= g) := by
  intro w w' hw
  obtain ⟨w₁, hw₁, hadds⟩ := he w'
  rw [bind_of_ok hw₁]
  exact h w w₁ (hw.trans hadds)

theorem echoes_putLine : Echoes World.Adds True (putLine s : Compiling Unit) (putLine s) :=
  .modify fun _ _ h => h.write _

theorem echoes_debugLine {f g : Unit → Compiling α} (h : Echoes World.Adds True (f ()) (g ())) :
    Echoes World.Adds True (debugLine ⟨file, false, limit⟩ s >>= f)
      (debugLine ⟨file, true, limit⟩ s >>= g) :=
  echoes_of_adding (.putLine s) h

theorem echoes_forM {f : α → Compiling Unit}
    (hf : ∀ a, Echoes World.Adds True (f a) (f a)) (l : List α) :
    Echoes World.Adds True (l.forM f) (l.forM f) := by
  induction l with
  | nil => exact .pure ()
  | cons a l ih => exact .bind (hf a) fun _ => ih

end Echo

theorem tokenizePhase_echoes (code : Option String) :
    Echoes World.Adds True (tokenizePhase ⟨file, false, limit⟩ code)
      (tokenizePhase ⟨file, true, limit⟩ code) := by
  refine echoes_debugLine ?_
  cases code with
  | none => exact .bind echoes_putLine fun _ => .pure none
  | some code =>
    simp only
    cases tokenize code with
    | ok tokens => exact echoes_of_adding (showTokens_adding tokens) (.pure _)
    | error e =>
      refine .bind echoes_putLine fun _ => .bind echoes_putLine fun _ => ?_
      obtain ⟨tokens, errors⟩ := recover code
      cases tokens.isEmpty with
      | true => exact .bind echoes_putLine fun _ => .pure none
      | false =>
        exact .bind echoes_putLine fun _ =>
          .bind (echoes_forM (fun _ => echoes_putLine) errors) fun _ => .pure _

theorem parsePhase_echoes (items : List Item) :
    Echoes World.Adds True (parsePhase ⟨file, false, limit⟩ items)
      (parsePhase ⟨file, true, limit⟩ items) := by
  refine echoes_debugLine ?_
  cases Parsing.parse limit (.ofItems items) with
  | error e q => exact .throw _
  | ok program q =>
    have hend : Echoes World.Adds True (pure program : Compiling (Option Program))
        (do program.forM showProgram; return program) := by
      cases program with
      | none => exact .pure none
      | some p => exact echoes_of_adding (showProgram_adding p) (.pure _)
    simp only
    cases q.reports.isEmpty with
    | true => exact hend
    | false =>
      refine .bind echoes_putLine fun _ =>
        .bind (echoes_forM (fun _ => echoes_putLine) _) fun _ => ?_
      cases program with
      | none => exact .bind echoes_putLine fun _ => .pure none
      | some p => exact .bind echoes_putLine fun _ => hend

/-! ## runs -/

/-- A program that is run behind more output gives the same value and leaves the same
variables. -/
theorem exists_twin_run (p : Program) {w w' : World} (h : w.Adds w') :
    ∃ v m m', Run.program p { world := w } = .ok v m ∧ Run.program p { world := w' } = .ok v m' ∧
      m.world.Adds m'.world ∧ m'.visible = m.visible := by
  have hagrees : Machine.Agrees { world := w } { world := w' } :=
    ⟨rfl, rfl, rfl, h.device, h.now, h.clockBroken, h.timer, h.modules⟩
  obtain ⟨v, m, hrun, _⟩ := Run.exists_program p { world := w }
  have hfits : (Machine.surroundings { world := w } { world := w' }).Fits True :=
    ⟨Nat.le_refl 0, fun _ => rfl⟩
  have hecho := Run.program_blind (p := p) (.inr ⟨rfl, rfl⟩) hfits _ _ hagrees.beside
  obtain ⟨m', hrun', hbeside⟩ := hecho.ok v m hrun
  obtain ⟨own, hown, hstack, hstack'⟩ := hbeside.stack
  have hvisible : m'.visible = m.visible := by
    rw [List.length_eq_zero_iff.mp hown] at hstack hstack'
    rw [Machine.visible, Machine.visible, hstack, hstack', hbeside.globals]
    rfl
  exact ⟨v, m, m', hrun, hrun', h.of_beside hbeside.world, hvisible⟩

/-- The exit value or one of the variables in sight has no text. -/
def Unwritable (exit : Value) (m : Machine) : Prop :=
  exit.Overlong ∨ ∃ b ∈ m.visible, b.2.Overlong

/-- Writing how a run has ended fails just if something has no text. -/
theorem showOutcome_law (exit : Value) (m : Machine) (w : World) :
    ∃ w', w.Adds w' ∧ (¬ Unwritable exit m ∧ showOutcome exit m w = .ok () w' ∨
      Unwritable exit m ∧ ∃ t, showOutcome exit m w = .error t w') := by
  have hexit := Value.text?_eq_none_iff exit
  have hbound := Value.shownBindings?_eq_none_iff m.visible
  unfold showOutcome Unwritable
  rw [← hexit, ← hbound]
  cases exit.text? with
  | none => exact ⟨w, .refl w, .inr ⟨.inl rfl, _, rfl⟩⟩
  | some text =>
    let ended := w.writeLine s!"Program completed with exit code: {text}"
    have hended : w.Adds ended := .write_self w _
    cases m.visible with
    | nil => exact ⟨ended, hended, .inl ⟨by simp [Value.shownBindings?], rfl⟩⟩
    | cons b bs =>
      have hlead : w.Adds (ended.write "Final variables: ") := hended.trans (.write_self _ _)
      cases hshown : Value.shownBindings? (b :: bs) with
      | none =>
        refine ⟨_, hlead, .inr ⟨.inr rfl, .tooManyDigits, ?_⟩⟩
        simp only [hshown]
        rfl
      | some shown =>
        refine ⟨_, hlead.trans (.write_self _ (shown ++ "\n")), .inl ⟨by simp, ?_⟩⟩
        simp only [hshown]
        rfl

theorem interpretPhase_of_run {p : Program} {w : World} {v : Value} {m : Machine}
    (hrun : Run.program p { world := w } = .ok v m) :
    interpretPhase ⟨file, false, limit⟩ (some p) w = .ok v m.world := by
  unfold interpretPhase
  rw [bind_of_ok (rfl : debugLine ⟨file, false, limit⟩ _ w = .ok () w)]
  simp only
  rw [bind_of_ok (rfl : debugLine ⟨file, false, limit⟩ _ w = .ok () w),
    bind_of_ok (rfl : (get : Compiling World) w = .ok w w), hrun]
  rfl

/-- The world in which a program is run with debugging. -/
def announced (p : Program) (w : World) : World :=
  let names := Value.shownNames (({} : Machine).callableNames p)
  (w.writeLine "=== Interpretation Phase ===").writeLine s!"Available functions: {names}"

/-- With debugging a failure to write how the run has ended is one of the run. -/
theorem interpretPhase_of_debugged {p : Program} {w : World} {v : Value} {m : Machine}
    (hrun : Run.program p { world := announced p w } = .ok v m) :
    (∀ w', showOutcome v m m.world = .ok () w' →
      interpretPhase ⟨file, true, limit⟩ (some p) w = .ok v w') ∧
    ∀ t w', showOutcome v m m.world = .error t w' →
      ∃ s, interpretPhase ⟨file, true, limit⟩ (some p) w = .ok (.int 1) (w'.write s) := by
  have hsay : ∀ s w, debugLine ⟨file, true, limit⟩ s w = .ok () (w.writeLine s) := fun _ _ => rfl
  simp only [announced] at hrun
  unfold interpretPhase
  rw [bind_of_ok (hsay _ _)]
  simp only
  rw [bind_of_ok (hsay _ _), bind_of_ok (rfl : (get : Compiling World) _ = .ok _ _), hrun]
  constructor
  · intro w' hshown
    simp only [hshown]
    rfl
  · intro t w' hshown
    simp only [hshown]
    exact ⟨_, rfl⟩

/-- With debugging a run has the same exit value, unless something has no text. -/
theorem interpretPhase_law (p : Program) {w w' : World} (h : w.Adds w') :
    ∃ v m v' w₁, Run.program p { world := w } = .ok v m ∧
      interpretPhase ⟨file, false, limit⟩ (some p) w = .ok v m.world ∧
      interpretPhase ⟨file, true, limit⟩ (some p) w' = .ok v' w₁ ∧ m.world.Adds w₁ ∧
      (¬ Unwritable v m → v' = v) ∧ (Unwritable v m → v' = .int 1) := by
  have hannounced : w.Adds (announced p w') :=
    h.trans ((World.Adds.write_self w' _).trans (.write_self _ _))
  obtain ⟨v, m, m', hrun, hrun', hworld, hvisible⟩ := exists_twin_run p hannounced
  have hsame : Unwritable v m' ↔ Unwritable v m := by rw [Unwritable, hvisible, Unwritable]
  obtain ⟨hok, herror⟩ := interpretPhase_of_debugged hrun'
  obtain ⟨w₁, hadds, ⟨hwritable, hshown⟩ | ⟨hunwritable, t, hshown⟩⟩ :=
    showOutcome_law v m' m'.world
  · rw [hsame] at hwritable
    exact ⟨v, m, v, w₁, hrun, interpretPhase_of_run hrun, hok w₁ hshown, hworld.trans hadds,
      fun _ => rfl, fun hunwritable => (hwritable hunwritable).elim⟩
  · rw [hsame] at hunwritable
    obtain ⟨s, hs⟩ := herror t w₁ hshown
    exact ⟨v, m, .int 1, w₁.write s, hrun, interpretPhase_of_run hrun, hs,
      (hworld.trans hadds).trans (.write_self _ _), fun hwritable => (hwritable hunwritable).elim,
      fun _ => rfl⟩

/-! ## sources -/

/-- The run of a source leaves an exit value or a variable that has no text. -/
def LeavesUnwritable (file : String) (limit : Nat) (code : Option String) (w : World) : Prop :=
  ∃ tokens w₁ p w₂ v m, tokens ≠ [] ∧
    tokenizePhase ⟨file, false, limit⟩ code w = .ok (some tokens) w₁ ∧
    parsePhase ⟨file, false, limit⟩ (tokens.map .token) w₁ = .ok (some p) w₂ ∧
    Run.program p { world := w₂ } = .ok v m ∧ Unwritable v m

/-- How the outcome of a compilation with debugging follows from the outcome of the one without:
it is given up as that one is, and the exit value is the same unless `failing` holds. -/
structure Follows (failing : Prop) (r r' : EStateM.Result Abandoned World Value) : Prop where
  abandoned : ∀ a w, r = .error a w → ∃ w', r' = .error a w' ∧ w.Adds w'
  exit : ∀ v w, r = .ok v w → ∃ v' w', r' = .ok v' w' ∧ w.Adds w' ∧
    (¬ failing → v' = v) ∧ (failing → v' = .int 1)

theorem Follows.of_error {failing : Prop} {a : Abandoned} {w w' : World} (h : w.Adds w') :
    Follows failing (.error a w) (.error a w') where
  abandoned := by
    rintro _ _ ⟨⟩
    exact ⟨w', rfl, h⟩
  exit := by rintro _ _ ⟨⟩

/-- A compilation that ends before anything is run. -/
theorem Follows.of_one {failing : Prop} {w w' : World} (h : w.Adds w') :
    Follows failing (.ok (.int 1) w) (.ok (.int 1) w') where
  abandoned := by rintro _ _ ⟨⟩
  exit := by
    rintro _ _ ⟨⟩
    exact ⟨.int 1, w', rfl, h, fun _ => rfl, fun _ => rfl⟩

theorem interpretPhase_follows (p : Program) {failing : Prop} {w w' : World}
    (h : w.Adds w') (hfailing : ∀ v m, Run.program p { world := w } = .ok v m →
      (failing ↔ Unwritable v m)) :
    Follows failing (interpretPhase ⟨file, false, limit⟩ (some p) w)
      (interpretPhase ⟨file, true, limit⟩ (some p) w') := by
  obtain ⟨v, m, v', w₁, hrun, hplain, hdebug, hadds, hsame, hone⟩ :=
    @interpretPhase_law file limit p w w' h
  rw [hplain, hdebug]
  rw [← hfailing v m hrun] at hsame hone
  constructor
  · rintro _ _ ⟨⟩
  · rintro _ _ ⟨⟩
    exact ⟨v', w₁, rfl, hadds, hsame, hone⟩

/-- **Debugging only adds output**, where the output takes every text, but for one thing: it
writes the exit value and the variables at the end, and if one of them has no text, for an
integer with too many digits in it, the exit value is one.  That is so for every number of
reports after which the parser is given up, and then it is given up in both cases. -/
theorem debug_law (file : String) (limit : Nat) (code : Option String) (world : World) :
    let w := { world with device := .anyText }
    Follows (LeavesUnwritable file limit code w) (compileAndRun ⟨file, false, limit⟩ code w)
      (compileAndRun ⟨file, true, limit⟩ code w) := by
  intro w
  have htokenize := @tokenizePhase_echoes file limit code w w (.refl w)
  unfold compileAndRun
  cases hplain : tokenizePhase ⟨file, false, limit⟩ code w with
  | error a w₁ =>
    obtain ⟨w₁', hdebug, hadds⟩ := htokenize.error trivial a w₁ hplain
    rw [bind_of_error hplain, bind_of_error hdebug]
    exact .of_error hadds
  | ok tokens w₁ =>
    obtain ⟨w₁', hdebug, hadds⟩ := htokenize.ok tokens w₁ hplain
    rw [bind_of_ok hplain, bind_of_ok hdebug]
    match tokens with
    | none => exact .of_one hadds
    | some [] => exact .of_one hadds
    | some (t :: ts) =>
      have hparse := @parsePhase_echoes file limit ((t :: ts).map .token) w₁ w₁' hadds
      simp only
      unfold runItems
      cases hplain₂ : parsePhase ⟨file, false, limit⟩ ((t :: ts).map .token) w₁ with
      | error a w₂ =>
        obtain ⟨w₂', hdebug₂, hadds₂⟩ := hparse.error trivial a w₂ hplain₂
        rw [bind_of_error hplain₂, bind_of_error hdebug₂]
        exact .of_error hadds₂
      | ok program w₂ =>
        obtain ⟨w₂', hdebug₂, hadds₂⟩ := hparse.ok program w₂ hplain₂
        rw [bind_of_ok hplain₂, bind_of_ok hdebug₂]
        cases program with
        | none => exact .of_one hadds₂
        | some p =>
          refine interpretPhase_follows p hadds₂ fun v m hrun => ?_
          constructor
          · rintro ⟨tokens, w₃, q, w₄, v', m', _, htokens, hq, hrun', hunwritable⟩
            cases hplain.symm.trans htokens
            cases hplain₂.symm.trans hq
            cases hrun.symm.trans hrun'
            exact hunwritable
          · intro hunwritable
            exact ⟨t :: ts, w₁, p, w₂, v, m, by simp, hplain, hplain₂, hrun, hunwritable⟩

/-! ## a source that fails with debugging -/

/-- `floor(pi)`. -/
def floorOfPi : Node := .call "floor" [.var "pi"]

/-- The floor of π raised to the power of itself raised to the power of its own square. -/
def tower : Node :=
  .call "pow" [floorOfPi, .call "pow" [floorOfPi, .call "mul" [floorOfPi, floorOfPi]]]

/-- A source with that expression for a variable and an empty `main`. -/
def towerSource : String :=
  "import math; let x = pow(floor(pi), pow(floor(pi), mul(floor(pi), floor(pi)))) " ++
    "0 main() \x7b \x7d"

/-- The program that is read from it. -/
def towerProgram : Program where
  imports := some ["math"]
  statements := [.letIn "x" tower]
  functions := [⟨"main", [], "INT", []⟩]

/-- A power of integers that is not too large to be worked out. -/
theorem pow_ints {a b : Int} (ha : 1 < a.natAbs) (hb : 0 ≤ b)
    (hbits : (a.natAbs.log2 + 1) * b.toNat ≤ Number.bitLimit) :
    (Value.int a).pow (.int b) = .ok (.int (a.pow b.toNat)) := by
  have hpow : Number.pow (.int a) (.int b) = .ok (.int (a.pow b.toNat)) := by
    show Number.powInts a b = _
    unfold Number.powInts
    rw [if_neg (by omega), if_neg (by omega), if_neg (by omega)]
  show (Number.pow (.int a) (.int b)).map Number.value = _
  rw [hpow]
  rfl

theorem overlong_pow {a : Int} {n : Nat} (h : Numeric.digitBound ≤ a.natAbs.pow n) :
    (Value.int (a.pow n)).Overlong :=
  .int (h.trans_eq (Int.natAbs_pow a n).symm)

section Tower

variable (hfloor : Library.floor (.float 3.141592653589793) = .ok (.int 3))

include hfloor

theorem evaluate_tower {p : Program} {m : Machine} (hglobals : m.globals = [])
    (hstack : m.stack = [])
    (henv : ∀ name v, Bindings.get? Module.math.exports name = some v → m.env.get? name = some v) :
    Run.evaluate p tower m = .ok (.int (Int.pow 3 19683)) m := by
  have hpi : m.lookup? "pi" = some (.float 3.141592653589793) := by
    rw [Machine.lookup?, hstack, hglobals, henv "pi" _ rfl]
    rfl
  have hthree : Run.evaluate p floorOfPi m = .ok (.int 3) m :=
    Run.evaluate_builtin (b := .floor) (by decide) (henv _ _ rfl)
      (.cons (Run.evaluate_var_of_lookup? hpi) .nil) (congrArg some hfloor)
  have hnine : Run.evaluate p (.call "mul" [floorOfPi, floorOfPi]) m = .ok (.int 9) m :=
    Run.evaluate_builtin (b := .mul) (by decide) (henv _ _ rfl)
      (.cons hthree (.cons hthree .nil)) rfl
  have hpower : (Value.int 3).pow (.int 9) = .ok (.int 19683) := by
    rw [pow_ints (by decide) (by decide) (by decide)]
    rfl
  have hinner : Run.evaluate p (.call "pow" [floorOfPi, .call "mul" [floorOfPi, floorOfPi]]) m =
      .ok (.int 19683) m :=
    Run.evaluate_builtin (b := .pow) (by decide) (henv _ _ rfl) (.cons hthree (.cons hnine .nil))
      (congrArg some hpower)
  have htower : (Value.int 3).pow (.int 19683) = .ok (.int (Int.pow 3 19683)) :=
    pow_ints (by decide) (by decide) (by decide +kernel)
  exact Run.evaluate_builtin (b := .pow) (by decide) (henv _ _ rfl)
    (.cons hthree (.cons hinner .nil)) (congrArg some htower)

/-- The program ends well, with the power for its variable. -/
theorem run_tower (w : World) :
    ∃ m, Run.program towerProgram { world := w } = .ok (.int 0) m ∧
      m.visible = [("x", .int (Int.pow 3 19683))] := by
  let m₁ : Machine := { env := Bindings.setAll [] Module.math.exports, world := w }
  have hload : Run.load "math" { world := w } = .ok () m₁ :=
    tryCatch_of_ok (@Run.register_of_starts _ .math rfl)
  have hloaded : Run.imports ["math"] { world := w } = .ok () m₁ :=
    (bind_of_ok (tryCatch_of_ok hload)).trans rfl
  have hvalue := evaluate_tower hfloor (p := towerProgram) (m := m₁) rfl rfl fun name v hv => by
    rw [Bindings.get?_setAll Module.math.nodup_exports, hv, Option.some_or]
  generalize Int.pow 3 19683 = n at hvalue ⊢
  have hstatement : Run.statement towerProgram (.letIn "x" tower) m₁ =
      .ok (.int n) (m₁.bind "x" (.int n)) := by
    rw [Run.statement_letIn]
    exact Run.inContext_of_ok _ (bind_of_ok hvalue)
  have hglobals : Run.globals towerProgram [.letIn "x" tower] m₁ =
      .ok () (m₁.bind "x" (.int n)) :=
    (bind_of_ok (tryCatch_of_ok hstatement)).trans rfl
  have hmain : Run.callMain towerProgram (m₁.bind "x" (.int n)) =
      .ok .null (m₁.bind "x" (.int n)) := rfl
  have hresult : Run.result towerProgram { world := w } = .ok .null (m₁.bind "x" (.int n)) := by
    rw [Run.result_eq (p := towerProgram) (by simp [towerProgram]) rfl hloaded]
    exact (bind_of_ok hglobals).trans hmain
  exact ⟨_, tryCatch_of_ok (bind_of_ok hresult), rfl⟩

end Tower

/-- The tokens of the source. -/
def towerTokens : List Token :=
  [⟨.importWord, "import", 1, 1⟩, ⟨.ident, "math", 1, 8⟩, ⟨.semi, ";", 1, 12⟩,
    ⟨.letWord, "let", 1, 14⟩, ⟨.ident, "x", 1, 18⟩, ⟨.assign, "=", 1, 20⟩,
    ⟨.ident, "pow", 1, 22⟩, ⟨.lparen, "(", 1, 25⟩,
    ⟨.ident, "floor", 1, 26⟩, ⟨.lparen, "(", 1, 31⟩, ⟨.ident, "pi", 1, 32⟩, ⟨.rparen, ")", 1, 34⟩,
    ⟨.comma, ",", 1, 35⟩, ⟨.ident, "pow", 1, 37⟩, ⟨.lparen, "(", 1, 40⟩,
    ⟨.ident, "floor", 1, 41⟩, ⟨.lparen, "(", 1, 46⟩, ⟨.ident, "pi", 1, 47⟩, ⟨.rparen, ")", 1, 49⟩,
    ⟨.comma, ",", 1, 50⟩, ⟨.ident, "mul", 1, 52⟩, ⟨.lparen, "(", 1, 55⟩,
    ⟨.ident, "floor", 1, 56⟩, ⟨.lparen, "(", 1, 61⟩, ⟨.ident, "pi", 1, 62⟩, ⟨.rparen, ")", 1, 64⟩,
    ⟨.comma, ",", 1, 65⟩,
    ⟨.ident, "floor", 1, 67⟩, ⟨.lparen, "(", 1, 72⟩, ⟨.ident, "pi", 1, 73⟩, ⟨.rparen, ")", 1, 75⟩,
    ⟨.rparen, ")", 1, 76⟩, ⟨.rparen, ")", 1, 77⟩, ⟨.rparen, ")", 1, 78⟩,
    ⟨.int, "0", 1, 80⟩, ⟨.ident, "main", 1, 82⟩, ⟨.lparen, "(", 1, 86⟩, ⟨.rparen, ")", 1, 87⟩,
    ⟨.lbrace, "\x7b", 1, 89⟩, ⟨.rbrace, "\x7d", 1, 91⟩]

/-- A source that is run with exit value zero, and with debugging with exit value one.  What is
read from it is certain; what its variable comes to, three to the power of 19683, which has too
many digits, rests on the floor of π being three, since floats are not computed with here. -/
theorem debugging_fails_overlong :
    tokenizePhase {} (some towerSource) {} = .ok (some towerTokens) {} ∧
    parsePhase {} (towerTokens.map .token) {} = .ok (some towerProgram) {} ∧
    (Library.floor (.float 3.141592653589793) = .ok (.int 3) →
      LeavesUnwritable "<string>" reportLimit (some towerSource) {} ∧
      (∃ w, compileAndRun {} (some towerSource) {} = .ok (.int 0) w) ∧
      ∃ w, compileAndRun { debug := true } (some towerSource) {} = .ok (.int 1) w) := by
  have htokenize : tokenize towerSource = .ok towerTokens :=
    tokenize_eq_ok_iff.mpr (by decide +kernel)
  have htokens : tokenizePhase {} (some towerSource) {} = .ok (some towerTokens) {} :=
    tokenizePhase_of_tokenize htokenize {}
  have hphase : parsePhase {} (towerTokens.map .token) {} = .ok (some towerProgram) {} := rfl
  refine ⟨htokens, hphase, fun hfloor => ?_⟩
  obtain ⟨m, hrun, hvisible⟩ := run_tower hfloor {}
  have hoverlong : (Value.int (Int.pow 3 19683)).Overlong := overlong_pow (by decide +kernel)
  have hunwritable : Unwritable (.int 0) m := by
    right
    rw [hvisible]
    exact ⟨("x", .int (Int.pow 3 19683)), List.mem_singleton_self _, hoverlong⟩
  have hne : towerTokens ≠ [] := by simp [towerTokens]
  have hleaves : LeavesUnwritable "<string>" reportLimit (some towerSource) {} :=
    ⟨towerTokens, {}, towerProgram, {}, .int 0, m, hne, htokens, hphase, hrun, hunwritable⟩
  have hplain : compileAndRun {} (some towerSource) {} = .ok (.int 0) m.world :=
    (compileAndRun_of_phases hne htokens hphase).trans (interpretPhase_of_run hrun)
  -- the phases write more with debugging, and give the same tokens and the same program
  obtain ⟨w₁, htokens', hadds₁⟩ :=
    (tokenizePhase_echoes (some towerSource) {} {} (.refl {})).ok _ _ htokens
  obtain ⟨w₂, hphase', hadds₂⟩ := (parsePhase_echoes _ {} w₁ hadds₁).ok _ _ hphase
  obtain ⟨v, m', v', w₃, hrun', _, hdebug, _, _, hone⟩ := interpretPhase_law towerProgram hadds₂
  cases hrun.symm.trans hrun'
  rw [hone hunwritable] at hdebug
  exact ⟨hleaves, ⟨_, hplain⟩, w₃,
    (compileAndRun_of_phases hne htokens' hphase').trans hdebug⟩

end Compile

end LetCall
