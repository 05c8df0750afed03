import LetCall.Proofs.Frame.Imports

/-!
# LetCall.Proofs.Frame.Programs

What a whole run leaves behind.  Imports change the environment and the world, global
statements bind global variables one after the other up to the first that fails, and the
execution of `main` changes the world only; so the global variables at the end are those
of the longest successful row of global statements.

Main statements: `statement_effect`, `program_of_imports`, and `run_frame_law`, which puts
them together with what evaluation keeps.
-/

namespace LetCall.Run

/-! ## global statements -/

/-- Execute statements one after the other. -/
def executeAll (p : Program) : List Node → Run Unit
  | [] => return
  | n :: ns => do
    let _ ← statement p n
    executeAll p ns

/-- From `m` on, the longest row of statements at the start of `ns` that can be executed
leads to `m'`. -/
def LongestRow (p : Program) (ns : List Node) (m m' : Machine) : Prop :=
  ∃ k ≤ ns.length, executeAll p (ns.take k) m = .ok () m' ∧
    ∀ j, k < j → j ≤ ns.length → ∃ s m'', executeAll p (ns.take j) m = .error s m''

theorem statement_error {p : Program} {n : Node} {m m' : Machine} {s : Stop}
    (h : statement p n m = .error s m') : OnlyWorld m m' :=
  statementWith_error (execute_moves p m.budget) h

/-- A let that succeeds binds its name to its value, and any other statement changes
nothing but the world. -/
theorem statement_ok {p : Program} {n : Node} {m m' : Machine} {v : Value}
    (h : statement p n m = .ok v m') :
    (∃ name e, n = .letIn name e ∧ OnlyWorld (m.bind name v) m') ∨
    ((∀ name e, n ≠ .letIn name e) ∧ OnlyWorld m m') := by
  by_cases hn : ∃ name e, n = .letIn name e
  · obtain ⟨name, e, rfl⟩ := hn
    have hlet := statementWith_letIn (p := p) (execute_moves p m.budget) name e m
    rcases hlet with ⟨v', m'', hok, hm⟩ | ⟨s, m'', herror, _⟩
    · cases hok.symm.trans h
      exact .inl ⟨name, e, rfl, hm⟩
    · cases herror.symm.trans h
  · have hother : ∀ name e, n ≠ .letIn name e := fun name e he => hn ⟨name, e, he⟩
    have hm := statementWith_other (p := p) (execute_moves p m.budget) hother m
    rw [show statementWith p (execute p m.budget) n m = .ok v m' from h] at hm
    exact .inr ⟨hother, hm⟩

/-- Outside of all functions statements bind global variables only. -/
theorem executeAll_stack {p : Program} {ns : List Node} {m m' : Machine}
    (h : executeAll p ns m = .ok () m') (hm : m.stack = []) : m'.stack = [] := by
  induction ns generalizing m with
  | nil =>
    cases h
    exact hm
  | cons n ns ih =>
    cases hstatement : statement p n m with
    | error s m₁ =>
      have hrow : executeAll p (n :: ns) m = .error s m₁ := bind_of_error hstatement
      rw [hrow] at h
      cases h
    | ok v m₁ =>
      have hrow : executeAll p (n :: ns) m = executeAll p ns m₁ := bind_of_ok hstatement
      rw [hrow] at h
      refine ih h ?_
      rcases statement_ok hstatement with ⟨name, e, _, w, rfl⟩ | ⟨_, w, rfl⟩
      · simp only [Machine.bind, hm]
      · exact hm

/-- A global statement that fails changes nothing but the world. -/
theorem globalStatement_error {p : Program} {n : Node} {m m' : Machine} {s : Stop}
    (h : statement p n m = .error s m') :
    ∃ s' m'', globalStatement p n m = .error s' m'' ∧ OnlyWorld m m'' := by
  have hworld := statement_error h
  cases s with
  | fault f =>
    have hnote := Moves.putLine s!"Error executing global statement: {f.message}" m'
    exact ⟨_, _, tryCatch_of_error h, hworld.trans hnote⟩
  | interrupted s => exact ⟨_, _, tryCatch_of_error h, hworld⟩

/-- Global statements are executed as long as they succeed. -/
theorem globals_outcome (p : Program) (ns : List Node) (m : Machine) :
    ∃ m', LongestRow p ns m m' ∧
      (globals p ns m = .ok () m' ∨ ∃ s m'', globals p ns m = .error s m'' ∧ OnlyWorld m' m'') := by
  induction ns generalizing m with
  | nil =>
    refine ⟨m, ⟨0, Nat.le_refl _, rfl, fun j hj hle => ?_⟩, .inl rfl⟩
    rw [List.length_nil] at hle
    omega
  | cons n ns ih =>
    cases h : statement p n m with
    | ok v m₁ =>
      obtain ⟨m', ⟨k, hk, hrow, hlongest⟩, hglobals⟩ := ih m₁
      refine ⟨m', ⟨k + 1, Nat.succ_le_succ hk, (bind_of_ok h).trans hrow, ?_⟩, ?_⟩
      · intro j hj hle
        obtain ⟨j, rfl⟩ : ∃ i, j = i + 1 := ⟨j - 1, by omega⟩
        obtain ⟨s, m'', hrow'⟩ := hlongest j (by omega) (Nat.le_of_succ_le_succ hle)
        exact ⟨s, m'', (bind_of_ok h).trans hrow'⟩
      · have hstep : globals p (n :: ns) m = globals p ns m₁ := bind_of_ok (tryCatch_of_ok h)
        rw [hstep]
        exact hglobals
    | error s m₁ =>
      obtain ⟨s', m'', hglobal, hworld⟩ := globalStatement_error h
      refine ⟨m, ⟨0, Nat.zero_le _, rfl, ?_⟩, .inr ⟨s', m'', bind_of_error hglobal, hworld⟩⟩
      intro j hj hle
      obtain ⟨j, rfl⟩ : ∃ i, j = i + 1 := ⟨j - 1, by omega⟩
      exact ⟨s, m₁, bind_of_error h⟩

/-! ## whole runs -/

/-- A run always ends with an exit value, and telling of a fault changes the world only. -/
theorem exists_program (p : Program) (m : Machine) :
    ∃ v m', program p m = .ok v m' ∧ OnlyWorld (after (result p m)) m' := by
  cases h : result p m with
  | ok v m' =>
    have hexit : ∃ v', exitValue p m = .ok v' m' := by
      unfold exitValue
      rw [bind_of_ok h]
      cases v <;> exact ⟨_, rfl⟩
    obtain ⟨v', hv'⟩ := hexit
    exact ⟨v', m', tryCatch_of_ok hv', OnlyWorld.refl m'⟩
  | error s m' =>
    have hexit : exitValue p m = .error s m' := bind_of_error h
    cases s with
    | interrupted s => exact ⟨_, _, tryCatch_of_error hexit, Moves.putLine _ m'⟩
    | fault f => exact ⟨_, _, tryCatch_of_error hexit, Moves.putLine _ m'⟩

/-- Without functions, or without a list of imports, nothing is executed. -/
theorem result_of_nothing {p : Program} (h : p.functions = [] ∨ p.imports = none) (m : Machine) :
    after (result p m) = m := by
  unfold result
  by_cases hfunctions : p.functions.isEmpty = true
  · rw [if_pos hfunctions]
    rfl
  · have himports : p.imports = none := h.resolve_left fun hnil => hfunctions (by rw [hnil]; rfl)
    rw [if_neg hfunctions, himports]
    rfl

/-- After its imports a program executes its global statements and then its `main`. -/
theorem result_eq {p : Program} {names : List String} (hfunctions : p.functions ≠ [])
    (himports : p.imports = some names) {m m₁ : Machine} (hnames : imports names m = .ok () m₁) :
    result p m = (do globals p p.statements; callMain p : Run Value) m₁ := by
  have hempty : ¬ p.functions.isEmpty = true := by simpa using hfunctions
  unfold result
  rw [if_neg hempty, himports]
  exact bind_of_ok hnames

/-- What is executed changes the environment, then the global variables, and then the
world only. -/
theorem result_of_imports {p : Program} {names : List String} (hfunctions : p.functions ≠ [])
    (himports : p.imports = some names) (m : Machine) :
    ∃ m₁ m₂, imports names m = .ok () m₁ ∧ OnlyEnvironment m m₁ ∧
      LongestRow p p.statements m₁ m₂ ∧ OnlyWorld m₂ (after (result p m)) := by
  obtain ⟨m₁, hnames, henv⟩ := exists_imports names m
  obtain ⟨m₂, hrow, hglobals⟩ := globals_outcome p p.statements m₁
  refine ⟨m₁, m₂, hnames, henv, hrow, ?_⟩
  rw [result_eq hfunctions himports hnames]
  rcases hglobals with hok | ⟨s, m₃, herror, hworld⟩
  · rw [bind_of_ok hok, callMain]
    cases p.find? "main" with
    | none => exact OnlyWorld.refl m₂
    | some f => exact callFunction_moves p f [] m₂
  · rw [bind_of_error herror]
    exact hworld

/-- A statement that succeeds changes nothing but the world unless it is a let; a let binds
its name in the innermost frame, or globally outside of all functions. -/
theorem statement_effect {p : Program} {n : Node} {m m' : Machine} {v : Value}
    (h : statement p n m = .ok v m') :
    ((∀ name e, n ≠ .letIn name e) → OnlyWorld m m') ∧
    ∀ name e, n = .letIn name e →
      (m.stack = [] → ∃ w, m' = { m with globals := m.globals.set name v, world := w }) ∧
      ∀ f fs, m.stack = f :: fs →
        ∃ w, m' =
          { m with stack := { f with locals := f.locals.set name v } :: fs, world := w } := by
  rcases statement_ok h with ⟨name, e, rfl, hm⟩ | ⟨hother, hm⟩
  · refine ⟨fun hother => (hother name e rfl).elim, fun name' e' hlet => ?_⟩
    cases hlet
    exact ⟨hm.of_bind_nil, hm.of_bind_cons⟩
  · exact ⟨fun _ => hm, fun name e hlet => (hother name e hlet).elim⟩

/-- Without a function, or without a list of imports, a run leaves a machine as it was but
for the world. -/
theorem program_of_nothing {p : Program} (h : p.functions = [] ∨ p.imports = none) (m : Machine) :
    ∃ v m', program p m = .ok v m' ∧ OnlyWorld m m' := by
  obtain ⟨v, m', hprogram, hworld⟩ := exists_program p m
  rw [result_of_nothing h] at hworld
  exact ⟨v, m', hprogram, hworld⟩

/-- A run outside of all functions ends there, with the global variables of the longest row
of global statements that could be executed. -/
theorem program_of_imports {p : Program} {names : List String} (hfunctions : p.functions ≠ [])
    (himports : p.imports = some names) {m : Machine} (hstack : m.stack = []) :
    ∃ v m', program p m = .ok v m' ∧ m'.stack = [] ∧
      ∃ m₁ m₂, imports names m = .ok () m₁ ∧ OnlyEnvironment m m₁ ∧
        LongestRow p p.statements m₁ m₂ ∧ m'.globals = m₂.globals := by
  obtain ⟨v, m', hprogram, hworld⟩ := exists_program p m
  obtain ⟨m₁, m₂, hnames, henv, hrow, hresult⟩ := result_of_imports hfunctions himports m
  obtain ⟨w, rfl⟩ := hresult.trans hworld
  have hstack₁ : m₁.stack = [] := by
    obtain ⟨e, w, rfl⟩ := henv
    exact hstack
  have hstack₂ : m₂.stack = [] := by
    obtain ⟨k, _, hexecuted, _⟩ := hrow
    exact executeAll_stack hexecuted hstack₁
  exact ⟨v, _, hprogram, hstack₂, m₁, m₂, hnames, henv, hrow, rfl⟩

/-- **What running a program can change.**  Evaluation of any kind and the execution of a
function change nothing but the world, with a value or without.  A statement that fails
changes nothing but the world either; one that succeeds does so too unless it is a let,
which binds its name in the innermost frame, or globally outside of all functions.  So
after a whole run no frame is left, and the global variables are those of the longest row
of global statements that could be executed; none if the program has no function. -/
theorem run_frame_law (p : Program) :
    (∀ n, Moves OnlyWorld (evaluate p n)) ∧
    (∀ name args, Moves OnlyWorld (evaluateCall p name args)) ∧
    (∀ op left right, Moves OnlyWorld (evaluateBinary p op left right)) ∧
    (∀ op operand, Moves OnlyWorld (evaluateUnary p op operand)) ∧
    (∀ f args, Moves OnlyWorld (callFunction p f args)) ∧
    (∀ n m s m', statement p n m = .error s m' → OnlyWorld m m') ∧
    (∀ n m v m', statement p n m = .ok v m' →
      ((∀ name e, n ≠ .letIn name e) → OnlyWorld m m') ∧
      ∀ name e, n = .letIn name e →
        (m.stack = [] → ∃ w, m' = { m with globals := m.globals.set name v, world := w }) ∧
        ∀ f fs, m.stack = f :: fs →
          ∃ w, m' =
            { m with stack := { f with locals := f.locals.set name v } :: fs, world := w }) ∧
    ∀ m, m.globals = [] → m.stack = [] →
      ∃ v m', program p m = .ok v m' ∧ m'.stack = [] ∧
        (p.functions = [] ∨ p.imports = none → m'.globals = []) ∧
        ∀ names, p.functions ≠ [] → p.imports = some names →
          ∃ m₁ m₂, imports names m = .ok () m₁ ∧ OnlyEnvironment m m₁ ∧
            LongestRow p p.statements m₁ m₂ ∧ m'.globals = m₂.globals := by
  refine ⟨evaluate_moves p, evaluateCall_moves p, evaluateBinary_moves p, evaluateUnary_moves p,
    callFunction_moves p, fun n m s m' => statement_error, fun n m v m' => statement_effect, ?_⟩
  intro m hglobals hstack
  by_cases hnothing : p.functions = [] ∨ p.imports = none
  · obtain ⟨v, m', hprogram, w, rfl⟩ := program_of_nothing hnothing m
    refine ⟨v, _, hprogram, hstack, fun _ => hglobals, fun names hfunctions himports => ?_⟩
    rcases hnothing with hnil | hnone
    · exact (hfunctions hnil).elim
    · rw [hnone] at himports
      cases himports
  · obtain ⟨hfunctions, hsome⟩ := not_or.mp hnothing
    obtain ⟨names, himports⟩ := Option.ne_none_iff_exists'.mp hsome
    obtain ⟨v, m', hprogram, hend, hrow⟩ := program_of_imports hfunctions himports hstack
    refine ⟨v, m', hprogram, hend, fun h => (hnothing h).elim, fun names' _ himports' => ?_⟩
    obtain rfl : names = names' := Option.some.inj (himports.symm.trans himports')
    exact hrow

/-- A program whose second global let fails. -/
def failingLet : Program where
  statements := [.letIn "a" (.num (.int 1)), .letIn "b" (.var "c"), .letIn "d" (.num (.int 2))]
  functions := [⟨"main", [], "INT", [.ret (.var "a")]⟩]

/-- The first let is executed, the second changes nothing, and the run ends with what the
first has left. -/
theorem run_failingLet :
    (∃ v m', statement failingLet (.letIn "a" (.num (.int 1))) {} = .ok v m' ∧
      ∃ w, m' = { globals := [("a", .int 1)], world := w }) ∧
    (∃ s m', statement failingLet (.letIn "b" (.var "c")) {} = .error s m' ∧ OnlyWorld {} m') ∧
    ∃ v m', program failingLet {} = .ok v m' ∧ m'.stack = [] ∧
      ∃ m₁ m₂, imports [] {} = .ok () m₁ ∧ OnlyEnvironment {} m₁ ∧
        LongestRow failingLet failingLet.statements m₁ m₂ ∧ m'.globals = m₂.globals := by
  obtain ⟨_, _, _, _, _, herror, hok, hrun⟩ := run_frame_law failingLet
  have hbinds : ∃ m', statement failingLet (.letIn "a" (.num (.int 1))) {} = .ok (.int 1) m' :=
    ⟨_, rfl⟩
  have hfails : ∃ s m', statement failingLet (.letIn "b" (.var "c")) {} = .error s m' := ⟨_, _, rfl⟩
  refine ⟨?_, ?_, ?_⟩
  · obtain ⟨m', hm'⟩ := hbinds
    exact ⟨.int 1, m', hm', ((hok _ _ _ _ hm').2 "a" _ rfl).1 rfl⟩
  · obtain ⟨s, m', hm'⟩ := hfails
    exact ⟨s, m', hm', herror _ _ _ _ hm'⟩
  · obtain ⟨v, m', hprogram, hstack, _, hglobals⟩ := hrun {} rfl rfl
    exact ⟨v, m', hprogram, hstack, hglobals [] (by simp [failingLet]) rfl⟩

end LetCall.Run
