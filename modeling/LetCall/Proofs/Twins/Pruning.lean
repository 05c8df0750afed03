import LetCall.Proofs.Twins.Programs

/-!
# LetCall.Proofs.Twins.Pruning

Dead code.  Three parts of a program are never executed: statements behind the first return of
a function, functions behind another one of the same name, and functions that the environment
hides once the modules are there.  A hidden `main` is no dead code, since a run does not look
for it in the environment.

Main statement: `pruning_changes_nothing`, that a program without some of this code runs the
same.
-/

namespace LetCall

/-- Statements behind a return are no part of what is live. -/
theorem Node.live_append {before : List Node} {n : Node} (after : List Node)
    (hbefore : ∀ k ∈ before, k.isReturn = false) (hn : n.isReturn = true) :
    Node.live (before ++ n :: after) = before ++ [n] := by
  induction before with
  | nil => simp [Node.live, hn]
  | cons k before ih =>
    rw [List.forall_mem_cons] at hbefore
    simp [Node.live, hbefore.1, ih hbefore.2]

/-- Functions that differ in what stands behind a return. -/
theorem FunctionDef.trims_behind_return (f : FunctionDef) {before : List Node} {n : Node}
    (after after' : List Node) (hbefore : ∀ k ∈ before, k.isReturn = false)
    (hn : n.isReturn = true) :
    FunctionDef.Trims { f with body := before ++ n :: after }
      { f with body := before ++ n :: after' } :=
  ⟨rfl, rfl, rfl, by rw [Node.live_append _ hbefore hn, Node.live_append _ hbefore hn]⟩

/-- The second functions are the first without some dead code, where `seen` are the names of
the functions before them. -/
inductive Prunes (env : Bindings) : List String → List FunctionDef → List FunctionDef → Prop
  | nil {seen : List String} : Prunes env seen [] []
  | keep {seen : List String} {f f' : FunctionDef} {fs fs' : List FunctionDef} (h : f.Trims f')
      (hrest : Prunes env (f.name :: seen) fs fs') : Prunes env seen (f :: fs) (f' :: fs')
  | dropSeen {seen : List String} {f : FunctionDef} {fs fs' : List FunctionDef}
      (h : f.name ∈ seen) (hrest : Prunes env (f.name :: seen) fs fs') :
      Prunes env seen (f :: fs) fs'
  | dropHidden {seen : List String} {f : FunctionDef} {fs fs' : List FunctionDef}
      (hmain : f.name ≠ "main") (h : env.Hides f.name)
      (hrest : Prunes env (f.name :: seen) fs fs') : Prunes env seen (f :: fs) fs'

/-- A name that is neither seen before nor hidden stands for the same function, up to what is
behind its first return. -/
theorem Prunes.find? {env : Bindings} {seen : List String} {fs fs' : List FunctionDef}
    (h : Prunes env seen fs fs') {name : String} (hname : name = "main" ∨ ¬ env.Hides name)
    (hseen : name ∉ seen) :
    Option.Rel FunctionDef.Trims (fs.find? (·.name = name)) (fs'.find? (·.name = name)) := by
  have hcons : ∀ {k : String} {seen : List String}, name ∉ seen → k ≠ name → name ∉ k :: seen := by
    intro k seen hseen hne
    simp [Ne.symm hne, hseen]
  induction h with
  | nil => exact .none
  | @keep seen f f' fs fs' htrims hrest ih =>
    by_cases hf : f.name = name
    · have hf' : f'.name = name := htrims.name.trans hf
      simp only [List.find?_cons, hf, hf', decide_true]
      exact .some htrims
    · have hf' : ¬ f'.name = name := fun heq => hf (htrims.name.symm.trans heq)
      simp only [List.find?_cons, hf, hf', decide_false]
      exact ih (hcons hseen hf)
  | @dropSeen seen f fs fs' hmem hrest ih =>
    have hf : ¬ f.name = name := by
      rintro rfl
      exact hseen hmem
    simp only [List.find?_cons, hf, decide_false]
    exact ih (hcons hseen hf)
  | @dropHidden seen f fs fs' hmain hhides hrest ih =>
    have hf : ¬ f.name = name := by
      rintro rfl
      exact hname.elim hmain fun hnot => hnot hhides
    simp only [List.find?_cons, hf, decide_false]
    exact ih (hcons hseen hf)

theorem Prunes.ne_nil {env : Bindings} {seen : List String} {fs fs' : List FunctionDef}
    (h : Prunes env seen fs fs') (hfs' : fs' ≠ []) : fs ≠ [] := by
  cases h with
  | nil => exact hfs'
  | _ => simp

namespace Run

/-- The machine in which the imports of a program leave a run. -/
def loaded (p : Program) (m : Machine) : Machine := after (imports (p.imports.getD []) m)

theorem imports_eq_loaded {p : Program} {names : List String} (h : p.imports = some names)
    (m : Machine) : imports names m = .ok () (loaded p m) := by
  obtain ⟨m₁, hloaded, _⟩ := exists_imports names m
  simp only [loaded, h, Option.getD_some, hloaded, after]

/-- Machines that begin as the same one are the same as long as they are alongside. -/
theorem eq_of_alongside {m₀ m m' : Machine} (h : Machine.Alongside (companions m₀ m₀) m m') :
    m' = m := by
  obtain ⟨env, globals, stack, maxDepth, ⟨output, device, now, clockBroken, timer, modules⟩⟩ := m
  obtain ⟨env', globals', stack', maxDepth',
    ⟨output', device', now', clockBroken', timer', modules'⟩⟩ := m'
  obtain ⟨text, hout, hout'⟩ := h.world.output
  have henv : env' = env := h.env'.trans h.env.symm
  have houtput : output' = output := hout'.trans hout.symm
  cases henv
  cases houtput
  cases h.globals
  cases h.stack
  cases h.maxDepth
  cases h.world.device
  cases h.world.now
  cases h.world.clockBroken
  cases h.world.timer
  cases h.world.modules
  rfl

theorem fits_of_prunes {p p' : Program} {m : Machine}
    (h : Prunes m.env [] p.functions p'.functions) : (companions m m).Fits p p' := by
  refine ⟨fun _ => rfl, fun name hname => ?_⟩
  unfold Program.find?
  by_cases hempty : name = ""
  · rw [if_pos hempty, if_pos hempty]
    exact .none
  · rw [if_neg hempty, if_neg hempty]
    exact h.find? hname (by simp)

theorem result_of_no_imports {p : Program} (hfunctions : p.functions ≠ [])
    (himports : p.imports = none) (m : Machine) :
    result p m = .error (.fault ⟨[], .importsMissing⟩) m := by
  simp only [result, himports, List.isEmpty_eq_false_iff.mpr hfunctions]
  rfl

theorem result_pruned {p p' : Program} {m : Machine}
    (hprunes : Prunes (loaded p m).env [] p.functions p'.functions) (hfunctions : p'.functions ≠ [])
    (himports : p'.imports = p.imports) (hstatements : p'.statements = p.statements) :
    Echo (Machine.Alongside (companions (loaded p m) (loaded p m))) True (result p m)
      (result p' m) := by
  have hfunctions₀ := hprunes.ne_nil hfunctions
  cases hnames : p.imports with
  | none =>
    have hloaded : loaded p m = m := by
      rw [loaded, hnames]
      rfl
    rw [result_of_no_imports hfunctions₀ hnames,
      result_of_no_imports hfunctions (himports.trans hnames), hloaded]
    exact .of_error (alongside_refl m)
  | some names =>
    have hloaded := imports_eq_loaded hnames m
    exact result_alongside hfunctions₀ hfunctions hnames (himports.trans hnames) hstatements hloaded
      hloaded (fits_of_prunes hprunes) (alongside_refl (loaded p m))

/-- **Dead code has no effect on a run.**  A program without some statements behind first
returns, some functions behind others of the same name and some that the environment hides
gives the same exit value, writes the same and leaves the same machine behind, as long as it
has a function. -/
theorem pruning_changes_nothing (p : Program) (m : Machine) (fs' : List FunctionDef)
    (hprunes : Prunes (loaded p m).env [] p.functions fs') (hfs' : fs' ≠ []) :
    program { p with functions := fs' } m = program p m := by
  have hresult := @result_pruned p { p with functions := fs' } m hprunes hfs' rfl rfl
  have hecho := program_echo Machine.Alongside.worldly hresult
  obtain ⟨v, m₁, hprogram, _⟩ := exists_program p m
  obtain ⟨m₁', hprogram', halong⟩ := hecho.ok v m₁ hprogram
  rw [hprogram, hprogram', eq_of_alongside halong]

/-- A program with dead code of all kinds. -/
def overgrown : Program where
  imports := some ["string"]
  functions :=
    [⟨"println", [], "int", [.ret (.num (.int 7))]⟩,
     ⟨"main", [], "int", [.call "println" [.str "a"], .ret (.call "one" []), .call "lost" []]⟩,
     ⟨"one", [], "int", [.ret (.num (.int 1))]⟩,
     ⟨"one", [⟨"num", "x"⟩], "int", []⟩,
     ⟨"main", [], "void", []⟩]

/-- What is live in it. -/
def pruned : List FunctionDef :=
  [⟨"main", [], "int", [.call "println" [.str "a"], .ret (.call "one" [])]⟩,
   ⟨"one", [], "int", [.ret (.num (.int 1))]⟩]

/-- Without its dead code it still writes a line and gives one. -/
theorem overgrown_pruned :
    Prunes (loaded overgrown {}).env [] overgrown.functions pruned ∧
    program { overgrown with functions := pruned } {} = program overgrown {} ∧
    ∃ m', program overgrown {} = .ok (.int 1) m' ∧ m'.world.output = "a\n" := by
  have htrims : FunctionDef.Trims
      ⟨"main", [], "int", [.call "println" [.str "a"]] ++ .ret (.call "one" []) :: [.call "lost" []]⟩
      ⟨"main", [], "int", [.call "println" [.str "a"]] ++ .ret (.call "one" []) :: []⟩ :=
    FunctionDef.trims_behind_return ⟨"main", [], "int", []⟩ _ _ (by simp [Node.isReturn]) rfl
  have hprunes : Prunes (loaded overgrown {}).env [] overgrown.functions pruned :=
    .dropHidden (by decide) ⟨_, rfl⟩ (.keep htrims (.keep (.refl _)
      (.dropSeen (by decide) (.dropSeen (by decide) .nil))))
  exact ⟨hprunes, pruning_changes_nothing _ _ _ hprunes (by decide), _, rfl, rfl⟩

end Run

end LetCall
