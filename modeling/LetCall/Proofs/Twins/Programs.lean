import LetCall.Proofs.Calls
import LetCall.Proofs.Twins.Evaluation

/-!
# LetCall.Proofs.Twins.Programs

Two programs side by side.  Once its modules are there, little of a program matters for its
run: what the environment has under each name, which function of the program a name stands
for where the environment has none, and the statements of a function up to its first return.

`Companions.Fits` says that two programs agree on all this, each with an environment of its
own, and `Machine.Alongside` relates the machines in which they run.

Main statement: `result_alongside`, that two such programs do the same and write the same.
-/

namespace LetCall

/-! ## functions that differ in dead code -/

/-- Two functions that differ only behind their first return. -/
structure FunctionDef.Trims (f f' : FunctionDef) : Prop where
  name : f'.name = f.name
  params : f'.params = f.params
  ret : f'.ret = f.ret
  live : Node.live f'.body = Node.live f.body

theorem FunctionDef.Trims.refl (f : FunctionDef) : f.Trims f := ⟨rfl, rfl, rfl, rfl⟩

/-- An environment hides the functions of a program that have the name of one of its own. -/
def Bindings.Hides (env : Bindings) (name : String) : Prop := ∃ f, env.get? name = some (.fn f)

namespace Run

/-- Nothing behind its first return is a part of what a body does. -/
theorem bodyWith_live (p : Program) (run : Executor) (ret : String) (ns : List Node) :
    bodyWith p run ret (Node.live ns) = bodyWith p run ret ns := by
  induction ns with
  | nil => rfl
  | cons n ns ih =>
    rw [Node.live]
    by_cases hreturn : n.isReturn = true
    · simp only [bodyWith, hreturn, if_true]
    · rw [if_neg hreturn, bodyWith, ih, bodyWith]

theorem frameOf_of_trims {f f' : FunctionDef} (h : f.Trims f') (args : List Value) :
    frameOf f' args = frameOf f args := by
  rw [frameOf, h.name, h.params, frameOf]

theorem callee?_of_hides {p : Program} {env : Bindings} {name : String} {f : Callable}
    (hname : name ≠ "") (h : env.get? name = some (.fn f)) :
    callee? p env name = some (.builtin f) := by
  simp only [callee?, hname, if_false, h]

theorem callee?_of_not_hides {p : Program} {env : Bindings} {name : String} (hname : name ≠ "")
    (h : ¬ env.Hides name) : callee? p env name = (p.find? name).map .user := by
  rw [callee?, if_neg hname]
  split
  · next f hf => exact (h ⟨f, hf⟩).elim
  · rfl

end Run

/-! ## machines and programs -/

/-- What two runs begin with once their modules are there: an environment and an output of
their own. -/
structure Companions where
  env : Bindings
  env' : Bindings
  written : String
  written' : String

/-- Two machines that agree on all but their environments and what they began with. -/
structure Machine.Alongside (C : Companions) (m m' : Machine) : Prop where
  env : m.env = C.env
  env' : m'.env = C.env'
  globals : m'.globals = m.globals
  stack : m'.stack = m.stack
  maxDepth : m'.maxDepth = m.maxDepth
  world : World.Beside C.written C.written' m.world m'.world

/-- The environments have the same under each name, and in the programs the names that are not
hidden, and `main`, stand for functions that differ in dead code only. -/
structure Companions.Fits (C : Companions) (p p' : Program) : Prop where
  get? : ∀ name, C.env'.get? name = C.env.get? name
  find? : ∀ name, name = "main" ∨ ¬ C.env.Hides name →
    Option.Rel FunctionDef.Trims (p.find? name) (p'.find? name)

namespace Machine.Alongside

variable {C : Companions} {m m' : Machine}

theorem worldly : Worldly (Alongside C) :=
  fun _ _ h => ⟨_, _, h.world, fun _ _ hworld => { h with world := hworld }⟩

theorem push (h : Alongside C m m') (f : Frame) : Alongside C (m.push f) (m'.push f) :=
  { h with stack := congrArg (f :: ·) h.stack }

theorem pop (h : Alongside C m m') : Alongside C m.pop m'.pop :=
  { h with stack := congrArg List.tail h.stack }

theorem lookup? (h : Alongside C m m') (henv : ∀ name, C.env'.get? name = C.env.get? name)
    (name : String) : m'.lookup? name = m.lookup? name := by
  rw [Machine.lookup?, h.stack, h.globals, h.env', henv, ← h.env, Machine.lookup?]

theorem bind (h : Alongside C m m') (name : String) (v : Value) :
    Alongside C (m.bind name v) (m'.bind name v) := by
  cases hstack : m.stack with
  | nil =>
    rw [bind_of_nil hstack, bind_of_nil (h.stack.trans hstack)]
    exact { h with globals := congrArg (Bindings.set · name v) h.globals }
  | cons f fs =>
    rw [bind_of_cons hstack, bind_of_cons (h.stack.trans hstack)]
    exact { h with stack := rfl }

theorem budget (h : Alongside C m m') : m'.budget = m.budget := by
  rw [Machine.budget, h.maxDepth, h.stack, Machine.budget]

end Machine.Alongside

namespace Run

variable {C : Companions} {p p' : Program} {m m' : Machine}

/-! ## functions -/

/-- Functions called under the same name echo each other if all do that differ in dead code
only. -/
theorem echoed_of_fits (hfits : C.Fits p p') {Q : Machine → Machine → Prop} {run run' : Executor}
    (hrun : ∀ f f', f.Trims f' → ∀ args, Echoes Q True (run f args) (run' f' args))
    (name : String) :
    Option.Rel (Callee.Echoed Q True run run') (callee? p C.env name) (callee? p' C.env' name) := by
  by_cases hname : name = ""
  · simp only [callee?, hname, if_true]
    exact .none
  by_cases hhides : C.env.Hides name
  · obtain ⟨f, hf⟩ := hhides
    rw [callee?_of_hides hname hf, callee?_of_hides hname ((hfits.get? name).trans hf)]
    exact .some (.builtin f)
  · have hhides' : ¬ C.env'.Hides name := by
      rintro ⟨f, hf⟩
      exact hhides ⟨f, (hfits.get? name).symm.trans hf⟩
    rw [callee?_of_not_hides hname hhides, callee?_of_not_hides hname hhides']
    have hrel := hfits.find? name (.inr hhides)
    generalize p.find? name = c, p'.find? name = c' at hrel
    cases hrel with
    | none => exact .none
    | some htrims => exact .some (.user (hrun _ _ htrims))

theorem alongside_alike (hfits : C.Fits p p') {run run' : Executor}
    (hrun : ∀ f f', f.Trims f' → ∀ args,
      Echoes (Machine.Alongside C) True (run f args) (run' f' args)) :
    Alike (Machine.Alongside C) True p p' run run' where
  worldly := Machine.Alongside.worldly
  lookup? _ _ h name := h.lookup? hfits.get? name
  bind _ _ h name v := h.bind name v
  callee? _ _ h name := by
    rw [h.env, h.env']
    exact echoed_of_fits hfits hrun name

/-- Functions that differ in dead code only echo each other.  The induction is on the frames
that may still be entered, which are as many in both runs. -/
theorem execute_alongside (hfits : C.Fits p p') (n : Nat) {f f' : FunctionDef} (h : f.Trims f')
    (args : List Value) :
    Echoes (Machine.Alongside C) True (execute p n f args) (execute p' n f' args) := by
  induction n generalizing f f' args with
  | zero =>
    refine .get_bind fun m m' hm => ?_
    rw [hm.maxDepth]
    exact .of_error hm
  | succ n ih =>
    unfold execute
    refine .get_bind fun m m' hm => ?_
    rw [hm.maxDepth, hm.stack, h.params, h.name, h.ret, frameOf_of_trims h]
    by_cases hdepth : m.maxDepth ≤ m.stack.length
    · rw [if_pos hdepth, if_pos hdepth]
      exact .of_error hm
    rw [if_neg hdepth, if_neg hdepth]
    by_cases hcount : args.length ≠ f.params.length
    · rw [if_pos hcount, if_pos hcount]
      exact .of_error hm
    rw [if_neg hcount, if_neg hcount, ← bodyWith_live p, ← bodyWith_live p', h.live]
    have halike := alongside_alike hfits fun _ _ htrims args => ih htrims args
    exact Echoes.inFrame _ (fun _ _ h => h.push _) (fun _ _ h => h.pop)
      (.inContext _ (bodyWith_echoes halike f.ret _)) m m' hm

theorem callFunction_alongside (hfits : C.Fits p p') {f f' : FunctionDef} (h : f.Trims f')
    (args : List Value) :
    Echoes (Machine.Alongside C) True (callFunction p f args) (callFunction p' f' args) := by
  refine .get_bind fun m m' hm => ?_
  rw [hm.budget]
  exact execute_alongside hfits _ h args m m' hm

theorem statement_alongside (hfits : C.Fits p p') (n : Node) :
    Echoes (Machine.Alongside C) True (statement p n) (statement p' n) := by
  rw [statement_eq, statement_eq]
  exact statementWith_echoes
    (alongside_alike hfits fun _ _ h args => callFunction_alongside hfits h args) n

theorem callMain_alongside (hfits : C.Fits p p') :
    Echoes (Machine.Alongside C) True (callMain p) (callMain p') := by
  have hrel := hfits.find? "main" (.inl rfl)
  unfold callMain
  generalize p.find? "main" = c, p'.find? "main" = c' at hrel
  cases hrel with
  | none => exact .throw _
  | some htrims => exact callFunction_alongside hfits htrims []

/-! ## programs -/

/-- What two machines begin with. -/
def companions (m m' : Machine) : Companions := ⟨m.env, m'.env, m.world.output, m'.world.output⟩

theorem alongside_refl (m : Machine) : Machine.Alongside (companions m m) m m where
  env := rfl
  env' := rfl
  globals := rfl
  stack := rfl
  maxDepth := rfl
  world := ⟨⟨"", String.append_empty.symm, String.append_empty.symm⟩, rfl, rfl, rfl, rfl, rfl⟩

/-- **Programs alongside each other**: if after their imports two machines agree on all but
their environments and outputs, and the programs fit together in these, then they run alike. -/
theorem result_alongside {names names' : List String} {m₁ m₁' : Machine}
    (hfunctions : p.functions ≠ []) (hfunctions' : p'.functions ≠ [])
    (himports : p.imports = some names) (himports' : p'.imports = some names')
    (hstatements : p'.statements = p.statements) (hloaded : imports names m = .ok () m₁)
    (hloaded' : imports names' m' = .ok () m₁') (hfits : C.Fits p p')
    (h : Machine.Alongside C m₁ m₁') :
    Echo (Machine.Alongside C) True (result p m) (result p' m') := by
  rw [result_eq hfunctions himports hloaded, result_eq hfunctions' himports' hloaded', hstatements]
  have hglobals := globals_echoes Machine.Alongside.worldly (statement_alongside hfits) p.statements
  exact hglobals.bind (fun _ => callMain_alongside hfits) m₁ m₁' h

end Run

end LetCall
