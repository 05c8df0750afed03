import LetCall.Proofs.Moments
import LetCall.Proofs.Twins

/-!
# LetCall.Proofs.Twins.Evaluation

Evaluation in two machines side by side.  Evaluation looks at a machine in few places only:
where it reads a variable, sets one, calls by name, or changes the world.  If in all of them a
relation between machines is kept (`Alike`), then what is made of these steps echoes as well.

Main statements: `evaluateWith_echoes`, `bodyWith_echoes`, and `program_echo` for whole runs.
-/

namespace LetCall

open Run

variable {α : Type} {Q Q' : Machine → Machine → Prop} {whole : Prop}

/-! ## steps -/

theorem Machine.bind_of_nil {m : Machine} (h : m.stack = []) (name : String) (v : Value) :
    m.bind name v = { m with globals := m.globals.set name v } := by
  simp only [Machine.bind, h]

theorem Machine.bind_of_cons {m : Machine} {f : Frame} {fs : List Frame} (h : m.stack = f :: fs)
    (name : String) (v : Value) :
    m.bind name v = { m with stack := { f with locals := f.locals.set name v } :: fs } := by
  simp only [Machine.bind, h]

/-- Related machines have worlds side by side, and stay related if these change. -/
def Worldly (Q : Machine → Machine → Prop) : Prop :=
  ∀ m m', Q m m' → ∃ o o', World.Beside o o' m.world m'.world ∧
    ∀ w w', World.Beside o o' w w' → Q { m with world := w } { m' with world := w' }

namespace Echoes

variable {x y : Run α}

theorem inContext (c : Context) (hx : Echoes Q whole x y) :
    Echoes Q whole (Run.inContext c x) (Run.inContext c y) := by
  intro m m' h
  have hecho := hx m m' h
  constructor
  · intro a m₁ hok
    obtain ⟨m₁', hm', h₁⟩ := hecho.ok a m₁ (inContext_eq_ok_iff.mp hok)
    exact ⟨m₁', inContext_of_ok c hm', h₁⟩
  · intro hwhole s m₁ herror
    obtain ⟨s', hm, rfl⟩ := inContext_eq_error_iff.mp herror
    obtain ⟨m₁', hm', h₁⟩ := hecho.error hwhole s' m₁ hm
    exact ⟨m₁', inContext_of_error c hm', h₁⟩

theorem inFrame (f : Frame) (hpush : ∀ m m', Q m m' → Q' (m.push f) (m'.push f))
    (hpop : ∀ m m', Q' m m' → Q m.pop m'.pop) (hx : Echoes Q' whole x y) :
    Echoes Q whole (Run.inFrame f x) (Run.inFrame f y) := by
  intro m m' h
  have hecho := hx _ _ (hpush m m' h)
  constructor
  · intro a m₂ hok
    obtain ⟨m₁, hm, rfl⟩ := inFrame_eq_ok_iff.mp hok
    obtain ⟨m₁', hm', h₁⟩ := hecho.ok a m₁ hm
    exact ⟨m₁'.pop, inFrame_eq_ok_iff.mpr ⟨m₁', hm', rfl⟩, hpop m₁ m₁' h₁⟩
  · intro hwhole s m₂ herror
    obtain ⟨m₁, hm, rfl⟩ := inFrame_eq_error_iff.mp herror
    obtain ⟨m₁', hm', h₁⟩ := hecho.error hwhole s m₁ hm
    exact ⟨m₁'.pop, inFrame_eq_error_iff.mpr ⟨m₁', hm', rfl⟩, hpop m₁ m₁' h₁⟩

/-- The world is changed alike, behind what was written before. -/
theorem onWorld (hQ : Worldly Q) {act : WorldM Trouble α} (hact : Oblivious act) :
    Echoes Q whole (Run.onWorld act) (Run.onWorld act) := by
  intro m m' h
  obtain ⟨o, o', hbeside, hkeep⟩ := hQ m m' h
  have hecho := hact o o' _ _ hbeside
  cases hw : act m.world with
  | ok a w =>
    obtain ⟨w', hw', hworld⟩ := hecho.ok a w hw
    simp only [Run.onWorld, hw, hw']
    exact .of_ok (hkeep w w' hworld)
  | error t w =>
    obtain ⟨w', hw', hworld⟩ := hecho.error trivial t w hw
    simp only [Run.onWorld, hw, hw']
    exact .of_error (hkeep w w' hworld)

theorem putLine (hQ : Worldly Q) (s : String) : Echoes Q whole (Run.putLine s) (Run.putLine s) := by
  refine .modify fun m m' h => ?_
  obtain ⟨o, o', hbeside, hkeep⟩ := hQ m m' h
  exact hkeep _ _ (hbeside.write _)

theorem invoke (hQ : Worldly Q) (f : Callable) (args : List Value) :
    Echoes Q whole (Run.invoke f args) (Run.invoke f args) := by
  cases f with
  | builtin b => exact .onWorld hQ (call_oblivious b args)
  | raising e => cases e <;> exact .throw _

theorem callBuiltin (hQ : Worldly Q) (name : String) (f : Callable) {args args' : Run (List Value)}
    (hargs : Echoes Q whole args args') :
    Echoes Q whole (Run.callBuiltin name f args) (Run.callBuiltin name f args') := by
  refine .rethrow (.bind hargs fun vs => .invoke hQ f vs) fun s => ?_
  cases s <;> exact ⟨_, rfl⟩

end Echoes

/-! ## evaluation -/

namespace Run

/-- What two programs call alike: the same function of the environment, or functions of the
programs that echo each other. -/
inductive Callee.Echoed (Q : Machine → Machine → Prop) (whole : Prop) (run run' : Executor) :
    Callee → Callee → Prop
  | builtin (f : Callable) : Echoed Q whole run run' (.builtin f) (.builtin f)
  | user {f f' : FunctionDef} (h : ∀ args, Echoes Q whole (run f args) (run' f' args)) :
      Echoed Q whole run run' (.user f) (.user f')

/-- Related machines are alike to evaluation: the same variables are found and can be set, and
names stand for functions that echo each other. -/
structure Alike (Q : Machine → Machine → Prop) (whole : Prop) (p p' : Program)
    (run run' : Executor) : Prop where
  worldly : Worldly Q
  lookup? : ∀ m m', Q m m' → ∀ name, m'.lookup? name = m.lookup? name
  bind : ∀ m m', Q m m' → ∀ name v, Q (m.bind name v) (m'.bind name v)
  callee? : ∀ m m', Q m m' → ∀ name, Option.Rel (Callee.Echoed Q whole run run')
    (Run.callee? p m.env name) (Run.callee? p' m'.env name)

section Evaluate

variable {p p' : Program} {run run' : Executor}

theorem getVariable_echoes (h : Alike Q whole p p' run run') (name : String) :
    Echoes Q whole (getVariable name) (getVariable name) := by
  refine .get_bind fun m m' hm => ?_
  rw [h.lookup? m m' hm]
  cases m.lookup? name with
  | some v => exact .of_ok hm
  | none => exact .of_error hm

theorem setVariable_echoes (h : Alike Q whole p p' run run') (name : String) (v : Value) :
    Echoes Q whole (setVariable name v) (setVariable name v) :=
  .modify fun m m' hm => h.bind m m' hm name v

theorem callNamed_echoes (h : Alike Q whole p p' run run') (name : String)
    {args args' : Run (List Value)} (hargs : Echoes Q whole args args') :
    Echoes Q whole (callNamed p run name args) (callNamed p' run' name args') := by
  intro m m' hm
  have hrel := h.callee? m m' hm name
  generalize hcallee : callee? p m.env name = c, hcallee' : callee? p' m'.env name = c' at hrel
  cases hrel with
  | none =>
    rw [callNamed_of_none run args hcallee, callNamed_of_none run' args' hcallee']
    exact .of_error hm
  | some hechoed =>
    cases hechoed with
    | builtin f =>
      rw [callNamed_of_builtin run args hcallee, callNamed_of_builtin run' args' hcallee']
      exact Echoes.callBuiltin h.worldly name f hargs m m' hm
    | user hrun =>
      rw [callNamed_of_user run args hcallee, callNamed_of_user run' args' hcallee']
      exact Echoes.inContext _ (.bind hargs fun vs => hrun vs) m m' hm

-- by recursion on the tree, as evaluation itself
mutual

theorem evaluateWith_echoes (h : Alike Q whole p p' run run') :
    (n : Node) → Echoes Q whole (evaluateWith p run n) (evaluateWith p' run' n)
  | .absent => .pure _
  | .str _ => .pure _
  | .num _ => .pure _
  | .var name => .inContext _ (getVariable_echoes h name)
  | .call name args =>
    .inContext _ (callNamed_echoes h name (argumentsWith_echoes h name 1 args))
  | .bin op l r =>
    .inContext _ (.inContext _ (.bind (evaluateWith_echoes h l) fun a =>
      .bind (evaluateWith_echoes h r) fun b => .settled (applyBinary_settled op a b)))
  | .un op x =>
    .inContext _ (.inContext _ (.bind (evaluateWith_echoes h x) fun a =>
      .settled (applyUnary_settled op a)))
  | .letIn _ _ => .inContext _ (.throw _)
  | .ret _ => .inContext _ (.throw _)
  | .foreign _ => .inContext _ (.throw _)
termination_by structural n => n

theorem argumentsWith_echoes (h : Alike Q whole p p' run run') (name : String) :
    (i : Nat) → (ns : List Node) →
      Echoes Q whole (argumentsWith p run name i ns) (argumentsWith p' run' name i ns)
  | _, [] => .pure _
  | i, n :: ns =>
    .bind (Echoes.inContext _ (evaluateWith_echoes h n)) fun _ =>
      .bind (argumentsWith_echoes h name (i + 1) ns) fun _ => .pure _
termination_by structural _ ns => ns

end

theorem statementWith_echoes (h : Alike Q whole p p' run run') (n : Node) :
    Echoes Q whole (statementWith p run n) (statementWith p' run' n) := by
  refine .inContext _ ?_
  cases n with
  | call name args => exact evaluateWith_echoes h _
  | ret v => exact evaluateWith_echoes h v
  | letIn name e =>
    exact .bind (evaluateWith_echoes h e) fun v =>
      .bind (setVariable_echoes h name v) fun _ => .pure v
  | _ => exact .throw _

theorem bodyWith_echoes (h : Alike Q whole p p' run run') (ret : String) (ns : List Node) :
    Echoes Q whole (bodyWith p run ret ns) (bodyWith p' run' ret ns) := by
  induction ns with
  | nil => exact .pure _
  | cons n ns ih =>
    refine .bind (statementWith_echoes h n) fun v => ?_
    by_cases hret : n.isReturn = true
    · rw [if_pos hret, if_pos hret]
      exact .pure v
    · rw [if_neg hret, if_neg hret]
      exact ih

end Evaluate

/-! ## programs -/

section Programs

variable {p p' : Program} {m m' : Machine}

theorem globals_echoes (hQ : Worldly Q)
    (hstatement : ∀ n, Echoes Q True (statement p n) (statement p' n)) (ns : List Node) :
    Echoes Q True (globals p ns) (globals p' ns) := by
  induction ns with
  | nil => exact .pure ()
  | cons n ns ih =>
    refine .bind (.tryCatch (hstatement n) fun s => ?_) fun _ => ih
    cases s with
    | fault f => exact .bind (.putLine hQ _) fun _ => .throw _
    | interrupted s => exact .throw _

/-- Whole runs echo each other if they do up to what their `main`s return. -/
theorem program_echo (hQ : Worldly Q) (h : Echo Q True (result p m) (result p' m')) :
    Echo Q True (program p m) (program p' m') := by
  have hexit : Echo Q True (exitValue p m) (exitValue p' m') := by
    refine h.bind fun v => ?_
    cases v <;> exact .pure _
  refine hexit.tryCatch fun s => ?_
  cases s with
  | interrupted s => exact .bind (.putLine hQ _) fun _ => .pure _
  | fault f => exact .bind (.putLine hQ _) fun _ => .pure _

end Programs

end Run

end LetCall
