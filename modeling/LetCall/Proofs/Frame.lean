import LetCall.Machine.Run
import LetCall.Proofs.Steps
import Mathlib.Order.Defs.Unbundled

/-!
# LetCall.Proofs.Frame

What running a program can change.  Whatever comes of it, evaluating a node or executing a
function changes the world and nothing else of a machine: frames that are entered are left
again, also on the way out of a fault.  A statement changes nothing but the world if it
fails, and binds one name if it is a let that does not.

`Moves R x` says that a step `x` leads each machine to one that `R` relates it to, with a
value or without; it is passed along the steps of a run for every preorder `R`.

Main statements: `execute_moves`, `evaluate_moves`, `callFunction_moves`, and for statements
`statementWith_letIn`, `statementWith_other`, `statementWith_error`.
-/

namespace LetCall.Run

variable {α β : Type}

/-! ## what a step can change -/

/-- The machine in which a step ends, with a value or without. -/
def after : EStateM.Result Stop Machine α → Machine
  | .ok _ m => m
  | .error _ m => m

/-- Nothing but the world is changed. -/
def OnlyWorld (m m' : Machine) : Prop := ∃ w, m' = { m with world := w }

/-- Inside a function, nothing but its local variables and the world is changed. -/
def OnlyLocals (m m' : Machine) : Prop :=
  ∀ f fs, m.stack = f :: fs →
    ∃ bs w, m' = { m with stack := { f with locals := bs } :: fs, world := w }

/-- Nothing but the built-in environment and the world is changed. -/
def OnlyEnvironment (m m' : Machine) : Prop := ∃ e w, m' = { m with env := e, world := w }

/-- Every machine is led by a step to one that `R` relates it to. -/
def Moves (R : Machine → Machine → Prop) (x : Run α) : Prop := ∀ m, R m (after (x m))

theorem OnlyWorld.refl (m : Machine) : OnlyWorld m m := ⟨m.world, rfl⟩

theorem OnlyWorld.trans {m m' m'' : Machine} (h : OnlyWorld m m') (h' : OnlyWorld m' m'') :
    OnlyWorld m m'' := by
  obtain ⟨w, rfl⟩ := h
  obtain ⟨w', rfl⟩ := h'
  exact ⟨w', rfl⟩

theorem OnlyWorld.onlyLocals {m m' : Machine} (h : OnlyWorld m m') : OnlyLocals m m' := by
  intro f fs hstack
  obtain ⟨w, rfl⟩ := h
  exact ⟨f.locals, w, by rw [← hstack]⟩

theorem OnlyWorld.onlyEnvironment {m m' : Machine} (h : OnlyWorld m m') : OnlyEnvironment m m' := by
  obtain ⟨w, rfl⟩ := h
  exact ⟨m.env, w, rfl⟩

instance : IsPreorder Machine OnlyWorld where
  refl := OnlyWorld.refl
  trans _ _ _ := OnlyWorld.trans

instance : IsPreorder Machine OnlyLocals where
  refl m := (OnlyWorld.refl m).onlyLocals
  trans m m' m'' h h' := by
    intro f fs hstack
    obtain ⟨bs, w, rfl⟩ := h f fs hstack
    obtain ⟨bs', w', rfl⟩ := h' _ _ rfl
    exact ⟨bs', w', rfl⟩

instance : IsPreorder Machine OnlyEnvironment where
  refl m := (OnlyWorld.refl m).onlyEnvironment
  trans m m' m'' h h' := by
    obtain ⟨e, w, rfl⟩ := h
    obtain ⟨e', w', rfl⟩ := h'
    exact ⟨e', w', rfl⟩

namespace Moves

section Preorder

variable {R : Machine → Machine → Prop} [IsPreorder Machine R] {x : Run α}

theorem pure (a : α) : Moves R (Pure.pure a) := fun m => refl_of R m

theorem throw (s : Stop) : Moves R (MonadExcept.throw s : Run α) := fun m => refl_of R m

theorem fail (cause : Fault.Cause) : Moves R (Run.fail cause : Run α) := throw _

theorem settled (hx : Settled x) : Moves R x := by
  rcases hx with ⟨a, rfl⟩ | ⟨s, rfl⟩
  · exact pure a
  · exact throw s

/-- What would come after a fault does not matter. -/
theorem fail_bind (cause : Fault.Cause) {f : α → Run β} : Moves R (Run.fail cause >>= f) :=
  fun m => refl_of R m

theorem bind {f : α → Run β} (hx : Moves R x) (hf : ∀ a, Moves R (f a)) : Moves R (x >>= f) := by
  intro m
  have hm := hx m
  cases h : x m with
  | ok a m' =>
    rw [h] at hm
    rw [bind_of_ok h]
    exact trans_of R hm (hf a m')
  | error s m' =>
    rw [h] at hm
    rw [bind_of_error h]
    exact hm

theorem tryCatch {handler : Stop → Run α} (hx : Moves R x) (hh : ∀ s, Moves R (handler s)) :
    Moves R (MonadExcept.tryCatch x handler) := by
  intro m
  have hm := hx m
  cases h : x m with
  | ok a m' =>
    rw [h] at hm
    rw [tryCatch_of_ok h]
    exact hm
  | error s m' =>
    rw [h] at hm
    rw [tryCatch_of_error h]
    exact trans_of R hm (hh s m')

end Preorder

section Primitive

variable {R R' : Machine → Machine → Prop} {x : Run α}

/-- A step that looks at the machine first. -/
theorem get_bind {f : Machine → Run β} (hf : ∀ m, Moves R (f m)) :
    Moves R ((get : Run Machine) >>= f) := fun m => hf m m

theorem mono (h : ∀ m m', R m m' → R' m m') (hx : Moves R x) : Moves R' x :=
  fun m => h m _ (hx m)

theorem inContext (c : Context) (hx : Moves R x) : Moves R (Run.inContext c x) := by
  intro m
  have hm := hx m
  unfold Run.inContext
  cases h : x m with
  | ok a m' =>
    rw [h] at hm
    exact hm
  | error s m' =>
    rw [h] at hm
    cases s <;> exact hm

theorem onWorld (x : WorldM Trouble α) : Moves OnlyWorld (Run.onWorld x) := by
  intro m
  unfold Run.onWorld
  cases x m.world with
  | ok a w => exact ⟨w, rfl⟩
  | error t w => exact ⟨w, rfl⟩

theorem putLine (s : String) : Moves OnlyWorld (Run.putLine s) := fun _ => ⟨_, rfl⟩

/-- The frame that is left is the one that was entered, whatever its function has done to
its local variables. -/
theorem inFrame (f : Frame) (hx : Moves OnlyLocals x) : Moves OnlyWorld (Run.inFrame f x) := by
  intro m
  obtain ⟨bs, w, hm⟩ := hx (m.push f) f m.stack rfl
  unfold Run.inFrame
  cases h : x (m.push f) with
  | ok a m' =>
    rw [h] at hm
    exact ⟨w, congrArg Machine.pop hm⟩
  | error s m' =>
    rw [h] at hm
    exact ⟨w, congrArg Machine.pop hm⟩

theorem setVariable (name : String) (v : Value) : Moves OnlyLocals (Run.setVariable name v) := by
  intro m f fs hstack
  refine ⟨f.locals.set name v, m.world, ?_⟩
  show m.bind name v = _
  simp only [Machine.bind, hstack]

end Primitive

end Moves

/-! ## operators and variables -/

theorem getVariable_moves (name : String) : Moves OnlyWorld (getVariable name) := by
  unfold getVariable
  refine .get_bind fun m => ?_
  cases m.lookup? name with
  | some v => exact .pure v
  | none => exact .fail _

theorem ofTrouble_settled (r : Except Trouble α) : Settled (ofTrouble r) := by
  cases r with
  | ok a => exact .pure a
  | error t => exact .throw _

theorem textOf_settled (v : Value) : Settled (textOf v) := by
  unfold textOf
  cases v.text? with
  | some s => exact .pure s
  | none => exact .throw _

theorem arithmetic_settled (op : BinaryOp) (x y : Number) : Settled (arithmetic op x y) := by
  have hvalue : ∀ r : Except Trouble Number,
      Settled (do return (← ofTrouble r).value : Run Value) :=
    fun r => .bind (ofTrouble_settled r) fun n => .pure n.value
  cases op with
  | add => exact hvalue _
  | sub => exact hvalue _
  | mul => exact hvalue _
  | div =>
    simp only [arithmetic]
    split
    · exact .throw _
    · exact hvalue _
  | mod =>
    simp only [arithmetic]
    split
    · exact .throw _
    · exact hvalue _

theorem applyBinary_settled (symbol : String) (a b : Value) : Settled (applyBinary symbol a b) := by
  unfold applyBinary
  cases BinaryOp.ofSymbol? symbol with
  | none => exact .throw _
  | some op =>
    simp only
    split
    · exact .bind (textOf_settled a) fun s => .bind (textOf_settled b) fun t => .pure _
    · split
      · exact arithmetic_settled op _ _
      · exact .throw _

theorem applyUnary_settled (symbol : String) (a : Value) : Settled (applyUnary symbol a) := by
  unfold applyUnary
  split
  · exact .throw _
  · split
    · exact .pure _
    · exact .pure _
    · exact .throw _

/-! ## expressions -/

section Evaluate

variable {p : Program} {run : Executor}

theorem invoke_moves (f : Callable) (args : List Value) : Moves OnlyWorld (invoke f args) := by
  cases f with
  | builtin b => exact .onWorld _
  | raising e => cases e <;> exact .throw _

theorem callBuiltin_moves (name : String) (f : Callable) {args : Run (List Value)}
    (hargs : Moves OnlyWorld args) : Moves OnlyWorld (callBuiltin name f args) := by
  refine .tryCatch (.bind hargs fun vs => invoke_moves f vs) fun s => ?_
  cases s <;> exact .throw _

theorem callNamed_moves (hrun : ∀ f args, Moves OnlyWorld (run f args)) (name : String)
    {args : Run (List Value)} (hargs : Moves OnlyWorld args) :
    Moves OnlyWorld (callNamed p run name args) := by
  have huser : ∀ f, Moves OnlyWorld (inContext (.userCall name) do run f (← args)) :=
    fun f => .inContext _ (.bind hargs fun vs => hrun f vs)
  unfold callNamed
  by_cases hname : name = ""
  · rw [if_pos hname]
    exact .fail_bind _
  · rw [if_neg hname]
    refine .get_bind fun m => ?_
    split
    · exact callBuiltin_moves name _ hargs
    · cases p.find? name with
      | some f => exact huser f
      | none => exact .fail _

theorem binary_moves (op : String) {left right : Run Value} (hleft : Moves OnlyWorld left)
    (hright : Moves OnlyWorld right) : Moves OnlyWorld (binary op left right) :=
  .inContext _ (.bind hleft fun a => .bind hright fun b => .settled (applyBinary_settled op a b))

theorem unary_moves (op : String) {operand : Run Value} (h : Moves OnlyWorld operand) :
    Moves OnlyWorld (unary op operand) :=
  .inContext _ (.bind h fun a => .settled (applyUnary_settled op a))

-- by recursion on the tree, as evaluation itself
mutual

theorem evaluateWith_moves (hrun : ∀ f args, Moves OnlyWorld (run f args)) :
    (n : Node) → Moves OnlyWorld (evaluateWith p run n)
  | .absent => .pure _
  | .str _ => .pure _
  | .num _ => .pure _
  | .var name => .inContext _ (getVariable_moves name)
  | .call name args =>
    .inContext _ (callNamed_moves hrun name (argumentsWith_moves hrun name 1 args))
  | .bin op l r =>
    .inContext _ (binary_moves op (evaluateWith_moves hrun l) (evaluateWith_moves hrun r))
  | .un op x => .inContext _ (unary_moves op (evaluateWith_moves hrun x))
  | .letIn _ _ => .inContext _ (.fail _)
  | .ret _ => .inContext _ (.fail _)
  | .foreign _ => .inContext _ (.fail _)
termination_by structural n => n

theorem argumentsWith_moves (hrun : ∀ f args, Moves OnlyWorld (run f args)) (name : String) :
    (i : Nat) → (ns : List Node) → Moves OnlyWorld (argumentsWith p run name i ns)
  | _, [] => .pure _
  | i, n :: ns =>
    .bind (.inContext _ (evaluateWith_moves hrun n)) fun _ =>
      .bind (argumentsWith_moves hrun name (i + 1) ns) fun _ => .pure _
termination_by structural _ ns => ns

end

end Evaluate

/-! ## statements -/

section Statement

variable {p : Program} {run : Executor}

/-- A statement that is no let changes nothing but the world. -/
theorem statementWith_other (hrun : ∀ f args, Moves OnlyWorld (run f args)) {n : Node}
    (hn : ∀ name e, n ≠ .letIn name e) : Moves OnlyWorld (statementWith p run n) := by
  refine .inContext _ ?_
  cases n with
  | call name args => exact evaluateWith_moves hrun _
  | ret v => exact evaluateWith_moves hrun v
  | letIn name e => exact (hn name e rfl).elim
  | _ => exact .fail _

theorem OnlyWorld.bind {m m' : Machine} (h : OnlyWorld m m') (name : String) (v : Value) :
    OnlyWorld (m.bind name v) (m'.bind name v) := by
  obtain ⟨w, rfl⟩ := h
  obtain ⟨env, globals, stack, maxDepth, world⟩ := m
  cases stack <;> exact ⟨w, rfl⟩

theorem OnlyWorld.of_bind_nil {m m' : Machine} {name : String} {v : Value}
    (h : OnlyWorld (m.bind name v) m') (hstack : m.stack = []) :
    ∃ w, m' = { m with globals := m.globals.set name v, world := w } := by
  obtain ⟨w, rfl⟩ := h
  exact ⟨w, by simp only [Machine.bind, hstack]⟩

theorem OnlyWorld.of_bind_cons {m m' : Machine} {name : String} {v : Value}
    (h : OnlyWorld (m.bind name v) m') (f : Frame) (fs : List Frame) (hstack : m.stack = f :: fs) :
    ∃ w, m' = { m with stack := { f with locals := f.locals.set name v } :: fs, world := w } := by
  obtain ⟨w, rfl⟩ := h
  exact ⟨w, by simp only [Machine.bind, hstack]⟩

/-- A let that gives a value has bound its name to it, and else changed nothing but the
world. -/
theorem statementWith_letIn (hrun : ∀ f args, Moves OnlyWorld (run f args)) (name : String)
    (e : Node) (m : Machine) :
    (∃ v m', statementWith p run (.letIn name e) m = .ok v m' ∧ OnlyWorld (m.bind name v) m') ∨
    ∃ s m', statementWith p run (.letIn name e) m = .error s m' ∧ OnlyWorld m m' := by
  have hm := evaluateWith_moves (p := p) hrun e m
  cases h : evaluateWith p run e m with
  | ok v m' =>
    rw [h] at hm
    have hlet : statementWith p run (.letIn name e) m = .ok v (m'.bind name v) :=
      inContext_of_ok .statement (bind_of_ok h)
    exact .inl ⟨v, _, hlet, hm.bind name v⟩
  | error s m' =>
    rw [h] at hm
    have hlet := bind_of_error (f := fun v => do setVariable name v; return v) h
    cases s with
    | fault f => exact .inr ⟨_, m', inContext_of_fault .statement hlet, hm⟩
    | interrupted s => exact .inr ⟨_, m', inContext_of_interrupted .statement hlet, hm⟩

/-- A statement that gives no value changes nothing but the world. -/
theorem statementWith_error (hrun : ∀ f args, Moves OnlyWorld (run f args)) {n : Node}
    {m m' : Machine} {s : Stop} (h : statementWith p run n m = .error s m') : OnlyWorld m m' := by
  by_cases hn : ∃ name e, n = .letIn name e
  · obtain ⟨name, e, rfl⟩ := hn
    rcases statementWith_letIn hrun name e m with ⟨_, _, hok, _⟩ | ⟨_, _, herror, hm⟩
    · rw [hok] at h
      cases h
    · rw [herror] at h
      cases h
      exact hm
  · have hm := statementWith_other (p := p) hrun (fun name e he => hn ⟨name, e, he⟩) m
    rw [h] at hm
    exact hm

/-- Inside a function a statement changes nothing but its local variables and the world. -/
theorem statementWith_moves (hrun : ∀ f args, Moves OnlyWorld (run f args)) (n : Node) :
    Moves OnlyLocals (statementWith p run n) := by
  cases n with
  | letIn name e =>
    have he := (evaluateWith_moves (p := p) hrun e).mono fun _ _ => OnlyWorld.onlyLocals
    exact .inContext _ (.bind he fun v => .bind (.setVariable name v) fun _ => .pure v)
  | _ =>
    exact (statementWith_other hrun (by simp)).mono fun _ _ => OnlyWorld.onlyLocals

theorem bodyWith_moves (hrun : ∀ f args, Moves OnlyWorld (run f args)) (ret : String)
    (ns : List Node) : Moves OnlyLocals (bodyWith p run ret ns) := by
  induction ns with
  | nil => exact .pure _
  | cons n ns ih =>
    refine .bind (statementWith_moves hrun n) fun v => ?_
    by_cases hret : n.isReturn = true
    · rw [if_pos hret]
      exact .pure v
    · rw [if_neg hret]
      exact ih

end Statement

/-! ## functions -/

/-- **Functions are left as they were entered**: whatever comes of it, executing a function
changes nothing but the world. -/
theorem execute_moves (p : Program) (n : Nat) (f : FunctionDef) (args : List Value) :
    Moves OnlyWorld (execute p n f args) := by
  induction n generalizing f args with
  | zero => exact .get_bind fun m => .fail _
  | succ n ih =>
    unfold execute
    refine .get_bind fun m => ?_
    by_cases hdepth : m.maxDepth ≤ m.stack.length
    · rw [if_pos hdepth]
      exact .fail_bind _
    rw [if_neg hdepth]
    by_cases hcount : args.length ≠ f.params.length
    · rw [if_pos hcount]
      exact .fail_bind _
    rw [if_neg hcount]
    exact .inFrame _ (.inContext _ (bodyWith_moves ih f.ret f.body))

/-! ## from any state -/

theorem callFunction_moves (p : Program) (f : FunctionDef) (args : List Value) :
    Moves OnlyWorld (callFunction p f args) :=
  .get_bind fun _ => execute_moves p _ f args

theorem evaluate_moves (p : Program) (n : Node) : Moves OnlyWorld (evaluate p n) :=
  .get_bind fun _ => evaluateWith_moves (execute_moves p _) n

theorem evaluateCall_moves (p : Program) (name : String) (args : List Node) :
    Moves OnlyWorld (evaluateCall p name args) :=
  .get_bind fun _ => callNamed_moves (execute_moves p _) name
    (argumentsWith_moves (execute_moves p _) name 1 args)

theorem evaluateBinary_moves (p : Program) (op : String) (left right : Node) :
    Moves OnlyWorld (evaluateBinary p op left right) :=
  .get_bind fun _ => binary_moves op (evaluateWith_moves (execute_moves p _) left)
    (evaluateWith_moves (execute_moves p _) right)

theorem evaluateUnary_moves (p : Program) (op : String) (operand : Node) :
    Moves OnlyWorld (evaluateUnary p op operand) :=
  .get_bind fun _ => unary_moves op (evaluateWith_moves (execute_moves p _) operand)


end LetCall.Run
