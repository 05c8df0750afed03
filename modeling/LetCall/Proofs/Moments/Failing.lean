import LetCall.Proofs.Moments

/-!
# LetCall.Proofs.Moments.Failing

Where failures come from.  A moment fails if one that it enters fails (`EntersIn.outcome_error`),
with the contexts of the way out; and only then, unless it breaks by itself, for one of the
reasons that `Breaks` lists (`Moment.accounted`).  So behind every failure there is a moment of
the run that breaks, with the same cause (`Moment.exists_breaks`).
-/

namespace LetCall

/-- Whether a node can be executed as a statement. -/
def Node.canExecute : Node → Bool
  | .call .. | .ret _ | .letIn .. => true
  | _ => false

/-- Whether a node can be evaluated as an expression. -/
def Node.canEvaluate : Node → Bool
  | .letIn .. | .ret _ | .foreign _ => false
  | _ => true

/-- A stop on its way out of the call of a built-in function. -/
def Stop.fromBuiltin (name : String) : Stop → Stop
  | .fault f => .fault (f.inContext (Run.callContext name f))
  | .interrupted s => .interrupted s

/-- Whether operators fail for a cause. -/
def Fault.Cause.ofOperator : Fault.Cause → Bool
  | .divisionByZero | .moduloByZero | .binaryOperands .. | .unaryOperand .. | .unknownBinary _
  | .unknownUnary _ | .trouble _ => true
  | _ => false

/-- What a stop is in the end: the cause of a fault, or the message of an interruption. -/
def Stop.root : Stop → Fault.Cause ⊕ String
  | .fault f => .inl f.cause
  | .interrupted s => .inr s

@[simp] theorem Stop.root_within (cs : List Context) (s : Stop) : (s.within cs).root = s.root := by
  cases s <;> rfl

@[simp] theorem Stop.root_fromBuiltin (name : String) (s : Stop) :
    (s.fromBuiltin name).root = s.root := by
  cases s <;> rfl

namespace Run

/-! ## operators -/

/-- A step that can stop only in the way of an operator, outside of all contexts. -/
def StopsAsOperator {α : Type} (x : Run α) : Prop :=
  ∀ m s m', x m = .error s m' → ∃ cause, s = .fault ⟨[], cause⟩ ∧ cause.ofOperator = true

namespace StopsAsOperator

variable {α β : Type}

theorem pure (a : α) : StopsAsOperator (Pure.pure a) := by
  intro m s m' h
  cases h

theorem fail {cause : Fault.Cause} (hcause : cause.ofOperator = true) :
    StopsAsOperator (Run.fail cause : Run α) := by
  intro m s m' h
  cases h
  exact ⟨cause, rfl, hcause⟩

theorem bind {x : Run α} {f : α → Run β} (hx : StopsAsOperator x)
    (hf : ∀ a, StopsAsOperator (f a)) : StopsAsOperator (x >>= f) := by
  intro m s m' h
  rcases bind_eq_error_iff.mp h with hfirst | ⟨a, m₁, _, hnext⟩
  · exact hx m s m' hfirst
  · exact hf a m₁ s m' hnext

theorem ofTrouble (r : Except Trouble α) : StopsAsOperator (Run.ofTrouble r) := by
  cases r with
  | ok a => exact pure a
  | error t => exact fail rfl

theorem textOf (v : Value) : StopsAsOperator (Run.textOf v) := by
  unfold Run.textOf
  cases v.text? with
  | some s => exact pure s
  | none => exact fail rfl

theorem arithmetic (op : BinaryOp) (x y : Number) : StopsAsOperator (Run.arithmetic op x y) := by
  have hvalue : ∀ r : Except Trouble Number,
      StopsAsOperator (do return (← Run.ofTrouble r).value : Run Value) :=
    fun r => (ofTrouble r).bind fun n => pure n.value
  cases op with
  | add => exact hvalue _
  | sub => exact hvalue _
  | mul => exact hvalue _
  | div =>
    simp only [Run.arithmetic]
    split
    · exact fail rfl
    · exact hvalue _
  | mod =>
    simp only [Run.arithmetic]
    split
    · exact fail rfl
    · exact hvalue _

theorem applyBinary (symbol : String) (a b : Value) :
    StopsAsOperator (Run.applyBinary symbol a b) := by
  unfold Run.applyBinary
  cases BinaryOp.ofSymbol? symbol with
  | none => exact fail rfl
  | some op =>
    simp only
    split
    · exact (textOf a).bind fun s => (textOf b).bind fun t => pure _
    · split
      · exact arithmetic op _ _
      · exact fail rfl

theorem applyUnary (symbol : String) (a : Value) : StopsAsOperator (Run.applyUnary symbol a) := by
  unfold Run.applyUnary
  split
  · exact fail rfl
  · split
    · exact pure _
    · exact pure _
    · exact fail rfl

theorem root {x : Run α} (hx : StopsAsOperator x) {m m' : Machine} {s : Stop}
    (h : x m = .error s m') : ∃ cause, s.root = .inl cause ∧ cause.ofOperator = true := by
  obtain ⟨cause, rfl, hcause⟩ := hx m s m' h
  exact ⟨cause, rfl, hcause⟩

end StopsAsOperator

/-! ## calls of built-in functions -/

section Builtin

variable {name : String} {f : Callable} {args : Run (List Value)} {m m' : Machine} {s : Stop}

/-- A fault in an argument is told from one of the function itself. -/
theorem fromBuiltin_argument (name g : String) (i : Nat) (s : Stop) :
    (s.within [.argument i g]).fromBuiltin name =
      s.within [.builtinCall name, .argument i g] := by
  cases s <;> rfl

/-- A built-in function stops with trouble of its own, or interrupts if that is all it does. -/
theorem invoke_error {vs : List Value} (h : invoke f vs m = .error s m') :
    (∃ t, s = .fault ⟨[], .trouble t⟩) ∨ ∃ t, s = .interrupted t ∧ f = .raising (.interrupt t) := by
  cases f with
  | builtin b =>
    have hcall : onWorld (b.call vs) m = .error s m' := h
    unfold onWorld at hcall
    split at hcall
    · cases hcall
    · cases hcall
      exact .inl ⟨_, rfl⟩
  | raising e =>
    cases e with
    | interrupt t =>
      cases h
      exact .inr ⟨t, rfl, rfl⟩
    | _ =>
      cases h
      exact .inl ⟨_, rfl⟩

theorem callBuiltin_eq_error_iff :
    callBuiltin name f args m = .error s m' ↔
      ∃ s', (do invoke f (← args) : Run Value) m = .error s' m' ∧ s = s'.fromBuiltin name := by
  unfold callBuiltin
  cases h : (do invoke f (← args) : Run Value) m with
  | ok v m₁ => simp [tryCatch_of_ok h]
  | error s₁ m₁ =>
    rw [tryCatch_of_error h]
    constructor
    · intro hthrow
      cases s₁ <;> cases hthrow <;> exact ⟨_, rfl, rfl⟩
    · rintro ⟨s', hs, rfl⟩
      cases hs
      cases s₁ <;> rfl

end Builtin

/-! ## failures on their way out -/

/-- **What is entered decides**: a moment fails if one that it enters does, with the contexts
of the way out of it. -/
theorem EntersIn.outcome_error {p : Program} {cs : List Context} {M N : Moment}
    (h : EntersIn p cs M N) {s : Stop} {m' : Machine} (hN : N.outcome p = .error s m') :
    ∃ m'', M.outcome p = .error (s.within cs) m'' := by
  cases h with
  | global hfunctions himports hloaded hn hbefore =>
    obtain ⟨m₃, hglobals⟩ := globals_error hbefore hN
    rw [← hn] at hglobals
    refine ⟨m₃, (result_eq hfunctions himports hloaded).trans ?_⟩
    rw [bind_of_error hglobals, Stop.within_nil]
  | main hfunctions himports hloaded hstatements hmain =>
    refine ⟨m', (result_eq hfunctions himports hloaded).trans ?_⟩
    rw [bind_of_ok (globals_eq_ok_iff.mpr hstatements), callMain, hmain, Stop.within_nil]
    exact hN
  | call name args m =>
    refine ⟨m', ?_⟩
    rw [Moment.outcome, Task.run, statement_call]
    exact inContext_of_error _ hN
  | ret v m =>
    refine ⟨m', ?_⟩
    rw [Moment.outcome, Task.run, statement_ret]
    exact inContext_of_error _ hN
  | letIn name e m =>
    refine ⟨m', ?_⟩
    rw [Moment.outcome, Task.run, statement_letIn]
    exact inContext_of_error _ (bind_of_error hN)
  | @body f args before after n m m₁ hdepth hcount hn hreturn hbefore =>
    have hbody : Run.body p f.ret f.body (m.push (frameOf f args)) = .error s m' := by
      rw [hn, body_append p f.ret _ hreturn, bind_of_ok hbefore, body_cons]
      exact bind_of_error hN
    refine ⟨m'.pop, ?_⟩
    rw [Moment.outcome, Task.run, callFunction_of_enterable p hdepth hcount]
    exact inFrame_of_error (inContext_of_error _ hbody)
  | @argument name before after n c vs m m₁ hcallee hbefore =>
    have hargs : arguments p name 1 (before ++ n :: after) m =
        .error (s.within [.argument (1 + before.length) name]) m' := arguments_error hbefore hN
    refine ⟨m', ?_⟩
    rw [Moment.outcome, Task.run, evaluate_call_eq, Stop.within_cons]
    apply inContext_of_error
    cases c with
    | builtin f =>
      rw [callNamed_of_builtin _ _ hcallee]
      exact callBuiltin_eq_error_iff.mpr ⟨_, bind_of_error hargs, (fromBuiltin_argument ..).symm⟩
    | user f =>
      rw [callNamed_of_user _ _ hcallee]
      rw [Stop.within_cons]
      exact inContext_of_error _ (bind_of_error hargs)
  | @function name args f vs m m₁ hcallee hargs =>
    refine ⟨m', ?_⟩
    rw [Moment.outcome, Task.run, evaluate_call_eq, Stop.within_cons]
    apply inContext_of_error
    rw [callNamed_of_user _ _ hcallee]
    exact inContext_of_error _ ((bind_of_ok hargs).trans hN)
  | left op l r m =>
    refine ⟨m', ?_⟩
    rw [Moment.outcome, Task.run, evaluate_bin_eq, Stop.within_cons]
    exact inContext_of_error _ (inContext_of_error _ (bind_of_error hN))
  | right hleft =>
    refine ⟨m', ?_⟩
    rw [Moment.outcome, Task.run, evaluate_bin_eq, Stop.within_cons]
    exact inContext_of_error _ (inContext_of_error _ ((bind_of_ok hleft).trans (bind_of_error hN)))
  | operand op x m =>
    refine ⟨m', ?_⟩
    rw [Moment.outcome, Task.run, evaluate_un_eq, Stop.within_cons]
    exact inContext_of_error _ (inContext_of_error _ (bind_of_error hN))

/-! ## moments that break -/

/-- A moment breaks by itself, where all that it enters gives a value, and the stop with
which it does. -/
inductive Breaks (p : Program) : Moment → Stop → Prop
  | noFunctions {m : Machine} (h : p.functions = []) :
      Breaks p ⟨.program, m⟩ (.fault ⟨[], .noFunctions⟩)
  | noImports {m : Machine} (hfunctions : p.functions ≠ []) (h : p.imports = none) :
      Breaks p ⟨.program, m⟩ (.fault ⟨[], .importsMissing⟩)
  | noMain {names : List String} {m m₁ m₂ : Machine} (hfunctions : p.functions ≠ [])
      (himports : p.imports = some names) (hloaded : imports names m = .ok () m₁)
      (hstatements : executeAll p p.statements m₁ = .ok () m₂) (h : p.find? "main" = none) :
      Breaks p ⟨.program, m⟩ (.fault ⟨[], .noMain⟩)
  | statement {n : Node} {m : Machine} (h : n.canExecute = false) :
      Breaks p ⟨.statement n, m⟩ (.fault ⟨[.statement], .unknownStatement n.label⟩)
  | depth {f : FunctionDef} {args : List Value} {m : Machine} (h : m.maxDepth ≤ m.stack.length) :
      Breaks p ⟨.function f args, m⟩ (.fault ⟨[], .depthExceeded m.maxDepth⟩)
  | count {f : FunctionDef} {args : List Value} {m : Machine}
      (hdepth : ¬ m.maxDepth ≤ m.stack.length) (h : args.length ≠ f.params.length) :
      Breaks p ⟨.function f args, m⟩
        (.fault ⟨[], .argumentCount f.name f.params.length args.length⟩)
  | variable {name : String} {m : Machine} (h : m.lookup? name = none) :
      Breaks p ⟨.node (.var name), m⟩ (.fault ⟨[.expression], .undefinedVariable name⟩)
  | callee {name : String} {args : List Node} {m : Machine} (h : callee? p m.env name = none) :
      Breaks p ⟨.node (.call name args), m⟩
        (.fault ⟨[.expression], if name = "" then .emptyCallName else .unknownFunction name⟩)
  | builtin {name : String} {args : List Node} {f : Callable} {vs : List Value} {s : Stop}
      {m m₁ m₂ : Machine} (hcallee : callee? p m.env name = some (.builtin f))
      (hargs : arguments p name 1 args m = .ok vs m₁) (hcall : invoke f vs m₁ = .error s m₂) :
      Breaks p ⟨.node (.call name args), m⟩ ((s.fromBuiltin name).within [.expression])
  | binary {op : String} {l r : Node} {a b : Value} {s : Stop} {m m₁ m₂ m₃ : Machine}
      (hleft : evaluate p l m = .ok a m₁) (hright : evaluate p r m₁ = .ok b m₂)
      (h : applyBinary op a b m₂ = .error s m₃) :
      Breaks p ⟨.node (.bin op l r), m⟩ (s.within [.expression, .binary])
  | unary {op : String} {x : Node} {a : Value} {s : Stop} {m m₁ m₂ : Machine}
      (hoperand : evaluate p x m = .ok a m₁) (h : applyUnary op a m₁ = .error s m₂) :
      Breaks p ⟨.node (.un op x), m⟩ (s.within [.expression, .unary])
  | node {n : Node} {m : Machine} (h : n.canEvaluate = false) :
      Breaks p ⟨.node n, m⟩ (.fault ⟨[.expression], .cannotEvaluate n.label⟩)

/-- Only functions break for want of frames. -/
theorem Breaks.of_depthExceeded {p : Program} {M : Moment} {s : Stop} (h : Breaks p M s)
    {limit : Int} (hroot : s.root = .inl (.depthExceeded limit)) :
    ∃ f args, M.task = .function f args ∧ limit = M.machine.maxDepth ∧
      M.machine.maxDepth ≤ M.machine.stack.length := by
  cases h with
  | depth hdepth =>
    cases hroot
    exact ⟨_, _, rfl, rfl, hdepth⟩
  | @callee name =>
    by_cases hname : name = "" <;> simp [Stop.root, hname] at hroot
  | builtin _ _ hcall =>
    rw [Stop.root_within, Stop.root_fromBuiltin] at hroot
    rcases invoke_error hcall with ⟨t, rfl⟩ | ⟨t, rfl, _⟩ <;> cases hroot
  | binary _ _ happly =>
    obtain ⟨cause, hcause, hoperator⟩ := StopsAsOperator.root (.applyBinary _ _ _) happly
    rw [Stop.root_within, hcause] at hroot
    cases hroot
    cases hoperator
  | unary _ happly =>
    obtain ⟨cause, hcause, hoperator⟩ := StopsAsOperator.root (.applyUnary _ _) happly
    rw [Stop.root_within, hcause] at hroot
    cases hroot
    cases hoperator
  | _ => cases hroot

/-- Only a function of the environment interrupts. -/
theorem Breaks.of_interrupted {p : Program} {M : Moment} {s : Stop} (h : Breaks p M s) {t : String}
    (hroot : s.root = .inr t) :
    ∃ name, M.machine.env.get? name = some (.fn (.raising (.interrupt t))) := by
  cases h with
  | builtin hcallee _ hcall =>
    rw [Stop.root_within, Stop.root_fromBuiltin] at hroot
    rcases invoke_error hcall with ⟨t, rfl⟩ | ⟨t, rfl, rfl⟩
    · cases hroot
    · cases hroot
      exact ⟨_, env_of_callee? hcallee⟩
  | binary _ _ happly =>
    obtain ⟨cause, hcause, _⟩ := StopsAsOperator.root (.applyBinary _ _ _) happly
    rw [Stop.root_within, hcause] at hroot
    cases hroot
  | unary _ happly =>
    obtain ⟨cause, hcause, _⟩ := StopsAsOperator.root (.applyUnary _ _) happly
    rw [Stop.root_within, hcause] at hroot
    cases hroot
  | _ => cases hroot

/-! ## every failure has an account -/

/-- A stop is accounted for: the moment breaks with it, or it comes from one that is entered. -/
def Moment.Accounted (p : Program) (M : Moment) (s : Stop) : Prop :=
  Breaks p M s ∨
    ∃ cs N s' m', EntersIn p cs M N ∧ N.outcome p = .error s' m' ∧ s = s'.within cs

section Accounted

variable {p : Program} {m m' : Machine} {s : Stop}

theorem accounted_program (h : result p m = .error s m') :
    Moment.Accounted p ⟨.program, m⟩ s := by
  by_cases hfunctions : p.functions = []
  · left
    unfold result at h
    rw [if_pos (by rw [hfunctions]; rfl)] at h
    cases h
    exact .noFunctions hfunctions
  cases himports : p.imports with
  | none =>
    left
    unfold result at h
    rw [if_neg (by simpa using hfunctions), himports] at h
    cases h
    exact .noImports hfunctions himports
  | some names =>
    obtain ⟨m₁, hloaded, _⟩ := exists_imports names m
    rw [result_eq hfunctions himports hloaded] at h
    rcases bind_eq_error_iff.mp h with hglobals | ⟨_, m₂, hglobals, hmain⟩
    · obtain ⟨before, n, after, m₂, m₃, hsplit, hbefore, hn⟩ := exists_of_globals_error hglobals
      exact .inr ⟨_, _, s, m₃, .global hfunctions himports hloaded hsplit hbefore, hn,
        (Stop.within_nil s).symm⟩
    · have hstatements := globals_eq_ok_iff.mp hglobals
      cases hfind : p.find? "main" with
      | none =>
        rw [callMain, hfind] at hmain
        cases hmain
        exact .inl (.noMain hfunctions himports hloaded hstatements hfind)
      | some f =>
        rw [callMain, hfind] at hmain
        exact .inr ⟨_, _, s, m', .main hfunctions himports hloaded hstatements hfind, hmain,
          (Stop.within_nil s).symm⟩

theorem accounted_statement {n : Node} (h : statement p n m = .error s m') :
    Moment.Accounted p ⟨.statement n, m⟩ s := by
  cases n with
  | call name args =>
    rw [statement_call] at h
    obtain ⟨s', hcall, rfl⟩ := inContext_eq_error_iff.mp h
    exact .inr ⟨_, _, s', m', .call name args m, hcall, rfl⟩
  | ret v =>
    rw [statement_ret] at h
    obtain ⟨s', hv, rfl⟩ := inContext_eq_error_iff.mp h
    exact .inr ⟨_, _, s', m', .ret v m, hv, rfl⟩
  | letIn name e =>
    rw [statement_letIn] at h
    obtain ⟨s', hlet, rfl⟩ := inContext_eq_error_iff.mp h
    rcases bind_eq_error_iff.mp hlet with he | ⟨v, m₁, _, hset⟩
    · exact .inr ⟨_, _, s', m', .letIn name e m, he, rfl⟩
    · cases hset
  | _ =>
    rw [statement_eq] at h
    cases h
    exact .inl (.statement rfl)

theorem accounted_function {f : FunctionDef} {args : List Value}
    (h : callFunction p f args m = .error s m') : Moment.Accounted p ⟨.function f args, m⟩ s := by
  by_cases hdepth : m.maxDepth ≤ m.stack.length
  · rw [callFunction_eq, if_pos hdepth] at h
    cases h
    exact .inl (.depth hdepth)
  by_cases hcount : args.length = f.params.length
  · rw [callFunction_of_enterable p hdepth hcount] at h
    obtain ⟨m₁, hcontext, _⟩ := inFrame_eq_error_iff.mp h
    obtain ⟨s', hbody, rfl⟩ := inContext_eq_error_iff.mp hcontext
    obtain ⟨before, n, after, m₂, hsplit, hreturn, hbefore, hn⟩ := exists_of_body_error hbody
    exact .inr ⟨_, _, s', m₁, .body hdepth hcount hsplit hreturn hbefore, hn, rfl⟩
  · rw [callFunction_eq, if_neg hdepth, if_pos hcount] at h
    cases h
    exact .inl (.count hdepth hcount)

theorem accounted_call {name : String} {args : List Node}
    (h : evaluate p (.call name args) m = .error s m') :
    Moment.Accounted p ⟨.node (.call name args), m⟩ s := by
  rw [evaluate_call_eq] at h
  obtain ⟨s₁, hcall, rfl⟩ := inContext_eq_error_iff.mp h
  cases hcallee : callee? p m.env name with
  | none =>
    rw [callNamed_of_none _ _ hcallee] at hcall
    cases hcall
    exact .inl (.callee hcallee)
  | some c =>
    cases c with
    | builtin f =>
      rw [callNamed_of_builtin _ _ hcallee] at hcall
      obtain ⟨s₂, hinvoke, rfl⟩ := callBuiltin_eq_error_iff.mp hcall
      rcases bind_eq_error_iff.mp hinvoke with hargs | ⟨vs, m₁, hargs, hf⟩
      · obtain ⟨before, n, after, vs, m₁, s₃, rfl, hbefore, hn, rfl⟩ :=
          exists_of_arguments_error hargs
        refine .inr ⟨_, _, s₃, m', .argument hcallee hbefore, hn, ?_⟩
        rw [fromBuiltin_argument, ← Stop.within_cons]
        rfl
      · exact .inl (.builtin hcallee hargs hf)
    | user f =>
      rw [callNamed_of_user _ _ hcallee] at hcall
      obtain ⟨s₂, hrun, rfl⟩ := inContext_eq_error_iff.mp hcall
      rcases bind_eq_error_iff.mp hrun with hargs | ⟨vs, m₁, hargs, hf⟩
      · obtain ⟨before, n, after, vs, m₁, s₃, rfl, hbefore, hn, rfl⟩ :=
          exists_of_arguments_error hargs
        refine .inr ⟨_, _, s₃, m', .argument hcallee hbefore, hn, ?_⟩
        cases s₃ <;> rfl
      · refine .inr ⟨_, _, s₂, m', .function hcallee hargs, hf, ?_⟩
        rw [← Stop.within_cons]

theorem accounted_node {n : Node} (h : evaluate p n m = .error s m') :
    Moment.Accounted p ⟨.node n, m⟩ s := by
  cases n with
  | call name args => exact accounted_call h
  | bin op l r =>
    rw [evaluate_bin_eq] at h
    obtain ⟨s₁, hbinary, rfl⟩ := inContext_eq_error_iff.mp h
    obtain ⟨s₂, hsteps, rfl⟩ := inContext_eq_error_iff.mp hbinary
    rw [← Stop.within_cons]
    rcases bind_eq_error_iff.mp hsteps with hl | ⟨a, m₁, hl, hsteps⟩
    · exact .inr ⟨_, _, s₂, m', .left op l r m, hl, rfl⟩
    rcases bind_eq_error_iff.mp hsteps with hr | ⟨b, m₂, hr, happly⟩
    · exact .inr ⟨_, _, s₂, m', .right hl, hr, rfl⟩
    · exact .inl (.binary hl hr happly)
  | un op x =>
    rw [evaluate_un_eq] at h
    obtain ⟨s₁, hunary, rfl⟩ := inContext_eq_error_iff.mp h
    obtain ⟨s₂, hsteps, rfl⟩ := inContext_eq_error_iff.mp hunary
    rw [← Stop.within_cons]
    rcases bind_eq_error_iff.mp hsteps with hx | ⟨a, m₁, hx, happly⟩
    · exact .inr ⟨_, _, s₂, m', .operand op x m, hx, rfl⟩
    · exact .inl (.unary hx happly)
  | var name =>
    obtain ⟨s₁, hget, rfl⟩ := inContext_eq_error_iff.mp h
    unfold getVariable at hget
    rw [get_bind_apply] at hget
    cases hlookup : m.lookup? name with
    | some v =>
      rw [hlookup] at hget
      cases hget
    | none =>
      rw [hlookup] at hget
      cases hget
      exact .inl (.variable hlookup)
  | letIn name e =>
    cases h
    exact .inl (.node rfl)
  | ret v =>
    cases h
    exact .inl (.node rfl)
  | foreign form =>
    cases h
    exact .inl (.node rfl)
  | _ => cases h

end Accounted

/-- **Every failure has an account**: a moment that fails breaks, or fails because one that it
enters does. -/
theorem Moment.accounted {p : Program} {M : Moment} {s : Stop} {m' : Machine}
    (h : M.outcome p = .error s m') : M.Accounted p s := by
  obtain ⟨task, m⟩ := M
  cases task with
  | program => exact accounted_program h
  | statement n => exact accounted_statement h
  | function f args => exact accounted_function h
  | node n => exact accounted_node h

/-- Behind every failure there is a moment that breaks, with the same cause. -/
theorem Moment.exists_breaks {p : Program} {M : Moment} {s : Stop} {m' : Machine}
    (h : M.outcome p = .error s m') :
    ∃ N s', Relation.ReflTransGen (Enters p) M N ∧ Breaks p N s' ∧ s'.root = s.root := by
  induction M using (wellFounded_enters p).induction generalizing s m' with
  | _ M ih =>
    rcases Moment.accounted h with hbreaks | ⟨cs, N, s', m'', henters, hN, rfl⟩
    · exact ⟨M, s, .refl, hbreaks, rfl⟩
    · obtain ⟨K, s'', hreaches, hbreaks, hroot⟩ := ih N ⟨cs, henters⟩ hN
      exact ⟨K, s'', .head ⟨cs, henters⟩ hreaches, hbreaks, by rw [hroot, Stop.root_within]⟩

end Run

end LetCall
