import LetCall.Proofs.Frame.Programs
import Mathlib.Data.List.Forall2

/-!
# LetCall.Proofs.Evaluation

Evaluation without its bound on the frames.  The number of frames that may still be entered
is passed along as an argument only to make the recursion end; it is at every moment what
the machine itself says, so it can be left out: evaluating a node, executing a statement and
calling a function satisfy the equations one would write down for them, each in terms of
`callFunction`.

Main statements: `evaluate_eq`, `statement_eq` and `callFunction_eq`.
-/

namespace LetCall.Run

variable {α β : Type}

/-! ## what evaluation keeps -/

/-- The environment, the depth limit and the number of frames are the same. -/
structure SameSetting (m m' : Machine) : Prop where
  env : m'.env = m.env
  maxDepth : m'.maxDepth = m.maxDepth
  depth : m'.stack.length = m.stack.length

instance : IsPreorder Machine SameSetting where
  refl _ := ⟨rfl, rfl, rfl⟩
  trans _ _ _ h h' :=
    ⟨h'.env.trans h.env, h'.maxDepth.trans h.maxDepth, h'.depth.trans h.depth⟩

theorem SameSetting.budget {m m' : Machine} (h : SameSetting m m') : m'.budget = m.budget := by
  rw [Machine.budget, h.maxDepth, h.depth, Machine.budget]

theorem OnlyWorld.sameSetting {m m' : Machine} (h : OnlyWorld m m') : SameSetting m m' := by
  obtain ⟨w, rfl⟩ := h
  exact ⟨rfl, rfl, rfl⟩

theorem sameSetting_bind (m : Machine) (name : String) (v : Value) :
    SameSetting m (m.bind name v) := by
  obtain ⟨env, globals, stack, maxDepth, world⟩ := m
  cases stack <;> exact ⟨rfl, rfl, rfl⟩

theorem statementWith_sameSetting {p : Program} {run : Executor}
    (hrun : ∀ f args, Moves OnlyWorld (run f args)) (n : Node) :
    Moves SameSetting (statementWith p run n) := by
  cases n with
  | letIn name e =>
    have he := (evaluateWith_moves (p := p) hrun e).mono fun _ _ => OnlyWorld.sameSetting
    have hset : ∀ v, Moves SameSetting (setVariable name v) := fun v m => sameSetting_bind m name v
    exact .inContext _ (.bind he fun v => .bind (hset v) fun _ => .pure v)
  | _ => exact (statementWith_other hrun (by simp)).mono fun _ _ => OnlyWorld.sameSetting

/-! ## executors that agree -/

/-- Two steps do the same wherever `b` more frames can be entered. -/
def SameAt (b : Nat) (x y : Run α) : Prop := ∀ m, m.budget = b → x m = y m

namespace SameAt

variable {b : Nat} {x y : Run α}

theorem refl (x : Run α) : SameAt b x x := fun _ _ => rfl

theorem bind {f g : α → Run β} (hx : SameAt b x y) (hy : Moves SameSetting y)
    (hf : ∀ a, SameAt b (f a) (g a)) : SameAt b (x >>= f) (y >>= g) := by
  intro m hm
  refine bind_congr_of_ok (hx m hm) fun a m' hok => hf a m' ?_
  have hsame := hy m
  rw [hok] at hsame
  exact hsame.budget.trans hm

/-- A step that looks at the machine first. -/
theorem get_bind {f g : Machine → Run β} (hf : ∀ m, SameAt b (f m) (g m)) :
    SameAt b ((get : Run Machine) >>= f) ((get : Run Machine) >>= g) := fun m hm => hf m m hm

theorem inContext (c : Context) (hx : SameAt b x y) :
    SameAt b (Run.inContext c x) (Run.inContext c y) := by
  intro m hm
  unfold Run.inContext
  rw [hx m hm]

theorem tryCatch (handler : Stop → Run α) (hx : SameAt b x y) :
    SameAt b (MonadExcept.tryCatch x handler) (MonadExcept.tryCatch y handler) := by
  intro m hm
  have hxy := hx m hm
  cases h : y m with
  | ok a m' => rw [tryCatch_of_ok (hxy.trans h), tryCatch_of_ok h]
  | error s m' => rw [tryCatch_of_error (hxy.trans h), tryCatch_of_error h]

end SameAt

section Congruence

variable {p : Program} {run run' : Executor} {b : Nat}

theorem callNamed_congr (hrun : ∀ f args, SameAt b (run f args) (run' f args)) (name : String)
    {args args' : Run (List Value)} (hargs : SameAt b args args')
    (hargs' : Moves SameSetting args') :
    SameAt b (callNamed p run name args) (callNamed p run' name args') := by
  unfold callNamed
  by_cases hname : name = ""
  · rw [if_pos hname, if_pos hname]
    exact fun m _ => rfl
  · rw [if_neg hname, if_neg hname]
    refine .get_bind fun m => ?_
    split
    · exact .tryCatch _ (.bind hargs hargs' fun vs => .refl _)
    · cases p.find? name with
      | some f => exact .inContext _ (.bind hargs hargs' fun vs => hrun f vs)
      | none => exact .refl _

-- by recursion on the tree, as evaluation itself
mutual

/-- Evaluation is the same under executors that do the same. -/
theorem evaluateWith_congr (hrun : ∀ f args, SameAt b (run f args) (run' f args))
    (hmoves : ∀ f args, Moves OnlyWorld (run' f args)) :
    (n : Node) → SameAt b (evaluateWith p run n) (evaluateWith p run' n)
  | .absent => .refl _
  | .str _ => .refl _
  | .num _ => .refl _
  | .var _ => .refl _
  | .call name args =>
    .inContext _ (callNamed_congr hrun name (argumentsWith_congr hrun hmoves name 1 args)
      ((argumentsWith_moves hmoves name 1 args).mono fun _ _ => OnlyWorld.sameSetting))
  | .bin _ l r =>
    .inContext _ (.inContext _ (.bind (evaluateWith_congr hrun hmoves l)
      ((evaluateWith_moves hmoves l).mono fun _ _ => OnlyWorld.sameSetting) fun _ =>
        .bind (evaluateWith_congr hrun hmoves r)
          ((evaluateWith_moves hmoves r).mono fun _ _ => OnlyWorld.sameSetting) fun _ => .refl _))
  | .un _ x =>
    .inContext _ (.inContext _ (.bind (evaluateWith_congr hrun hmoves x)
      ((evaluateWith_moves hmoves x).mono fun _ _ => OnlyWorld.sameSetting) fun _ => .refl _))
  | .letIn _ _ => .refl _
  | .ret _ => .refl _
  | .foreign _ => .refl _
termination_by structural n => n

theorem argumentsWith_congr (hrun : ∀ f args, SameAt b (run f args) (run' f args))
    (hmoves : ∀ f args, Moves OnlyWorld (run' f args)) (name : String) :
    (i : Nat) → (ns : List Node) →
      SameAt b (argumentsWith p run name i ns) (argumentsWith p run' name i ns)
  | _, [] => .refl _
  | i, n :: ns =>
    .bind (.inContext _ (evaluateWith_congr hrun hmoves n))
      ((Moves.inContext _ (evaluateWith_moves hmoves n)).mono fun _ _ => OnlyWorld.sameSetting)
      fun _ => .bind (argumentsWith_congr hrun hmoves name (i + 1) ns)
        ((argumentsWith_moves hmoves name (i + 1) ns).mono fun _ _ => OnlyWorld.sameSetting)
        fun _ => .refl _
termination_by structural _ ns => ns

end

theorem statementWith_congr (hrun : ∀ f args, SameAt b (run f args) (run' f args))
    (hmoves : ∀ f args, Moves OnlyWorld (run' f args)) (n : Node) :
    SameAt b (statementWith p run n) (statementWith p run' n) := by
  refine .inContext _ ?_
  cases n with
  | call name args => exact evaluateWith_congr hrun hmoves _
  | ret v => exact evaluateWith_congr hrun hmoves v
  | letIn name e =>
    exact .bind (evaluateWith_congr hrun hmoves e)
      ((evaluateWith_moves hmoves e).mono fun _ _ => OnlyWorld.sameSetting) fun v => .refl _
  | _ => exact .refl _

theorem bodyWith_congr (hrun : ∀ f args, SameAt b (run f args) (run' f args))
    (hmoves : ∀ f args, Moves OnlyWorld (run' f args)) (ret : String) (ns : List Node) :
    SameAt b (bodyWith p run ret ns) (bodyWith p run' ret ns) := by
  induction ns with
  | nil => exact .refl _
  | cons n ns ih =>
    have hn := statementWith_congr (p := p) hrun hmoves n
    refine hn.bind (statementWith_sameSetting hmoves n) fun v => ?_
    by_cases hret : n.isReturn = true
    · rw [if_pos hret, if_pos hret]
      exact .refl _
    · rw [if_neg hret, if_neg hret]
      exact ih

end Congruence

/-! ## equations -/

/-- A step that looks at the machine first. -/
theorem get_bind_apply (f : Machine → Run α) (m : Machine) :
    ((get : Run Machine) >>= f) m = f m m := rfl

section Equations

variable (p : Program)

/-- A function is called with the frames that are left. -/
theorem sameAt_callFunction (b : Nat) (f : FunctionDef) (args : List Value) :
    SameAt b (execute p b f args) (callFunction p f args) := by
  rintro m rfl
  rfl

theorem evaluate_eq (n : Node) : evaluate p n = evaluateWith p (callFunction p) n := by
  funext m
  exact evaluateWith_congr (sameAt_callFunction p _) (callFunction_moves p) n m rfl

theorem statement_eq (n : Node) : statement p n = statementWith p (callFunction p) n := by
  funext m
  exact statementWith_congr (sameAt_callFunction p _) (callFunction_moves p) n m rfl

theorem budget_eq_zero_iff (m : Machine) : m.budget = 0 ↔ m.maxDepth ≤ m.stack.length := by
  rw [Machine.budget, Int.toNat_eq_zero]
  omega

theorem budget_push {m : Machine} {b : Nat} (hm : m.budget = b + 1) (f : Frame) :
    (m.push f).budget = b := by
  simp only [Machine.budget, Machine.push, List.length_cons] at hm ⊢
  omega

/-- A function is executed in a frame of its own, unless there are too many frames already or
the number of arguments is wrong. -/
theorem callFunction_eq (f : FunctionDef) (args : List Value) (m : Machine) :
    callFunction p f args m =
      if m.maxDepth ≤ m.stack.length then fail (.depthExceeded m.maxDepth) m
      else if args.length ≠ f.params.length then
        fail (.argumentCount f.name f.params.length args.length) m
      else inFrame (frameOf f args)
        (inContext (.inFunction f.name) (bodyWith p (callFunction p) f.ret f.body)) m := by
  show execute p m.budget f args m = _
  cases hb : m.budget with
  | zero =>
    rw [if_pos ((budget_eq_zero_iff m).mp hb)]
    rfl
  | succ b =>
    have hdepth : ¬ m.maxDepth ≤ m.stack.length := by
      rw [← budget_eq_zero_iff, hb]
      exact Nat.succ_ne_zero b
    have hbody := SameAt.inContext (.inFunction f.name)
      (bodyWith_congr (p := p) (sameAt_callFunction p b) (callFunction_moves p) f.ret f.body)
    have hframe : inFrame (frameOf f args)
        (inContext (.inFunction f.name) (bodyWith p (execute p b) f.ret f.body)) m =
      inFrame (frameOf f args)
        (inContext (.inFunction f.name) (bodyWith p (callFunction p) f.ret f.body)) m := by
      unfold inFrame
      rw [hbody _ (budget_push hb _)]
    rw [if_neg hdepth, ← hframe, execute, get_bind_apply, if_neg hdepth]
    by_cases hcount : args.length ≠ f.params.length
    · rw [if_pos hcount, if_pos hcount]
      rfl
    · rw [if_neg hcount, if_neg hcount]

/-- Evaluate the arguments of a call, the first of them being number `i`. -/
def arguments (name : String) (i : Nat) (ns : List Node) : Run (List Value) :=
  argumentsWith p (callFunction p) name i ns

/-- Execute the statements of a body up to its first return. -/
def body (ret : String) (ns : List Node) : Run Value := bodyWith p (callFunction p) ret ns

theorem arguments_cons (name : String) (i : Nat) (n : Node) (ns : List Node) :
    arguments p name i (n :: ns) = (do
      let v ← inContext (.argument i name) (evaluate p n)
      return v :: (← arguments p name (i + 1) ns)) := by
  rw [evaluate_eq]
  rfl

theorem body_cons (ret : String) (n : Node) (ns : List Node) :
    body p ret (n :: ns) = (do
      let v ← statement p n
      if n.isReturn then return v
      body p ret ns) := by
  rw [statement_eq]
  rfl

theorem evaluate_call_eq (name : String) (args : List Node) :
    evaluate p (.call name args) =
      inContext .expression (callNamed p (callFunction p) name (arguments p name 1 args)) := by
  rw [evaluate_eq]
  rfl

theorem evaluate_bin_eq (op : String) (left right : Node) :
    evaluate p (.bin op left right) =
      inContext .expression (binary op (evaluate p left) (evaluate p right)) := by
  simp only [evaluate_eq]
  rfl

theorem evaluate_un_eq (op : String) (operand : Node) :
    evaluate p (.un op operand) = inContext .expression (unary op (evaluate p operand)) := by
  simp only [evaluate_eq]
  rfl

theorem statement_call (name : String) (args : List Node) :
    statement p (.call name args) = inContext .statement (evaluate p (.call name args)) := by
  rw [statement_eq, evaluate_eq]
  rfl

theorem statement_ret (v : Node) :
    statement p (.ret v) = inContext .statement (evaluate p v) := by
  rw [statement_eq, evaluate_eq]
  rfl

theorem statement_letIn (name : String) (e : Node) :
    statement p (.letIn name e) = inContext .statement (do
      let v ← evaluate p e
      setVariable name v
      return v) := by
  rw [statement_eq, evaluate_eq]
  rfl

/-- A function in its frame, where nothing stands in the way of entering it. -/
theorem callFunction_of_enterable {f : FunctionDef} {args : List Value} {m : Machine}
    (hdepth : ¬ m.maxDepth ≤ m.stack.length) (hcount : args.length = f.params.length) :
    callFunction p f args m = inFrame (frameOf f args)
      (inContext (.inFunction f.name) (body p f.ret f.body)) m := by
  rw [callFunction_eq, if_neg hdepth, if_neg (fun hne => hne hcount)]
  rfl

end Equations

/-! ## names that are called -/

/-- What a call can come to: a function of the environment or one of the program. -/
inductive Callee where
  | builtin (f : Callable)
  | user (f : FunctionDef)

/-- What a name stands for in a call: the environment hides the functions of the program. -/
def callee? (p : Program) (env : Bindings) (name : String) : Option Callee :=
  if name = "" then none
  else
    match env.get? name with
    | some (.fn f) => some (.builtin f)
    | _ => (p.find? name).map .user

section Callee

variable {p : Program} {env : Bindings} {m : Machine} {name : String} (run : Executor)
  (args : Run (List Value))

theorem env_of_callee? {f : Callable} (h : callee? p env name = some (.builtin f)) :
    env.get? name = some (.fn f) := by
  unfold callee? at h
  split at h
  · cases h
  · split at h
    · next f' henv =>
      cases h
      exact henv
    · obtain ⟨_, _, hf⟩ := Option.map_eq_some_iff.mp h
      cases hf

theorem mem_of_callee? {f : FunctionDef} (h : callee? p env name = some (.user f)) :
    f ∈ p.functions := by
  unfold callee? at h
  split at h
  · cases h
  · split at h
    · cases h
    · obtain ⟨f', hfind, hf⟩ := Option.map_eq_some_iff.mp h
      cases hf
      exact Program.mem_of_find? hfind

theorem callNamed_of_builtin {f : Callable} (h : callee? p m.env name = some (.builtin f)) :
    callNamed p run name args m = callBuiltin name f args m := by
  have henv := env_of_callee? h
  unfold callee? at h
  split at h
  · cases h
  · next hname =>
    unfold callNamed
    rw [if_neg hname]
    refine (get_bind_apply _ m).trans ?_
    rw [henv]

theorem callNamed_of_user {f : FunctionDef} (h : callee? p m.env name = some (.user f)) :
    callNamed p run name args m = inContext (.userCall name) (do run f (← args)) m := by
  unfold callee? at h
  split at h
  · cases h
  · next hname =>
    unfold callNamed
    rw [if_neg hname]
    refine (get_bind_apply _ m).trans ?_
    split at h
    · cases h
    · next henv =>
      obtain ⟨f', hfind, hf⟩ := Option.map_eq_some_iff.mp h
      cases hf
      simp only [hfind]

/-- A name that stands for nothing is called in vain, before any argument is evaluated. -/
theorem callNamed_of_none (h : callee? p m.env name = none) :
    callNamed p run name args m =
      fail (if name = "" then .emptyCallName else .unknownFunction name) m := by
  unfold callee? at h
  unfold callNamed
  split at h
  · next hname =>
    rw [if_pos hname, if_pos hname]
    rfl
  · next hname =>
    rw [if_neg hname, if_neg hname]
    refine (get_bind_apply _ m).trans ?_
    split at h
    · cases h
    · next henv => simp only [Option.map_eq_none_iff.mp h]

end Callee

/-! ## calls that leave the machine as it was -/

section Kept

variable {p : Program} {m : Machine} {name : String}

theorem evaluate_var_of_lookup? {v : Value} (h : m.lookup? name = some v) :
    evaluate p (.var name) m = .ok v m := by
  rw [evaluate_eq]
  refine inContext_of_ok _ ?_
  unfold getVariable
  rw [get_bind_apply, h]
  rfl

theorem arguments_of_forall₂ {ns : List Node} {vs : List Value}
    (h : List.Forall₂ (fun n v => evaluate p n m = .ok v m) ns vs) (i : Nat) :
    arguments p name i ns m = .ok vs m := by
  induction h generalizing i with
  | nil => rfl
  | cons hn _ ih =>
    rw [arguments_cons, bind_of_ok (inContext_of_ok _ hn), bind_of_ok (ih (i + 1))]
    rfl

/-- A built-in function that does not use the world, called on values. -/
theorem evaluate_builtin {b : Builtin} {ns : List Node} {vs : List Value} {v : Value}
    (hname : name ≠ "") (henv : m.env.get? name = some (.fn (.builtin b)))
    (hargs : List.Forall₂ (fun n v => evaluate p n m = .ok v m) ns vs)
    (hcall : b.pureCall? vs = some (.ok v)) : evaluate p (.call name ns) m = .ok v m := by
  have hcallee : callee? p m.env name = some (.builtin (.builtin b)) := by
    rw [callee?, if_neg hname, henv]
  have hinvoke : invoke (.builtin b) vs m = .ok v m := by
    simp only [invoke, onWorld, Builtin.call, hcall]
    rfl
  rw [evaluate_call_eq]
  refine inContext_of_ok _ ?_
  rw [callNamed_of_builtin _ _ hcallee]
  exact tryCatch_of_ok ((bind_of_ok (arguments_of_forall₂ hargs 1)).trans hinvoke)

end Kept

end LetCall.Run
