import LetCall.Proofs.Evaluation
import Mathlib.Data.Prod.Lex

/-!
# LetCall.Proofs.Moments

The moments of a run.  At each of them a machine has a task: to run the program, to execute a
statement, to call a function or to evaluate a node.  It enters further moments for parts of
its task, one after the other, and enters the next one only when the last has given a value
(`EntersIn`, which also says which contexts a fault passes on its way out).

Main statements: entering changes neither the environment nor the number of frames, except
that a program brings modules in and that a function has a frame of its own
(`EntersIn.setting`), and no moment enters others for ever (`wellFounded_enters`).
-/

namespace LetCall

/-- A stop that has passed some contexts on its way out, the outermost first; an interruption
passes none. -/
def Stop.within (cs : List Context) : Stop → Stop
  | .fault f => .fault { f with contexts := cs ++ f.contexts }
  | .interrupted s => .interrupted s

@[simp] theorem Stop.within_nil (s : Stop) : s.within [] = s := by
  cases s <;> rfl

theorem Stop.within_cons (c : Context) (cs : List Context) (s : Stop) :
    s.within (c :: cs) = (s.within cs).within [c] := by
  cases s <;> rfl

namespace Run

/-! ## steps in contexts and frames -/

section Steps

variable {α : Type} {c : Context} {x : Run α} {m m' : Machine} {a : α} {s : Stop} {f : Frame}

theorem inContext_eq_ok_iff : inContext c x m = .ok a m' ↔ x m = .ok a m' := by
  unfold inContext
  cases x m with
  | ok a m' => rfl
  | error s m' => cases s <;> simp

theorem inContext_eq_error_iff :
    inContext c x m = .error s m' ↔ ∃ s', x m = .error s' m' ∧ s = s'.within [c] := by
  unfold inContext
  cases x m with
  | ok a m' => simp
  | error s₁ m₁ =>
    constructor
    · intro h
      cases s₁ <;> cases h <;> exact ⟨_, rfl, rfl⟩
    · rintro ⟨s', h, rfl⟩
      cases h
      cases s₁ <;> rfl

theorem inContext_of_error (c : Context) (h : x m = .error s m') :
    inContext c x m = .error (s.within [c]) m' := inContext_eq_error_iff.mpr ⟨s, h, rfl⟩

theorem inFrame_of_error (h : x (m.push f) = .error s m') : inFrame f x m = .error s m'.pop := by
  simp only [inFrame, h]

theorem inFrame_eq_ok_iff :
    inFrame f x m = .ok a m' ↔ ∃ m₁, x (m.push f) = .ok a m₁ ∧ m₁.pop = m' := by
  unfold inFrame
  cases x (m.push f) with
  | ok a m₁ => simp [and_assoc]
  | error s m₁ => simp

theorem inFrame_eq_error_iff :
    inFrame f x m = .error s m' ↔ ∃ m₁, x (m.push f) = .error s m₁ ∧ m₁.pop = m' := by
  unfold inFrame
  cases x (m.push f) with
  | ok a m₁ => simp
  | error s m₁ => simp [and_assoc]

end Steps

/-! ## rows of arguments and statements -/

section Rows

variable {p : Program} {name ret : String} {i : Nat} {before after ns : List Node} {n : Node}
  {m m₁ m' : Machine} {s : Stop} {vs : List Value}

/-- An argument fails after those before it have given their values. -/
theorem arguments_error (hbefore : arguments p name i before m = .ok vs m₁)
    (hn : evaluate p n m₁ = .error s m') :
    arguments p name i (before ++ n :: after) m =
      .error (s.within [.argument (i + before.length) name]) m' := by
  induction before generalizing i m vs with
  | nil =>
    cases hbefore
    rw [List.nil_append, arguments_cons]
    exact bind_of_error (inContext_of_error _ hn)
  | cons k before ih =>
    rw [arguments_cons] at hbefore
    obtain ⟨v, m₂, hk, hrest⟩ := bind_eq_ok_iff.mp hbefore
    obtain ⟨vs', m₃, hbefore', hpure⟩ := bind_eq_ok_iff.mp hrest
    cases hpure
    have hindex : i + (k :: before).length = i + 1 + before.length := by
      simp only [List.length_cons]
      omega
    rw [List.cons_append, arguments_cons, bind_of_ok hk, bind_of_error (ih hbefore'), hindex]

/-- Arguments that fail do so at the first of them that does. -/
theorem exists_of_arguments_error (h : arguments p name i ns m = .error s m') :
    ∃ before n after vs m₁ s', ns = before ++ n :: after ∧
      arguments p name i before m = .ok vs m₁ ∧ evaluate p n m₁ = .error s' m' ∧
      s = s'.within [.argument (i + before.length) name] := by
  induction ns generalizing i m with
  | nil => cases h
  | cons n ns ih =>
    rw [arguments_cons] at h
    rcases bind_eq_error_iff.mp h with hn | ⟨v, m₁, hn, hrest⟩
    · obtain ⟨s', herror, rfl⟩ := inContext_eq_error_iff.mp hn
      exact ⟨[], n, ns, [], m, s', rfl, rfl, herror, rfl⟩
    · rcases bind_eq_error_iff.mp hrest with hns | ⟨_, _, _, hpure⟩
      · obtain ⟨before, k, after, vs, m₂, s', rfl, hbefore, hk, rfl⟩ := ih hns
        have hindex : i + (n :: before).length = i + 1 + before.length := by
          simp only [List.length_cons]
          omega
        refine ⟨n :: before, k, after, v :: vs, m₂, s', rfl, ?_, hk, by rw [hindex]⟩
        rw [arguments_cons, bind_of_ok hn, bind_of_ok hbefore]
        rfl
      · cases hpure

/-- Before the values of all arguments there are those of the first of them. -/
theorem exists_of_arguments_ok (h : arguments p name i (before ++ after) m = .ok vs m') :
    ∃ us m₁, arguments p name i before m = .ok us m₁ := by
  induction before generalizing i m vs m' with
  | nil => exact ⟨[], m, rfl⟩
  | cons n before ih =>
    rw [List.cons_append, arguments_cons] at h
    obtain ⟨v, m₁, hn, hrest⟩ := bind_eq_ok_iff.mp h
    obtain ⟨vs', m₂, hbefore, _⟩ := bind_eq_ok_iff.mp hrest
    obtain ⟨us, m₃, hus⟩ := ih hbefore
    refine ⟨v :: us, m₃, ?_⟩
    rw [arguments_cons, bind_of_ok hn, bind_of_ok hus]
    rfl

/-- A body goes on after statements that are no returns. -/
theorem body_append (p : Program) (ret : String) (after : List Node)
    (hreturn : ∀ n ∈ before, n.isReturn = false) :
    body p ret (before ++ after) = (do executeAll p before; body p ret after) := by
  induction before with
  | nil => rfl
  | cons n before ih =>
    rw [List.forall_mem_cons] at hreturn
    have hcons : executeAll p (n :: before) = (do let _ ← statement p n; executeAll p before) := rfl
    rw [List.cons_append, body_cons, hcons, bind_assoc, ← ih hreturn.2]
    simp only [hreturn.1, Bool.false_eq_true, if_false]

/-- A body that fails does so at a statement that no return stands before. -/
theorem exists_of_body_error (h : body p ret ns m = .error s m') :
    ∃ before n after m₁, ns = before ++ n :: after ∧ (∀ k ∈ before, k.isReturn = false) ∧
      executeAll p before m = .ok () m₁ ∧ statement p n m₁ = .error s m' := by
  induction ns generalizing m with
  | nil => cases h
  | cons n ns ih =>
    rw [body_cons] at h
    rcases bind_eq_error_iff.mp h with hn | ⟨v, m₁, hn, hrest⟩
    · exact ⟨[], n, ns, m, rfl, by simp, rfl, hn⟩
    · by_cases hreturn : n.isReturn = true
      · rw [if_pos hreturn] at hrest
        cases hrest
      · rw [if_neg hreturn] at hrest
        obtain ⟨before, k, after, m₂, rfl, hbefore, hrow, hk⟩ := ih hrest
        refine ⟨n :: before, k, after, m₂, rfl, ?_, (bind_of_ok hn).trans hrow, hk⟩
        exact List.forall_mem_cons.mpr ⟨by simpa using hreturn, hbefore⟩

/-- Global statements give a value just as statements in a row do. -/
theorem globals_eq_ok_iff : globals p ns m = .ok () m' ↔ executeAll p ns m = .ok () m' := by
  induction ns generalizing m with
  | nil => rfl
  | cons n ns ih =>
    cases hn : statement p n m with
    | ok v m₁ =>
      have hglobal : globals p (n :: ns) m = globals p ns m₁ := bind_of_ok (tryCatch_of_ok hn)
      have hrow : executeAll p (n :: ns) m = executeAll p ns m₁ := bind_of_ok hn
      rw [hglobal, hrow, ih]
    | error s m₁ =>
      obtain ⟨s', m₂, hglobal, _⟩ := globalStatement_error hn
      have hglobals : globals p (n :: ns) m = .error s' m₂ := bind_of_error hglobal
      have hrow : executeAll p (n :: ns) m = .error s m₁ := bind_of_error hn
      rw [hglobals, hrow]
      simp

/-- A global statement stops a run with its own stop. -/
theorem exists_globalStatement_error (h : statement p n m = .error s m') :
    ∃ m₁, globalStatement p n m = .error s m₁ := by
  cases s with
  | fault f => exact ⟨_, tryCatch_of_error h⟩
  | interrupted s => exact ⟨_, tryCatch_of_error h⟩

theorem globals_error (hbefore : executeAll p before m = .ok () m₁)
    (hn : statement p n m₁ = .error s m') :
    ∃ m₂, globals p (before ++ n :: after) m = .error s m₂ := by
  induction before generalizing m with
  | nil =>
    cases hbefore
    obtain ⟨m₂, hglobal⟩ := exists_globalStatement_error hn
    exact ⟨m₂, bind_of_error hglobal⟩
  | cons k before ih =>
    obtain ⟨v, m₂, hk, hrest⟩ := bind_eq_ok_iff.mp hbefore
    obtain ⟨m₃, hglobals⟩ := ih hrest
    exact ⟨m₃, (bind_of_ok (tryCatch_of_ok hk)).trans hglobals⟩

theorem exists_of_globals_error (h : globals p ns m = .error s m') :
    ∃ before n after m₁ m₂, ns = before ++ n :: after ∧ executeAll p before m = .ok () m₁ ∧
      statement p n m₁ = .error s m₂ := by
  induction ns generalizing m with
  | nil => cases h
  | cons n ns ih =>
    cases hn : statement p n m with
    | ok v m₁ =>
      have hstep : globals p (n :: ns) m = globals p ns m₁ := bind_of_ok (tryCatch_of_ok hn)
      rw [hstep] at h
      obtain ⟨before, k, after, m₂, m₃, rfl, hrow, hk⟩ := ih h
      exact ⟨n :: before, k, after, m₂, m₃, rfl, (bind_of_ok hn).trans hrow, hk⟩
    | error s' m₁ =>
      obtain ⟨m₂, hglobal⟩ := exists_globalStatement_error hn
      have hstep : globals p (n :: ns) m = .error s' m₂ := bind_of_error hglobal
      cases hstep.symm.trans h
      exact ⟨[], n, ns, m, m₁, rfl, rfl, hn⟩

end Rows

/-! ## moments -/

/-- What a machine can have to do. -/
inductive Task where
  | program
  | statement (n : Node)
  | function (f : FunctionDef) (args : List Value)
  | node (n : Node)

/-- Do what there is to do. -/
def Task.run (p : Program) : Task → Run Value
  | .program => result p
  | .statement n => Run.statement p n
  | .function f args => callFunction p f args
  | .node n => evaluate p n

/-- A machine with something to do. -/
structure Moment where
  task : Task
  machine : Machine

/-- What comes of a moment. -/
def Moment.outcome (p : Program) (M : Moment) : EStateM.Result Stop Machine Value :=
  M.task.run p M.machine

/-- The context of a call. -/
def Callee.context (name : String) : Callee → Context
  | .builtin _ => .builtinCall name
  | .user _ => .userCall name

/-- The first moment enters the second: what has to be done before has been done.  The
contexts are those that a fault in the second passes on its way out of the first. -/
inductive EntersIn (p : Program) : List Context → Moment → Moment → Prop
  | global {names : List String} {before after : List Node} {n : Node} {m m₁ m₂ : Machine}
      (hfunctions : p.functions ≠ []) (himports : p.imports = some names)
      (hloaded : imports names m = .ok () m₁) (hn : p.statements = before ++ n :: after)
      (hbefore : executeAll p before m₁ = .ok () m₂) :
      EntersIn p [] ⟨.program, m⟩ ⟨.statement n, m₂⟩
  | main {names : List String} {f : FunctionDef} {m m₁ m₂ : Machine}
      (hfunctions : p.functions ≠ []) (himports : p.imports = some names)
      (hloaded : imports names m = .ok () m₁)
      (hstatements : executeAll p p.statements m₁ = .ok () m₂) (hmain : p.find? "main" = some f) :
      EntersIn p [] ⟨.program, m⟩ ⟨.function f [], m₂⟩
  | call (name : String) (args : List Node) (m : Machine) :
      EntersIn p [.statement] ⟨.statement (.call name args), m⟩ ⟨.node (.call name args), m⟩
  | ret (v : Node) (m : Machine) : EntersIn p [.statement] ⟨.statement (.ret v), m⟩ ⟨.node v, m⟩
  | letIn (name : String) (e : Node) (m : Machine) :
      EntersIn p [.statement] ⟨.statement (.letIn name e), m⟩ ⟨.node e, m⟩
  | body {f : FunctionDef} {args : List Value} {before after : List Node} {n : Node}
      {m m₁ : Machine} (hdepth : ¬ m.maxDepth ≤ m.stack.length)
      (hcount : args.length = f.params.length) (hn : f.body = before ++ n :: after)
      (hreturn : ∀ k ∈ before, k.isReturn = false)
      (hbefore : executeAll p before (m.push (frameOf f args)) = .ok () m₁) :
      EntersIn p [.inFunction f.name] ⟨.function f args, m⟩ ⟨.statement n, m₁⟩
  | argument {name : String} {before after : List Node} {n : Node} {c : Callee} {vs : List Value}
      {m m₁ : Machine} (hcallee : callee? p m.env name = some c)
      (hbefore : arguments p name 1 before m = .ok vs m₁) :
      EntersIn p [.expression, c.context name, .argument (1 + before.length) name]
        ⟨.node (.call name (before ++ n :: after)), m⟩ ⟨.node n, m₁⟩
  | function {name : String} {args : List Node} {f : FunctionDef} {vs : List Value}
      {m m₁ : Machine} (hcallee : callee? p m.env name = some (.user f))
      (hargs : arguments p name 1 args m = .ok vs m₁) :
      EntersIn p [.expression, .userCall name] ⟨.node (.call name args), m⟩ ⟨.function f vs, m₁⟩
  | left (op : String) (l r : Node) (m : Machine) :
      EntersIn p [.expression, .binary] ⟨.node (.bin op l r), m⟩ ⟨.node l, m⟩
  | right {op : String} {l r : Node} {a : Value} {m m₁ : Machine}
      (hleft : evaluate p l m = .ok a m₁) :
      EntersIn p [.expression, .binary] ⟨.node (.bin op l r), m⟩ ⟨.node r, m₁⟩
  | operand (op : String) (x : Node) (m : Machine) :
      EntersIn p [.expression, .unary] ⟨.node (.un op x), m⟩ ⟨.node x, m⟩

/-- The first moment enters the second. -/
def Enters (p : Program) (M N : Moment) : Prop := ∃ cs, EntersIn p cs M N

/-! ## what entering keeps -/

/-- The frames that a task pushes before it enters a moment. -/
def Task.frames : Task → Nat
  | .function _ _ => 1
  | _ => 0

theorem statement_sameSetting {p : Program} {n : Node} {v : Value} {m m' : Machine}
    (h : statement p n m = .ok v m') : SameSetting m m' := by
  have hm := statementWith_sameSetting (p := p) (callFunction_moves p) n m
  rw [← statement_eq, h] at hm
  exact hm

theorem executeAll_sameSetting {p : Program} {ns : List Node} {m m' : Machine}
    (h : executeAll p ns m = .ok () m') : SameSetting m m' := by
  induction ns generalizing m with
  | nil =>
    cases h
    exact refl_of SameSetting _
  | cons n ns ih =>
    obtain ⟨v, m₁, hn, hns⟩ := bind_eq_ok_iff.mp h
    exact trans_of SameSetting (statement_sameSetting hn) (ih hns)

theorem arguments_sameSetting {p : Program} {name : String} {i : Nat} {ns : List Node}
    {vs : List Value} {m m' : Machine} (h : arguments p name i ns m = .ok vs m') :
    SameSetting m m' := by
  have hm := argumentsWith_moves (p := p) (callFunction_moves p) name i ns m
  rw [show argumentsWith p (callFunction p) name i ns m = .ok vs m' from h] at hm
  exact hm.sameSetting

theorem evaluate_sameSetting {p : Program} {n : Node} {v : Value} {m m' : Machine}
    (h : evaluate p n m = .ok v m') : SameSetting m m' := by
  have hm := evaluate_moves p n m
  rw [h] at hm
  exact hm.sameSetting

/-- Loading modules changes the environment and the world only. -/
theorem imports_onlyEnvironment {names : List String} {m m' : Machine}
    (h : imports names m = .ok () m') : OnlyEnvironment m m' := by
  obtain ⟨m₁, hloaded, henv⟩ := exists_imports names m
  cases h.symm.trans hloaded
  exact henv

/-- What entering a moment keeps: the limit on the depth, the frames but for one that a
function pushes, and the environment but for what a program loads. -/
theorem EntersIn.setting {p : Program} {cs : List Context} {M N : Moment} (h : EntersIn p cs M N) :
    N.machine.maxDepth = M.machine.maxDepth ∧
    N.machine.stack.length = M.machine.stack.length + M.task.frames ∧
    (M.task ≠ .program → N.machine.env = M.machine.env) := by
  cases h with
  | @global _ _ _ _ m m₁ m₂ _ _ hloaded _ hbefore =>
    obtain ⟨e, w, rfl⟩ := imports_onlyEnvironment hloaded
    have h := executeAll_sameSetting hbefore
    exact ⟨h.maxDepth, h.depth, fun hne => (hne rfl).elim⟩
  | @main _ _ m m₁ m₂ _ _ hloaded hstatements _ =>
    obtain ⟨e, w, rfl⟩ := imports_onlyEnvironment hloaded
    have h := executeAll_sameSetting hstatements
    exact ⟨h.maxDepth, h.depth, fun hne => (hne rfl).elim⟩
  | body _ _ _ _ hbefore =>
    have h := executeAll_sameSetting hbefore
    exact ⟨h.maxDepth, h.depth, fun _ => h.env⟩
  | argument _ hbefore =>
    have h := arguments_sameSetting hbefore
    exact ⟨h.maxDepth, h.depth, fun _ => h.env⟩
  | function _ hargs =>
    have h := arguments_sameSetting hargs
    exact ⟨h.maxDepth, h.depth, fun _ => h.env⟩
  | right hleft =>
    have h := evaluate_sameSetting hleft
    exact ⟨h.maxDepth, h.depth, fun _ => h.env⟩
  | _ => exact ⟨rfl, rfl, fun _ => rfl⟩

/-! ## entering ends -/

/-- How much there is to a task, apart from the functions it calls. -/
noncomputable def Task.size (p : Program) : Task → Nat
  | .program => sizeOf p.statements + 2
  | .statement n => sizeOf n + 1
  | .function _ _ => 0
  | .node n => sizeOf n

/-- The frames that can still be pushed, then the size of the task. -/
noncomputable def Moment.measure (p : Program) (M : Moment) : Nat ×ₗ Nat :=
  toLex (M.machine.budget, M.task.size p)

theorem EntersIn.size_lt {p : Program} {cs : List Context} {M N : Moment} (h : EntersIn p cs M N)
    (hframes : M.task.frames = 0) : N.task.size p < M.task.size p := by
  cases h with
  | @global _ before after n _ _ _ _ _ _ hn =>
    have hlt : sizeOf n < sizeOf p.statements := by
      rw [hn]
      exact List.sizeOf_lt_of_mem (by simp)
    simp only [Task.size]
    omega
  | body => cases hframes
  | @argument name before after n =>
    have hlt : sizeOf n < sizeOf (before ++ n :: after) := List.sizeOf_lt_of_mem (by simp)
    simp only [Task.size, Node.call.sizeOf_spec]
    omega
  | _ =>
    simp only [Task.size, Node.call.sizeOf_spec, Node.bin.sizeOf_spec, Node.un.sizeOf_spec,
      Node.letIn.sizeOf_spec, Node.ret.sizeOf_spec]
    omega

/-- A function has one frame less to push in its body, and any other task has smaller parts. -/
theorem EntersIn.measure_lt {p : Program} {cs : List Context} {M N : Moment}
    (h : EntersIn p cs M N) : N.measure p < M.measure p := by
  obtain ⟨hlimit, hstack, _⟩ := h.setting
  rw [Moment.measure, Moment.measure, Prod.Lex.toLex_lt_toLex]
  by_cases hframes : M.task.frames = 0
  · rw [hframes, Nat.add_zero] at hstack
    exact .inr ⟨by rw [Machine.budget, hlimit, hstack, Machine.budget], h.size_lt hframes⟩
  · left
    cases h with
    | body hdepth =>
      simp only [Task.frames] at hlimit hstack
      simp only [Machine.budget, hlimit, hstack]
      omega
    | _ => exact (hframes rfl).elim

/-- No moment enters others for ever. -/
theorem wellFounded_enters (p : Program) : WellFounded fun N M => Enters p M N := by
  refine Subrelation.wf ?_ (InvImage.wf (Moment.measure p) wellFounded_lt)
  rintro N M ⟨cs, h⟩
  exact h.measure_lt

end Run

end LetCall
