import LetCall.Proofs.Stepwise

/-!
# LetCall.Proofs.Stepwise.Ending

Every run ends.  Taken step by step a task comes, after finitely many steps, to the outcome
that evaluation as a whole gives, whatever waits for it.  The proof goes along the tree inside
of one function, and along the frames that can still be pushed from one function to the next.

Main statements: `leads_task`, and `runs_end`, which puts it together with the bound on the
frames.
-/

namespace LetCall.Run

variable {p : Program}

/-! ## steps in a row -/

theorem steps?_add (p : Program) (k j : Nat) (c : Config) :
    steps? p (k + j) c = (steps? p k c).bind (steps? p j) := by
  induction k generalizing c with
  | zero => simp [steps?]
  | succ k ih =>
    rw [Nat.succ_add, steps?, steps?, Option.bind_assoc]
    exact congrArg _ (funext ih)

/-- One configuration comes after finitely many steps to another. -/
def Leads (p : Program) (c c' : Config) : Prop := ∃ k, steps? p k c = some c'

namespace Leads

variable {c c₁ c' : Config}

theorem refl (c : Config) : Leads p c c := ⟨0, rfl⟩

theorem trans (h : Leads p c c₁) (h' : Leads p c₁ c') : Leads p c c' := by
  obtain ⟨k, hk⟩ := h
  obtain ⟨j, hj⟩ := h'
  exact ⟨k + j, by rw [steps?_add, hk, Option.bind_some, hj]⟩

theorem single (h : step? p c = some c') : Leads p c c' := ⟨1, by rw [steps?, h]; rfl⟩

theorem head (h : step? p c = some c₁) (h' : Leads p c₁ c') : Leads p c c' := (single h).trans h'

end Leads

/-! ## outcomes that are handed on -/

section Handing

variable {K : List Waiting} {x : Run Value} {m : Machine}

theorem leads_inContext {r : EStateM.Result Stop Machine Value} (p : Program) (c : Context)
    (h : x m = r) : Leads p (.settled (.inContext c :: K) r) (.settled K (inContext c x m)) := by
  cases r with
  | ok v m' =>
    rw [inContext_of_ok c h]
    exact .single rfl
  | error s m' =>
    rw [inContext_of_error c h]
    exact .single rfl

/-- A frame is left on every way out. -/
theorem leads_leave (p : Program) (f : Frame) (x : Run Value) (m : Machine) :
    Leads p (.settled (.leave :: K) (x (m.push f))) (.settled K (inFrame f x m)) := by
  cases h : x (m.push f) with
  | ok v m' =>
    rw [inFrame_eq_ok_iff.mpr ⟨m', h, rfl⟩]
    exact .single rfl
  | error s m' =>
    rw [inFrame_of_error h]
    exact .single rfl

theorem leads_calling (p : Program) (name : String) (f : Callable) (args : Run (List Value))
    (m : Machine) :
    Leads p (.settled (.calling name :: K) ((do invoke f (← args) : Run Value) m))
      (.settled K (callBuiltin name f args m)) := by
  cases h : (do invoke f (← args) : Run Value) m with
  | ok v m' =>
    have hcall : callBuiltin name f args m = .ok v m' := tryCatch_of_ok h
    rw [hcall]
    exact .single rfl
  | error s m' =>
    rw [callBuiltin_eq_error_iff.mpr ⟨s, h, rfl⟩]
    exact .single rfl

/-- What goes on with a value and lets every stop pass. -/
theorem leads_bind {k : Waiting} (g : Value → Run Value)
    (hpass : ∀ m s, pass K m s k = ⟨.stop s, K, m⟩)
    (hreceive : ∀ v m', x m = .ok v m' → Leads p ⟨.give v, k :: K, m'⟩ (.settled K (g v m'))) :
    Leads p (.settled (k :: K) (x m)) (.settled K ((x >>= g) m)) := by
  cases h : x m with
  | ok v m' =>
    rw [bind_of_ok h]
    exact hreceive v m' h
  | error s m' =>
    rw [bind_of_error h]
    exact .single (congrArg some (hpass m' s))

end Handing

/-! ## expressions -/

/-- Wherever `b` more frames can be pushed, what is done next comes to the outcome of `x`. -/
def Does (p : Program) (b : Nat) (F : Focus) (x : Run Value) : Prop :=
  ∀ m, m.budget = b → ∀ K, Leads p ⟨F, K, m⟩ (.settled K (x m))

/-- Functions come to their outcomes wherever `b` more frames can be pushed. -/
def CallsEnd (p : Program) (b : Nat) : Prop :=
  ∀ f args, Does p b (.task (.function f args)) (callFunction p f args)

/-- Call what a name stands for. -/
def callCallee (p : Program) (args : List Value) : Callee → Run Value
  | .builtin f => invoke f args
  | .user f => callFunction p f args

/-- Evaluate further arguments of a call, and call. -/
def callAfter (p : Program) (name : String) (c : Callee) (i : Nat) (done : List Value)
    (rest : List Node) : Run Value := do
  let vs ← arguments p name i rest
  callCallee p (done ++ vs) c

/-- The next argument, in its context, and then the others. -/
theorem callAfter_cons (name : String) (c : Callee) (i : Nat) (done : List Value) (n : Node)
    (ns : List Node) : callAfter p name c i done (n :: ns) = (do
      let v ← inContext (.argument i name) (evaluate p n)
      callAfter p name c (i + 1) (done ++ [v]) ns) := by
  simp [callAfter, arguments_cons]

/-- What changes the world only leaves as many frames to push as before. -/
theorem budget_of_moves {x : Run Value} (hx : Moves OnlyWorld x) {m m' : Machine} {v : Value}
    (h : x m = .ok v m') : m'.budget = m.budget := by
  have hm := hx m
  rw [h] at hm
  exact hm.sameSetting.budget

section Nodes

variable {b : Nat}

/-- Nodes that cannot be evaluated. -/
theorem does_refused (n : Node) (hn : n.canEvaluate = false) :
    Does p b (.task (.node n)) (evaluate p n) := by
  intro m _ K
  have hfail : evaluate p n = inContext .expression (fail (.cannotEvaluate n.label)) := by
    cases n <;> cases hn <;> rfl
  have hbegin : beginNode p K m n =
      .settled (.inContext .expression :: K) (fail (.cannotEvaluate n.label) m) := by
    cases n <;> cases hn <;> rfl
  rw [hfail]
  exact .head (congrArg some hbegin) (leads_inContext p .expression rfl)

theorem does_binary {op : String} {l r : Node} (hl : Does p b (.task (.node l)) (evaluate p l))
    (hr : Does p b (.task (.node r)) (evaluate p r)) :
    Does p b (.task (.node (.bin op l r))) (evaluate p (.bin op l r)) := by
  intro m hm K
  rw [evaluate_bin_eq]
  have hboth : Leads p (.settled (.right op r :: .inContext .binary :: .inContext .expression :: K)
      (evaluate p l m)) (.settled (.inContext .binary :: .inContext .expression :: K)
        ((do let a ← evaluate p l; let b ← evaluate p r; applyBinary op a b : Run Value) m)) := by
    refine leads_bind _ (fun _ _ => rfl) fun a m₁ hleft => .head rfl ?_
    have hm₁ := (budget_of_moves (evaluate_moves p l) hleft).trans hm
    refine (hr m₁ hm₁ _).trans ?_
    exact leads_bind _ (fun _ _ => rfl) fun v m₂ _ => .single rfl
  refine .head rfl ((hl m hm _).trans (hboth.trans ?_))
  exact (leads_inContext p .binary rfl).trans (leads_inContext p .expression rfl)

theorem does_unary {op : String} {x : Node} (hx : Does p b (.task (.node x)) (evaluate p x)) :
    Does p b (.task (.node (.un op x))) (evaluate p (.un op x)) := by
  intro m hm K
  rw [evaluate_un_eq]
  have happly : Leads p (.settled (.unary op :: .inContext .unary :: .inContext .expression :: K)
      (evaluate p x m)) (.settled (.inContext .unary :: .inContext .expression :: K)
        ((do applyUnary op (← evaluate p x) : Run Value) m)) :=
    leads_bind _ (fun _ _ => rfl) fun v m₁ _ => .single rfl
  refine .head rfl ((hx m hm _).trans (happly.trans ?_))
  exact (leads_inContext p .unary rfl).trans (leads_inContext p .expression rfl)

theorem does_arguments_cons {name : String} {c : Callee} {i : Nat} {n : Node} {ns : List Node}
    (hn : Does p b (.task (.node n)) (evaluate p n))
    (hns : ∀ done, Does p b (.arguments name c (i + 1) done ns)
      (callAfter p name c (i + 1) done ns)) (done : List Value) :
    Does p b (.arguments name c i done (n :: ns)) (callAfter p name c i done (n :: ns)) := by
  intro m hm K
  rw [callAfter_cons]
  refine .head rfl ((hn m hm _).trans ((leads_inContext p (.argument i name) rfl).trans ?_))
  refine leads_bind _ (fun _ _ => rfl) fun v m₁ hv => .head rfl ?_
  have hmoves := Moves.inContext (.argument i name) (evaluate_moves p n)
  exact hns _ m₁ ((budget_of_moves hmoves hv).trans hm) K

theorem does_arguments_nil (hcalls : CallsEnd p b) (name : String) (c : Callee) (i : Nat)
    (done : List Value) :
    Does p b (.arguments name c i done []) (callAfter p name c i done []) := by
  intro m hm K
  have hnil : callAfter p name c i done [] = callCallee p done c := by
    show (pure [] >>= fun vs => callCallee p (done ++ vs) c) = _
    rw [pure_bind, List.append_nil]
  rw [hnil]
  cases c with
  | builtin f => exact .single rfl
  | user f => exact .head rfl (hcalls f done m hm K)

theorem does_call {name : String} {args : List Node}
    (hargs : ∀ c, Does p b (.arguments name c 1 [] args) (callAfter p name c 1 [] args)) :
    Does p b (.task (.node (.call name args))) (evaluate p (.call name args)) := by
  intro m hm K
  rw [evaluate_call_eq]
  cases hcallee : callee? p m.env name with
  | none =>
    have hcall := callNamed_of_none (callFunction p) (arguments p name 1 args) hcallee
    refine .head ?_ (leads_inContext p .expression hcall)
    simp only [step?, begin, beginNode, hcallee]
  | some c =>
    have hbegin : step? p ⟨.task (.node (.call name args)), K, m⟩ =
        some ⟨.arguments name c 1 [] args, c.waiting name :: .inContext .expression :: K, m⟩ := by
      simp only [step?, begin, beginNode, hcallee]
    refine .head hbegin ((hargs c m hm _).trans ?_)
    cases c with
    | builtin f =>
      have hcall := callNamed_of_builtin (callFunction p) (arguments p name 1 args) hcallee
      exact (leads_calling p name f (arguments p name 1 args) m).trans
        (leads_inContext p .expression hcall)
    | user f =>
      have hcall := callNamed_of_user (callFunction p) (arguments p name 1 args) hcallee
      exact (leads_inContext p (.userCall name) rfl).trans (leads_inContext p .expression hcall)

-- by recursion on the tree, as evaluation itself
mutual

theorem does_node (hcalls : CallsEnd p b) :
    (n : Node) → Does p b (.task (.node n)) (evaluate p n)
  | .absent => fun _ _ _ => .single rfl
  | .str _ => fun _ _ _ => .single rfl
  | .num _ => fun _ _ _ => .single rfl
  | .var _ => fun _ _ _ => .head rfl (leads_inContext p .expression rfl)
  | .call name args => does_call fun c => does_arguments hcalls name c 1 args []
  | .bin _ l r => does_binary (does_node hcalls l) (does_node hcalls r)
  | .un _ x => does_unary (does_node hcalls x)
  | .letIn name v => does_refused (.letIn name v) rfl
  | .ret v => does_refused (.ret v) rfl
  | .foreign f => does_refused (.foreign f) rfl
termination_by structural n => n

theorem does_arguments (hcalls : CallsEnd p b) (name : String) (c : Callee) :
    (i : Nat) → (ns : List Node) → (done : List Value) →
      Does p b (.arguments name c i done ns) (callAfter p name c i done ns)
  | i, [], done => does_arguments_nil hcalls name c i done
  | i, n :: ns, done =>
    does_arguments_cons (does_node hcalls n)
      (fun done => does_arguments hcalls name c (i + 1) ns done) done
termination_by structural _ ns => ns

end

end Nodes

/-! ## statements and functions -/

section Functions

variable {b : Nat}

/-- Nodes that cannot be executed. -/
theorem does_unexecutable (n : Node) (hn : n.canExecute = false) :
    Does p b (.task (.statement n)) (statement p n) := by
  intro m _ K
  have hfail : statement p n = inContext .statement (fail (.unknownStatement n.label)) := by
    cases n <;> cases hn <;> rfl
  have hbegin : beginStatement K m n =
      .settled (.inContext .statement :: K) (fail (.unknownStatement n.label) m) := by
    cases n <;> cases hn <;> rfl
  rw [hfail]
  exact .head (congrArg some hbegin) (leads_inContext p .statement rfl)

theorem does_statement (hcalls : CallsEnd p b) (n : Node) :
    Does p b (.task (.statement n)) (statement p n) := by
  intro m hm K
  cases n with
  | call name args =>
    rw [statement_call]
    exact .head rfl ((does_node hcalls _ m hm _).trans (leads_inContext p .statement rfl))
  | ret v =>
    rw [statement_ret]
    exact .head rfl ((does_node hcalls _ m hm _).trans (leads_inContext p .statement rfl))
  | letIn name e =>
    rw [statement_letIn]
    refine .head rfl ((does_node hcalls e m hm _).trans ?_)
    refine Leads.trans ?_ (leads_inContext p .statement rfl)
    exact leads_bind _ (fun _ _ => rfl) fun v m₁ _ => .single rfl
  | _ => exact does_unexecutable _ rfl m hm K

/-- The statements of a body, up to the first that returns. -/
theorem does_row (hcalls : CallsEnd p b) (ret : String) (ns : List Node) :
    Does p b (.row ret ns) (body p ret ns) := by
  induction ns with
  | nil => exact fun _ _ _ => .single rfl
  | cons n ns ih =>
    intro m hm K
    rw [body_cons]
    refine .head rfl ((does_statement hcalls n m hm _).trans ?_)
    refine leads_bind _ (fun _ _ => rfl) fun v m₁ hv => .head rfl ?_
    cases hreturn : n.isReturn with
    | true => exact .refl _
    | false => exact ih m₁ ((statement_sameSetting hv).budget.trans hm) K

/-- Functions come to their outcomes if the calls in their bodies do, which have one frame less
to push. -/
theorem callsEnd_of_bodies (hcalls : ∀ b', b = b' + 1 → CallsEnd p b') : CallsEnd p b := by
  intro f args m hm K
  have hstep : step? p ⟨.task (.function f args), K, m⟩ = some (beginFunction K m f args) := rfl
  refine .head hstep ?_
  rw [callFunction_eq, beginFunction]
  by_cases hdepth : m.maxDepth ≤ m.stack.length
  · rw [if_pos hdepth, if_pos hdepth]
    exact .refl _
  rw [if_neg hdepth, if_neg hdepth]
  by_cases hcount : args.length ≠ f.params.length
  · rw [if_pos hcount, if_pos hcount]
    exact .refl _
  rw [if_neg hcount, if_neg hcount]
  have hpos : b ≠ 0 := by
    rw [← hm]
    exact fun hzero => hdepth ((budget_eq_zero_iff m).mp hzero)
  obtain ⟨b', rfl⟩ := Nat.exists_eq_succ_of_ne_zero hpos
  have hrow := does_row (hcalls b' rfl) f.ret f.body _ (budget_push hm (frameOf f args))
  refine (hrow _).trans ((leads_inContext p (.inFunction f.name) rfl).trans ?_)
  exact leads_leave p (frameOf f args) _ m

/-- Every function comes to its outcome. -/
theorem callsEnd (p : Program) (b : Nat) : CallsEnd p b := by
  induction b with
  | zero => exact callsEnd_of_bodies fun b' hb' => by cases hb'
  | succ b ih =>
    refine callsEnd_of_bodies fun b' hb' => ?_
    cases hb'
    exact ih

end Functions

/-! ## programs -/

/-- Telling of a fault does not hold it up. -/
theorem exists_noteStop (s : Stop) (m : Machine) : ∃ m', noteStop s m = .error s m' := by
  cases s with
  | fault f => exact ⟨_, rfl⟩
  | interrupted s => exact ⟨_, rfl⟩

/-- Global statements, and `main` behind them. -/
theorem leads_globals (p : Program) (ns : List Node) (m : Machine) (K : List Waiting) :
    Leads p ⟨.globals ns, K, m⟩
      (.settled K ((do globals p ns; callMain p : Run Value) m)) := by
  induction ns generalizing m with
  | nil =>
    show Leads p _ (.settled K (callMain p m))
    unfold callMain
    cases hmain : p.find? "main" with
    | none =>
      refine .single ?_
      simp only [step?, hmain]
    | some f =>
      refine .head ?_ (callsEnd p _ f [] m rfl K)
      simp only [step?, hmain]
  | cons n ns ih =>
    refine .head rfl ((does_statement (callsEnd p _) n m rfl _).trans ?_)
    have hcons : (do globals p (n :: ns); callMain p : Run Value) = (do
        let _ ← globalStatement p n
        globals p ns
        callMain p) := bind_assoc _ _ _
    rw [hcons]
    cases hn : statement p n m with
    | ok v m₁ =>
      have hglobal : globalStatement p n m = .ok v m₁ := tryCatch_of_ok hn
      rw [bind_of_ok hglobal]
      exact .head rfl (ih m₁)
    | error s m₁ =>
      obtain ⟨m₂, hnote⟩ := exists_noteStop s m₁
      have hglobal : globalStatement p n m = .error s m₂ := by
        rw [← hnote]
        unfold globalStatement
        rw [tryCatch_of_error hn]
        cases s <;> rfl
      rw [bind_of_error hglobal]
      exact .single (congrArg (fun r => some (Config.settled K r)) hnote)

/-- Modules, and what is executed behind them; no module stops a run. -/
theorem leads_loading (p : Program) (names : List String) (m : Machine) (K : List Waiting) :
    Leads p ⟨.loading names, K, m⟩
      (.settled K ((do imports names; globals p p.statements; callMain p : Run Value) m)) := by
  induction names generalizing m with
  | nil => exact .head rfl (leads_globals p p.statements m K)
  | cons name names ih =>
    obtain ⟨m₁, hloaded, _⟩ := exists_importModule name m
    have hcons : (do imports (name :: names); globals p p.statements; callMain p : Run Value) = (do
        importModule name
        imports names
        globals p p.statements
        callMain p) := bind_assoc _ _ _
    rw [hcons, bind_of_ok hloaded]
    refine .head ?_ (ih m₁)
    simp only [step?, hloaded, Config.loaded]

/-- Programs, before anything is told of how they end. -/
theorem leads_result (p : Program) (m : Machine) (K : List Waiting) :
    Leads p ⟨.task .program, K, m⟩ (.settled K (result p m)) := by
  have hstep : step? p ⟨.task .program, K, m⟩ = some (beginProgram p K m) := rfl
  refine .head hstep ?_
  unfold beginProgram result
  by_cases hfunctions : p.functions.isEmpty = true
  · rw [if_pos hfunctions, if_pos hfunctions]
    exact .refl _
  rw [if_neg hfunctions, if_neg hfunctions]
  cases p.imports with
  | none => exact .refl _
  | some names => exact leads_loading p names m K

/-- Every task comes to its outcome, whatever waits for it. -/
theorem leads_task (p : Program) (t : Task) (m : Machine) (K : List Waiting) :
    Leads p ⟨.task t, K, m⟩ (.settled K (t.run p m)) := by
  cases t with
  | program => exact leads_result p m K
  | statement n => exact does_statement (callsEnd p _) n m rfl K
  | function f args => exact callsEnd p _ f args m rfl K
  | node n => exact does_node (callsEnd p _) n m rfl K

/-- The outcome of a program becomes an exit value. -/
theorem leads_exit (p : Program) (m : Machine) (K : List Waiting) :
    Leads p (.settled (.exit :: K) (result p m)) (.settled K (program p m)) := by
  cases h : result p m with
  | ok v m₁ =>
    have hexit : exitValue p m = .ok (exitOf v) m₁ := by
      unfold exitValue
      rw [bind_of_ok h]
      cases v <;> rfl
    have hprogram : program p m = .ok _ m₁ := tryCatch_of_ok hexit
    rw [hprogram]
    exact .single rfl
  | error s m₁ =>
    have hexit : exitValue p m = .error s m₁ := bind_of_error h
    have hprogram : program p m = reportStop s m₁ := by
      unfold program
      rw [tryCatch_of_error hexit]
      cases s <;> rfl
    rw [hprogram]
    exact .single rfl

/-! ## the end of a run -/

/-- A run takes so many steps and no more, and comes to an outcome. -/
def EndsWith (p : Program) (c : Config) (r : EStateM.Result Stop Machine Value) : Prop :=
  ∃ k, steps? p k c = some (.settled [] r) ∧ steps? p (k + 1) c = none

theorem Leads.endsWith {c : Config} {r : EStateM.Result Stop Machine Value}
    (h : Leads p c (.settled [] r)) : EndsWith p c r := by
  obtain ⟨k, hk⟩ := h
  refine ⟨k, hk, ?_⟩
  rw [steps?_add, hk]
  cases r <;> rfl

/-- Every task ends with the outcome that evaluation gives it, and so does a whole run with its
exit value.  At no step are there more frames than the limit, or than at the start. -/
theorem runs_end (p : Program) (m : Machine) :
    (∀ t : Task, EndsWith p ⟨.task t, [], m⟩ (t.run p m)) ∧
    EndsWith p ⟨.task .program, [.exit], m⟩ (program p m) ∧
    (∃ v m', program p m = .ok v m') ∧
    ∀ (t : Task) (K : List Waiting) (k : Nat) (c : Config),
      steps? p k ⟨.task t, K, m⟩ = some c →
        (c.machine.stack.length : Int) ≤ max m.maxDepth m.stack.length := by
  refine ⟨?_, ?_, ?_, ?_⟩
  · intro t
    exact (leads_task p t m []).endsWith
  · exact ((leads_result p m [.exit]).trans (leads_exit p m [])).endsWith
  · obtain ⟨v, m', hprogram, _⟩ := exists_program p m
    exact ⟨v, m', hprogram⟩
  · intro t K k c hsteps
    have hstart : Bounded m.maxDepth m.stack.length m := ⟨rfl, le_max_right _ _⟩
    exact (steps_bounded hsteps hstart).frames

/-- A program whose `main` calls itself. -/
def endless : Program where
  imports := some []
  functions := [⟨"main", [], "void", [.call "main" []]⟩]

/-- It pushes the two frames that it may, and ends. -/
theorem endless_ends :
    let m : Machine := { maxDepth := 2 }
    EndsWith endless ⟨.task .program, [.exit], m⟩ (program endless m) ∧
    ∃ c, steps? endless 12 ⟨.task .program, [.exit], m⟩ = some c ∧ c.machine.stack.length = 2 ∧
      (c.machine.stack.length : Int) ≤ max m.maxDepth m.stack.length := by
  have hends := runs_end endless { maxDepth := 2 }
  exact ⟨hends.2.1, _, rfl, rfl, hends.2.2.2 .program [.exit] 12 _ rfl⟩

/-- Frames that are there at the start, beyond the limit, stay while a number is evaluated. -/
theorem crowded_at_the_start :
    ¬ ∀ (p : Program) (m : Machine) (t : Task) (k : Nat) (c : Config),
      steps? p k ⟨.task t, [], m⟩ = some c → (c.machine.stack.length : Int) ≤ m.maxDepth := by
  intro hlimit
  let m : Machine := { stack := [⟨"g", []⟩, ⟨"f", []⟩], maxDepth := 1 }
  have hstep : steps? {} 1 ⟨.task (.node (.num (.int 1))), [], m⟩ =
      some ⟨.give (.int 1), [], m⟩ := rfl
  have hle : (2 : Int) ≤ 1 := hlimit _ _ _ _ _ hstep
  omega

end LetCall.Run
