import LetCall.Proofs.Moments.Failing

/-!
# LetCall.Proofs.Stepwise

A run taken step by step.  A configuration is what is done next, what waits for its outcome,
the innermost first, and the machine; a step does what is next, or hands a value or a stop to
what waits.  Nothing bounds the number of steps.  Operators, built-in functions and the loading
of a module are single steps.

Main statement: a step never pushes a frame beyond the limit (`step_bounded`), so neither does
a run (`steps_bounded`).
-/

namespace LetCall.Run

/-! ## configurations -/

/-- What is done next. -/
inductive Focus where
  | task (t : Task)
  /-- Bring modules in, then go on with the global statements. -/
  | loading (names : List String)
  /-- Execute global statements, then `main`. -/
  | globals (ns : List Node)
  /-- Execute the statements of a body. -/
  | row (ret : String) (ns : List Node)
  /-- Evaluate further arguments of a call, the next being number `i`, and call. -/
  | arguments (name : String) (c : Callee) (i : Nat) (done : List Value) (rest : List Node)
  /-- Hand a value to what waits. -/
  | give (v : Value)
  /-- Pass what waits on the way out. -/
  | stop (s : Stop)

/-- What waits for an outcome. -/
inductive Waiting where
  /-- A run, for its exit value. -/
  | exit
  | globals (ns : List Node)
  /-- A context, for the faults that pass it. -/
  | inContext (c : Context)
  /-- A call of a built-in function, for the faults that pass it. -/
  | calling (name : String)
  /-- A frame, to be left. -/
  | leave
  | binding (name : String)
  | row (ret : String) (isReturn : Bool) (ns : List Node)
  | argument (name : String) (c : Callee) (i : Nat) (done : List Value) (rest : List Node)
  | right (op : String) (r : Node)
  | binary (op : String) (a : Value)
  | unary (op : String)

/-- A run at one point. -/
structure Config where
  focus : Focus
  waiting : List Waiting
  machine : Machine

/-- An outcome that is handed to what waits. -/
def Config.settled (K : List Waiting) : EStateM.Result Stop Machine Value → Config
  | .ok v m => ⟨.give v, K, m⟩
  | .error s m => ⟨.stop s, K, m⟩

/-! ## steps -/

/-- What waits for the outcome of a call. -/
def Callee.waiting (name : String) : Callee → Waiting
  | .builtin _ => .calling name
  | .user _ => .inContext (.userCall name)

/-- Begin to evaluate a node. -/
def beginNode (p : Program) (K : List Waiting) (m : Machine) : Node → Config
  | .absent => ⟨.give .null, K, m⟩
  | .str s => ⟨.give (.str s), K, m⟩
  | .num v => ⟨.give v, K, m⟩
  | .var name => .settled (.inContext .expression :: K) (getVariable name m)
  | .call name args =>
    match callee? p m.env name with
    | none =>
      let cause := if name = "" then .emptyCallName else .unknownFunction name
      .settled (.inContext .expression :: K) (fail cause m)
    | some c =>
      ⟨.arguments name c 1 [] args, c.waiting name :: .inContext .expression :: K, m⟩
  | .bin op l r =>
    ⟨.task (.node l), .right op r :: .inContext .binary :: .inContext .expression :: K, m⟩
  | .un op x =>
    ⟨.task (.node x), .unary op :: .inContext .unary :: .inContext .expression :: K, m⟩
  | n => .settled (.inContext .expression :: K) (fail (.cannotEvaluate n.label) m)

/-- Begin to execute a statement. -/
def beginStatement (K : List Waiting) (m : Machine) : Node → Config
  | .call name args => ⟨.task (.node (.call name args)), .inContext .statement :: K, m⟩
  | .ret v => ⟨.task (.node v), .inContext .statement :: K, m⟩
  | .letIn name e => ⟨.task (.node e), .binding name :: .inContext .statement :: K, m⟩
  | n => .settled (.inContext .statement :: K) (fail (.unknownStatement n.label) m)

/-- Begin to execute a function: this is where frames are pushed. -/
def beginFunction (K : List Waiting) (m : Machine) (f : FunctionDef) (args : List Value) : Config :=
  if m.maxDepth ≤ m.stack.length then .settled K (fail (.depthExceeded m.maxDepth) m)
  else if args.length ≠ f.params.length then
    .settled K (fail (.argumentCount f.name f.params.length args.length) m)
  else ⟨.row f.ret f.body, .inContext (.inFunction f.name) :: .leave :: K, m.push (frameOf f args)⟩

/-- Begin to run a program. -/
def beginProgram (p : Program) (K : List Waiting) (m : Machine) : Config :=
  if p.functions.isEmpty then .settled K (fail .noFunctions m)
  else
    match p.imports with
    | none => .settled K (fail .importsMissing m)
    | some names => ⟨.loading names, K, m⟩

/-- Begin a task. -/
def begin (p : Program) (K : List Waiting) (m : Machine) : Task → Config
  | .program => beginProgram p K m
  | .statement n => beginStatement K m n
  | .function f args => beginFunction K m f args
  | .node n => beginNode p K m n

/-- A module has been brought in, or not. -/
def Config.loaded (K : List Waiting) (names : List String) :
    EStateM.Result Stop Machine Unit → Config
  | .ok _ m => ⟨.loading names, K, m⟩
  | .error s m => ⟨.stop s, K, m⟩

/-- The exit value for a value of `main`. -/
def exitOf : Value → Value
  | .null => .int 0
  | v => v

/-- What waits gets a value. -/
def receive (K : List Waiting) (m : Machine) (v : Value) : Waiting → Config
  | .exit => ⟨.give (exitOf v), K, m⟩
  | .globals ns => ⟨.globals ns, K, m⟩
  | .inContext _ => ⟨.give v, K, m⟩
  | .calling _ => ⟨.give v, K, m⟩
  | .leave => ⟨.give v, K, m.pop⟩
  | .binding name => ⟨.give v, K, m.bind name v⟩
  | .row ret isReturn ns => if isReturn then ⟨.give v, K, m⟩ else ⟨.row ret ns, K, m⟩
  | .argument name c i done rest => ⟨.arguments name c (i + 1) (done ++ [v]) rest, K, m⟩
  | .right op r => ⟨.task (.node r), .binary op v :: K, m⟩
  | .binary op a => .settled K (applyBinary op a v m)
  | .unary op => .settled K (applyUnary op v m)

/-- Tell of a stop, and give the exit value for it. -/
def reportStop : Stop → Run Value
  | .interrupted _ => do
    putLine "\nProgram interrupted by user"
    return .int interruptedExit
  | .fault f => do
    let lead := if f.cause = .importsMissing then "Unexpected error: " else "Runtime error: "
    putLine (lead ++ f.message)
    return .int 1

/-- Tell of a fault in a global statement, and stop. -/
def noteStop : Stop → Run Value
  | .fault f => do
    putLine s!"Error executing global statement: {f.message}"
    throw (.fault f)
  | s => throw s

/-- What waits is passed by a stop; the run itself lets none pass. -/
def pass (K : List Waiting) (m : Machine) (s : Stop) : Waiting → Config
  | .exit => .settled K (reportStop s m)
  | .globals _ => .settled K (noteStop s m)
  | .inContext c => ⟨.stop (s.within [c]), K, m⟩
  | .calling name => ⟨.stop (s.fromBuiltin name), K, m⟩
  | .leave => ⟨.stop s, K, m.pop⟩
  | _ => ⟨.stop s, K, m⟩

/-- One step of a run; none where nothing waits any more. -/
def step? (p : Program) : Config → Option Config
  | ⟨.task t, K, m⟩ => some (begin p K m t)
  | ⟨.loading [], K, m⟩ => some ⟨.globals p.statements, K, m⟩
  | ⟨.loading (name :: names), K, m⟩ => some (.loaded K names (importModule name m))
  | ⟨.globals [], K, m⟩ =>
    match p.find? "main" with
    | none => some (.settled K (fail .noMain m))
    | some f => some ⟨.task (.function f []), K, m⟩
  | ⟨.globals (n :: ns), K, m⟩ => some ⟨.task (.statement n), .globals ns :: K, m⟩
  | ⟨.row ret [], K, m⟩ => some ⟨.give (if ret = "int" then .int 0 else .null), K, m⟩
  | ⟨.row ret (n :: ns), K, m⟩ => some ⟨.task (.statement n), .row ret n.isReturn ns :: K, m⟩
  | ⟨.arguments name c i done (n :: ns), K, m⟩ =>
    some ⟨.task (.node n), .inContext (.argument i name) :: .argument name c i done ns :: K, m⟩
  | ⟨.arguments _ (.builtin f) _ done [], K, m⟩ => some (.settled K (invoke f done m))
  | ⟨.arguments _ (.user f) _ done [], K, m⟩ => some ⟨.task (.function f done), K, m⟩
  | ⟨.give v, k :: K, m⟩ => some (receive K m v k)
  | ⟨.stop s, k :: K, m⟩ => some (pass K m s k)
  | ⟨.give _, [], _⟩ => none
  | ⟨.stop _, [], _⟩ => none

/-- A run after a number of steps, if it has so many. -/
def steps? (p : Program) : Nat → Config → Option Config
  | 0, c => some c
  | k + 1, c => (step? p c).bind (steps? p k)

/-! ## frames -/

/-- The limit on the frames is the one given, and there are no more of them than it allows, or
than there were at the start. -/
structure Bounded (limit : Int) (start : Nat) (m : Machine) : Prop where
  maxDepth : m.maxDepth = limit
  frames : (m.stack.length : Int) ≤ max limit start

section Bounded

variable {p : Program} {limit : Int} {start : Nat} {K : List Waiting} {m m' : Machine}

theorem Bounded.onlyWorld (h : Bounded limit start m) (hm : OnlyWorld m m') :
    Bounded limit start m' := by
  obtain ⟨w, rfl⟩ := hm
  exact ⟨h.maxDepth, h.frames⟩

theorem Bounded.pop (h : Bounded limit start m) : Bounded limit start m.pop where
  maxDepth := h.maxDepth
  frames := by
    have hframes := h.frames
    simp only [Machine.pop, List.length_tail]
    omega

theorem Bounded.push (h : Bounded limit start m) (hm : ¬ m.maxDepth ≤ m.stack.length) (f : Frame) :
    Bounded limit start (m.push f) where
  maxDepth := h.maxDepth
  frames := by
    rw [h.maxDepth] at hm
    simp only [Machine.push, List.length_cons]
    omega

theorem Bounded.bind (h : Bounded limit start m) (name : String) (v : Value) :
    Bounded limit start (m.bind name v) := by
  have hsame := sameSetting_bind m name v
  constructor
  · rw [hsame.maxDepth, h.maxDepth]
  · rw [hsame.depth]
    exact h.frames

theorem Bounded.settled {x : Run Value} (h : Bounded limit start m) (hx : Moves OnlyWorld x) :
    Bounded limit start (Config.settled K (x m)).machine := by
  have hm := h.onlyWorld (hx m)
  cases hx : x m with
  | ok v m₁ =>
    rw [hx] at hm
    exact hm
  | error s m₁ =>
    rw [hx] at hm
    exact hm

theorem Bounded.beginNode (h : Bounded limit start m) (n : Node) :
    Bounded limit start (beginNode p K m n).machine := by
  cases n with
  | var name => exact h.settled (getVariable_moves name)
  | call name args =>
    cases hcallee : callee? p m.env name with
    | none =>
      simp only [Run.beginNode, hcallee]
      exact h
    | some c =>
      simp only [Run.beginNode, hcallee]
      exact h
  | _ => exact h

theorem Bounded.beginStatement (h : Bounded limit start m) (n : Node) :
    Bounded limit start (beginStatement K m n).machine := by
  cases n <;> exact h

theorem Bounded.beginFunction (h : Bounded limit start m) (f : FunctionDef) (args : List Value) :
    Bounded limit start (beginFunction K m f args).machine := by
  unfold Run.beginFunction
  split
  · exact h.settled (.fail _)
  · next hdepth =>
    split
    · exact h.settled (.fail _)
    · exact h.push hdepth _

theorem Bounded.beginProgram (h : Bounded limit start m) :
    Bounded limit start (beginProgram p K m).machine := by
  unfold Run.beginProgram
  split
  · exact h.settled (.fail _)
  · split
    · exact h.settled (.fail _)
    · exact h

theorem Bounded.begin (h : Bounded limit start m) (t : Task) :
    Bounded limit start (begin p K m t).machine := by
  cases t with
  | program => exact h.beginProgram
  | statement n => exact h.beginStatement n
  | function f args => exact h.beginFunction f args
  | node n => exact h.beginNode n

theorem Bounded.loaded (h : Bounded limit start m) (name : String) (names : List String) :
    Bounded limit start (Config.loaded K names (importModule name m)).machine := by
  obtain ⟨m', hloaded, e, w, rfl⟩ := exists_importModule name m
  rw [hloaded]
  exact ⟨h.maxDepth, h.frames⟩

theorem Bounded.receive (h : Bounded limit start m) (v : Value) (k : Waiting) :
    Bounded limit start (receive K m v k).machine := by
  cases k with
  | leave => exact h.pop
  | binding name => exact h.bind name v
  | row ret isReturn ns => cases isReturn <;> exact h
  | binary op a => exact h.settled (.settled (applyBinary_settled op a v))
  | unary op => exact h.settled (.settled (applyUnary_settled op v))
  | _ => exact h

theorem reportStop_moves (s : Stop) : Moves OnlyWorld (reportStop s) := by
  cases s with
  | interrupted s => exact .bind (.putLine _) fun _ => .pure _
  | fault f => exact .bind (.putLine _) fun _ => .pure _

theorem noteStop_moves (s : Stop) : Moves OnlyWorld (noteStop s) := by
  cases s with
  | fault f => exact .bind (.putLine _) fun _ => .throw _
  | interrupted s => exact .throw _

theorem Bounded.pass (h : Bounded limit start m) (s : Stop) (k : Waiting) :
    Bounded limit start (pass K m s k).machine := by
  cases k with
  | exit => exact h.settled (reportStop_moves s)
  | globals ns => exact h.settled (noteStop_moves s)
  | leave => exact h.pop
  | _ => exact h

/-- No step pushes a frame beyond the limit. -/
theorem step_bounded {c c' : Config} (hstep : step? p c = some c')
    (h : Bounded limit start c.machine) : Bounded limit start c'.machine := by
  obtain ⟨focus, K, m⟩ := c
  cases focus with
  | task t =>
    cases hstep
    exact h.begin t
  | loading names =>
    cases names with
    | nil =>
      cases hstep
      exact h
    | cons name names =>
      cases hstep
      exact h.loaded name names
  | globals ns =>
    cases ns with
    | nil =>
      cases hmain : p.find? "main" with
      | none =>
        simp only [step?, hmain] at hstep
        cases hstep
        exact h
      | some f =>
        simp only [step?, hmain] at hstep
        cases hstep
        exact h
    | cons n ns =>
      cases hstep
      exact h
  | row ret ns => cases ns <;> cases hstep <;> exact h
  | arguments name c i done rest =>
    cases rest with
    | nil =>
      cases c with
      | builtin f =>
        cases hstep
        exact h.settled (invoke_moves f done)
      | user f =>
        cases hstep
        exact h
    | cons n ns =>
      cases hstep
      exact h
  | give v =>
    cases K with
    | nil => cases hstep
    | cons k K =>
      cases hstep
      exact h.receive v k
  | stop s =>
    cases K with
    | nil => cases hstep
    | cons k K =>
      cases hstep
      exact h.pass s k

/-- So neither does a run. -/
theorem steps_bounded {k : Nat} {c c' : Config} (hsteps : steps? p k c = some c')
    (h : Bounded limit start c.machine) : Bounded limit start c'.machine := by
  induction k generalizing c with
  | zero =>
    cases hsteps
    exact h
  | succ k ih =>
    obtain ⟨c₁, hstep, hrest⟩ := Option.bind_eq_some_iff.mp hsteps
    exact ih hrest (step_bounded hstep h)

end Bounded

end LetCall.Run
