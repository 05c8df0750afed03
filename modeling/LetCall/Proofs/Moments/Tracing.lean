import LetCall.Proofs.Calls.Depth
import LetCall.Proofs.Library.Printing

/-!
# LetCall.Proofs.Moments.Tracing

Messages are call traces.  A failure starts at a moment that breaks, and leads back through
the moments that have entered one another (`LeadsIn`).  On its way a fault passes the contexts
of all of them, and one context tells of a function just where a frame was pushed
(`EntersIn.exists_pushed`); so the functions that a message names are those whose frames were
there when the failure happened, the outermost first.  An interruption passes no context.

Main statement: `message_traces_calls`.
-/

namespace LetCall

/-- The function whose body a context stands for. -/
def Context.function? : Context → Option String
  | .inFunction name => some name
  | _ => none

/-- The functions whose bodies some contexts stand for, in their order. -/
def Context.functions (cs : List Context) : List String := cs.filterMap function?

/-- The functions of frames, the outermost first. -/
def Frame.functions (frames : List Frame) : List String := (frames.map function).reverse

/-- Contexts in words, one after the other. -/
def Context.texts (cs : List Context) : String := String.join (cs.map Fault.contextText)

/-- Whether a cause is a failure of evaluation itself: a variable, a function or an operator
that is not known, a call that does not fit, operands that an operator does not take, a node
that cannot be used, or trouble in arithmetic or in a function of the environment. -/
def Fault.Cause.isPrimitive : Fault.Cause → Bool
  | .undefinedVariable _ | .unknownFunction _ | .emptyCallName | .depthExceeded _
  | .argumentCount .. | .divisionByZero | .moduloByZero | .binaryOperands .. | .unaryOperand ..
  | .unknownBinary _ | .unknownUnary _ | .cannotEvaluate _ | .unknownStatement _ | .trouble _ =>
    true
  | _ => false

theorem Fault.Cause.isPrimitive_of_ofOperator {cause : Fault.Cause}
    (h : cause.ofOperator = true) : cause.isPrimitive = true := by
  cases cause <;> simp_all [ofOperator, isPrimitive]

/-- A message is the contexts in words, and then the cause. -/
theorem Fault.message_eq (f : Fault) :
    f.message = Context.texts f.contexts ++ f.cause.message := by
  obtain ⟨contexts, cause⟩ := f
  induction contexts with
  | nil => exact String.empty_append.symm
  | cons c cs ih =>
    rw [Context.texts, List.map_cons, String.join_cons, String.append_assoc]
    exact congrArg _ ih

theorem Context.functions_append (cs cs' : List Context) :
    functions (cs ++ cs') = functions cs ++ functions cs' := List.filterMap_append

theorem Frame.functions_append (inner outer : List Frame) :
    functions (inner ++ outer) = functions outer ++ functions inner := by
  simp only [functions, List.map_append, List.reverse_append]

theorem Stop.within_append (cs cs' : List Context) (s : Stop) :
    s.within (cs ++ cs') = (s.within cs').within cs := by
  cases s with
  | fault f => simp only [within, List.append_assoc]
  | interrupted t => rfl

namespace Run

variable {p : Program} {cs : List Context} {M N : Moment} {s : Stop} {m m' : Machine}

/-! ## from a failure back to where it starts -/

/-- Moments that enter one another lead from the first to the last of them.  The contexts are
those that a fault in the last passes on its way out of the first. -/
inductive LeadsIn (p : Program) : List Context → Moment → Moment → Prop
  | refl (M : Moment) : LeadsIn p [] M M
  | head {cs cs' : List Context} {M K N : Moment} (h : EntersIn p cs M K)
      (hrest : LeadsIn p cs' K N) : LeadsIn p (cs ++ cs') M N

/-- Every failure leads back to a moment that breaks. -/
theorem Moment.exists_leadsIn (h : M.outcome p = .error s m') :
    ∃ cs N s₀, LeadsIn p cs M N ∧ Breaks p N s₀ ∧ s = s₀.within cs := by
  induction M using (wellFounded_enters p).induction generalizing s m' with
  | _ M ih =>
    rcases Moment.accounted h with hbreaks | ⟨cs, N, s', m'', henters, hN, rfl⟩
    · exact ⟨[], M, s, .refl M, hbreaks, (Stop.within_nil s).symm⟩
    · obtain ⟨cs', K, s₀, hleads, hbreaks, rfl⟩ := ih N ⟨cs, henters⟩ hN
      exact ⟨cs ++ cs', K, s₀, .head henters hleads, hbreaks, (Stop.within_append ..).symm⟩

/-! ## frames and contexts -/

theorem executeAll_onlyLocals {ns : List Node} (h : executeAll p ns m = .ok () m') :
    OnlyLocals m m' := by
  induction ns generalizing m with
  | nil =>
    cases h
    exact refl_of OnlyLocals _
  | cons n ns ih =>
    obtain ⟨v, m₁, hn, hns⟩ := bind_eq_ok_iff.mp h
    have hm₁ := statementWith_moves (p := p) (callFunction_moves p) n m
    rw [← statement_eq, hn] at hm₁
    exact trans_of OnlyLocals hm₁ (ih hns)

theorem evaluate_stack {n : Node} {v : Value} (h : evaluate p n m = .ok v m') :
    m'.stack = m.stack := by
  have hm := evaluate_moves p n m
  rw [h] at hm
  obtain ⟨w, rfl⟩ := hm
  rfl

theorem arguments_stack {name : String} {i : Nat} {ns : List Node} {vs : List Value}
    (h : arguments p name i ns m = .ok vs m') : m'.stack = m.stack := by
  have hm := argumentsWith_moves (p := p) (callFunction_moves p) name i ns m
  rw [show argumentsWith p (callFunction p) name i ns m = .ok vs m' from h] at hm
  obtain ⟨w, rfl⟩ := hm
  rfl

/-- **A frame for each context of a function**: outside of its start, a moment that enters
another has pushed the frames of just those functions that the contexts in between tell of. -/
theorem EntersIn.exists_pushed (h : EntersIn p cs M N) (hM : M.task ≠ .program) :
    ∃ pushed, N.machine.stack = pushed ++ M.machine.stack ∧
      Context.functions cs = Frame.functions pushed := by
  cases h with
  | global => exact (hM rfl).elim
  | main => exact (hM rfl).elim
  | @body f args _ _ _ m _ _ _ _ _ hbefore =>
    obtain ⟨bs, w, rfl⟩ := executeAll_onlyLocals hbefore (frameOf f args) m.stack rfl
    exact ⟨[{ frameOf f args with locals := bs }], rfl, rfl⟩
  | @argument _ _ _ _ c _ _ _ _ hbefore =>
    exact ⟨[], arguments_stack hbefore, by cases c <;> rfl⟩
  | function _ hargs => exact ⟨[], arguments_stack hargs, rfl⟩
  | right hleft => exact ⟨[], evaluate_stack hleft, rfl⟩
  | _ => exact ⟨[], rfl, rfl⟩

theorem LeadsIn.exists_pushed (h : LeadsIn p cs M N) (hM : M.task ≠ .program) :
    N.task ≠ .program ∧ N.machine.env = M.machine.env ∧
    ∃ pushed, N.machine.stack = pushed ++ M.machine.stack ∧
      Context.functions cs = Frame.functions pushed := by
  induction h with
  | refl M => exact ⟨hM, rfl, [], rfl, rfl⟩
  | head henters _ ih =>
    obtain ⟨outer, hstack, hfunctions⟩ := henters.exists_pushed hM
    obtain ⟨htask, henv, inner, hstack', hfunctions'⟩ := ih henters.ne_program
    refine ⟨htask, henv.trans (henters.setting.2.2 hM), inner ++ outer, ?_, ?_⟩
    · rw [hstack', hstack, List.append_assoc]
    · rw [Context.functions_append, Frame.functions_append, hfunctions, hfunctions']

/-! ## what breaks -/

/-- Where a moment breaks no function is left, and the cause is one of evaluation itself. -/
theorem Breaks.primitive {f : Fault} (h : Breaks p N (.fault f)) (hN : N.task ≠ .program) :
    Context.functions f.contexts = [] ∧ f.cause.isPrimitive = true := by
  generalize hs : Stop.fault f = s₀ at h
  cases h with
  | noFunctions => exact (hN rfl).elim
  | noImports => exact (hN rfl).elim
  | noMain => exact (hN rfl).elim
  | @callee name =>
    cases hs
    refine ⟨rfl, ?_⟩
    by_cases hname : name = "" <;> simp only [hname, if_true, if_false] <;> rfl
  | @builtin name _ _ _ _ _ _ _ _ _ hcall =>
    rcases invoke_error hcall with ⟨t, rfl⟩ | ⟨t, rfl, _⟩
    · cases hs
      refine ⟨?_, rfl⟩
      simp only [Fault.inContext, callContext]
      split
      · split <;> rfl
      · rfl
    · cases hs
  | binary _ _ happly =>
    obtain ⟨cause, rfl, hcause⟩ := StopsAsOperator.applyBinary _ _ _ _ _ _ happly
    cases hs
    exact ⟨rfl, Fault.Cause.isPrimitive_of_ofOperator hcause⟩
  | unary _ happly =>
    obtain ⟨cause, rfl, hcause⟩ := StopsAsOperator.applyUnary _ _ _ _ _ happly
    cases hs
    exact ⟨rfl, Fault.Cause.isPrimitive_of_ofOperator hcause⟩
  | _ =>
    cases hs
    exact ⟨rfl, rfl⟩

/-! ## a failure in `main` -/

/-- A failure in `main` is that of the run. -/
theorem result_of_main_error {main : FunctionDef} {m₂ : Machine}
    (hmain : Enters p ⟨.program, m⟩ ⟨.function main [], m₂⟩)
    (herror : callFunction p main [] m₂ = .error s m') : result p m = .error s m' := by
  obtain ⟨cs, henters⟩ := hmain
  cases henters with
  | main hfunctions himports hloaded hstatements hfind =>
    rw [result_eq hfunctions himports hloaded, bind_of_ok (globals_eq_ok_iff.mpr hstatements),
      callMain, hfind]
    exact herror

theorem program_of_fault {f : Fault} (h : result p m = .error (.fault f) m')
    (hcause : f.cause ≠ .importsMissing) :
    program p m =
      .ok (.int 1) { m' with world := m'.world.writeLine ("Runtime error: " ++ f.message) } := by
  have hexit : exitValue p m = .error (.fault f) m' := bind_of_error h
  refine (tryCatch_of_error hexit).trans ?_
  simp only [hcause, if_false]
  rfl

theorem program_of_interrupted {t : String} (h : result p m = .error (.interrupted t) m') :
    program p m = .ok (.int interruptedExit)
      { m' with world := m'.world.writeLine "\nProgram interrupted by user" } := by
  have hexit : exitValue p m = .error (.interrupted t) m' := bind_of_error h
  exact tryCatch_of_error hexit

/-! ## messages -/

/-- What a failure tells of where it comes from: the moment at which it starts, the frames
pushed by then, and a message that is made of contexts, with just the functions of these
frames, and of the cause alone. -/
theorem Moment.exists_trace (hM : M.task ≠ .program) (h : M.outcome p = .error s m') :
    ∃ cs N s₀ pushed, LeadsIn p cs M N ∧ Breaks p N s₀ ∧ s = s₀.within cs ∧
      N.machine.stack = pushed ++ M.machine.stack ∧
      (∀ f, s = .fault f → s₀.root = .inl f.cause ∧ f.cause.isPrimitive = true ∧
        Context.functions f.contexts = Frame.functions pushed) ∧
      ∀ t, s = .interrupted t → s₀ = .interrupted t ∧
        ∃ name, M.machine.env.get? name = some (.fn (.raising (.interrupt t))) := by
  obtain ⟨cs, N, s₀, hleads, hbreaks, rfl⟩ := Moment.exists_leadsIn h
  obtain ⟨htask, henv, pushed, hstack, hfunctions⟩ := hleads.exists_pushed hM
  refine ⟨cs, N, s₀, pushed, hleads, hbreaks, rfl, hstack, ?_, ?_⟩
  · intro f hf
    cases s₀ with
    | fault f₀ =>
      cases hf
      obtain ⟨hnone, hcause⟩ := hbreaks.primitive htask
      refine ⟨rfl, hcause, ?_⟩
      rw [Context.functions_append, hnone, List.append_nil, hfunctions]
    | interrupted t => cases hf
  · intro t ht
    cases s₀ with
    | fault f₀ => cases ht
    | interrupted t' =>
      cases ht
      rw [← henv]
      exact ⟨rfl, hbreaks.of_interrupted rfl⟩

/-- **Messages are call traces.**  Where a statement, a function or a node fails there is a
moment at which the failure started.  A fault has the cause of this moment, which is one of
evaluation itself, and its message is made of contexts and of that cause; the contexts tell of
just the functions whose frames had been pushed by then, the outermost first.  An interruption
comes from a function of the environment and passes no context.  A run that fails in its
`main` writes the message of a fault and gives one; if it is interrupted it says so.  On an
output that takes every text such a line is written as `println` writes it. -/
theorem message_traces_calls (p : Program) :
    (∀ M s m', M.task ≠ .program → M.outcome p = .error s m' →
      ∃ cs N s₀ pushed, LeadsIn p cs M N ∧ Breaks p N s₀ ∧ s = s₀.within cs ∧
        N.machine.stack = pushed ++ M.machine.stack ∧
        (∀ f, s = .fault f → s₀.root = .inl f.cause ∧ f.cause.isPrimitive = true ∧
          f.message = Context.texts f.contexts ++ f.cause.message ∧
          Context.functions f.contexts = Frame.functions pushed) ∧
        ∀ t, s = .interrupted t → s₀ = .interrupted t ∧
          ∃ name, M.machine.env.get? name = some (.fn (.raising (.interrupt t)))) ∧
    (∀ m main m₂ s m', Enters p ⟨.program, m⟩ ⟨.function main [], m₂⟩ →
      callFunction p main [] m₂ = .error s m' →
      (∀ f, s = .fault f → program p m =
        .ok (.int 1) { m' with world := m'.world.writeLine ("Runtime error: " ++ f.message) }) ∧
      ∀ t, s = .interrupted t → program p m = .ok (.int interruptedExit)
        { m' with world := m'.world.writeLine "\nProgram interrupted by user" }) ∧
    ∀ (w : World) line, w.device = .anyText →
      Library.print "\n" [.str line] w = .ok .null (w.writeLine line) := by
  refine ⟨?_, ?_, fun w line hw => Library.print_line hw line⟩
  · intro M s m' hM h
    obtain ⟨cs, N, s₀, pushed, hleads, hbreaks, hs, hstack, hfault, hinterrupted⟩ :=
      Moment.exists_trace hM h
    refine ⟨cs, N, s₀, pushed, hleads, hbreaks, hs, hstack, fun f hf => ?_, hinterrupted⟩
    obtain ⟨hroot, hcause, hfunctions⟩ := hfault f hf
    exact ⟨hroot, hcause, f.message_eq, hfunctions⟩
  · intro m main m₂ s m' hmain herror
    have hresult := result_of_main_error hmain herror
    constructor
    · rintro f rfl
      obtain ⟨_, _, _, _, _, _, _, _, hfault, _⟩ :=
        Moment.exists_trace (M := ⟨.function main [], m₂⟩) (by simp) herror
      refine program_of_fault hresult fun hmissing => ?_
      have hcause := (hfault f rfl).2.1
      rw [hmissing] at hcause
      cases hcause
    · rintro t rfl
      exact program_of_interrupted hresult

/-- A `main` that fails two calls below. -/
def halving : FunctionDef := ⟨"main", [], "int", [.letIn "x" (.call "half" [.num (.int 4)])]⟩

/-- Its program: the last function divides by zero. -/
def dividing : Program where
  imports := some []
  functions :=
    [halving,
     ⟨"half", [⟨"num", "a"⟩], "num", [.ret (.bin "+" (.num (.int 1)) (.call "over" [.var "a"]))]⟩,
     ⟨"over", [⟨"num", "a"⟩], "num", [.ret (.bin "/" (.var "a") (.num (.int 0)))]⟩]

/-- The message leads from `main` to the division, and the frames were those of all three. -/
theorem dividing_traced :
    ∃ f m', callFunction dividing halving [] {} = .error (.fault f) m' ∧
      f.cause = .divisionByZero ∧ Context.functions f.contexts = ["main", "half", "over"] ∧
      f.message = Context.texts f.contexts ++ "Division by zero" ∧
      (∃ cs N s₀, LeadsIn dividing cs ⟨.function halving [], {}⟩ N ∧ Breaks dividing N s₀ ∧
        Frame.functions N.machine.stack = ["main", "half", "over"]) ∧
      program dividing {} =
        .ok (.int 1) { m' with world := m'.world.writeLine ("Runtime error: " ++ f.message) } := by
  obtain ⟨htrace, hrun, _⟩ := message_traces_calls dividing
  have hfails : ∃ f m', callFunction dividing halving [] {} = .error (.fault f) m' ∧
      f.cause = .divisionByZero ∧ Context.functions f.contexts = ["main", "half", "over"] :=
    ⟨_, _, rfl, rfl, rfl⟩
  obtain ⟨f, m', herror, hcause, hnames⟩ := hfails
  obtain ⟨cs, N, s₀, pushed, hleads, hbreaks, _, hstack, hfault, _⟩ :=
    htrace ⟨.function halving [], {}⟩ _ _ (by simp) herror
  obtain ⟨_, _, hmessage, hfunctions⟩ := hfault f rfl
  have hmain : Enters dividing ⟨.program, {}⟩ ⟨.function halving [], {}⟩ :=
    ⟨_, .main (by simp [dividing]) rfl rfl rfl rfl⟩
  refine ⟨f, m', herror, hcause, hnames, ?_, ⟨cs, N, s₀, hleads, hbreaks, ?_⟩, ?_⟩
  · rw [hmessage, hcause]
    rfl
  · rw [hstack, List.append_nil, ← hfunctions, hnames]
  · exact (hrun _ _ _ _ _ hmain herror).1 f rfl

/-- A function that is interrupted. -/
def waiting : FunctionDef := ⟨"f", [], "int", [.call "k" []]⟩

theorem contextText_length_pos (c : Context) : 0 < (Fault.contextText c).length := by
  have hends : ∀ t u : String, 0 < u.length → 0 < (t ++ u).length := by
    intro t u hu
    rw [String.length_append]
    omega
  cases c with
  | statement => decide
  | expression => decide
  | binary => decide
  | unary => decide
  | _ => exact hends _ _ (by decide)

/-- An interruption leaves no trace: the frame of `f` is there when it comes, and its message
is not one that any context, let alone that of `f`, leads to. -/
theorem interruption_untraced :
    callFunction { functions := [waiting] } waiting []
        { env := [("k", .fn (.raising (.interrupt "stop")))] } =
      .error (.interrupted "stop") { env := [("k", .fn (.raising (.interrupt "stop")))] } ∧
    (∃ cs N, LeadsIn { functions := [waiting] } cs
      ⟨.function waiting [], { env := [("k", .fn (.raising (.interrupt "stop")))] }⟩ N ∧
      Breaks { functions := [waiting] } N (.interrupted "stop") ∧
      Frame.functions N.machine.stack = ["f"]) ∧
    ∀ cs, Context.functions cs = ["f"] → "stop" ≠ Context.texts cs ++ "stop" := by
  refine ⟨rfl, ?_, ?_⟩
  · have hbody : waiting.body = [] ++ .call "k" [] :: [] := rfl
    refine ⟨_, _, .head (.body (by decide) rfl hbody (by simp) rfl)
      (.head (.call "k" [] _) (.refl _)), ?_, rfl⟩
    exact .builtin (s := .interrupted "stop") (f := .raising (.interrupt "stop")) rfl rfl rfl
  · intro cs hcs heq
    cases cs with
    | nil => cases hcs
    | cons c cs =>
      have hlength := congrArg String.length heq
      have hpos := contextText_length_pos c
      rw [Context.texts, List.map_cons, String.join_cons, String.length_append,
        String.length_append] at hlength
      omega

end Run

end LetCall
