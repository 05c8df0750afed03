import LetCall.Proofs.Calls
import LetCall.Proofs.Moments.Failing

/-!
# LetCall.Proofs.Calls.Depth

How deep calls go.  What a task calls is called whenever it gives a value, whatever the values
on the way are; and a chain of moments that leads from one function to another follows a chain
of calls, with one frame for each of them.  So the height of a function decides whether its
calls fit below the limit.

Main statements: `chain_fits_of_ok`, `exists_chain_of_exceeded`, and `call_depth_law`, which
puts them together.
-/

namespace LetCall.Run

open Relation

/-! ## chains of calls behind chains of moments -/

/-- The names of the calls that a task makes; a program makes none of its own. -/
def Task.calls : Task → List String
  | .program => []
  | .statement n => n.calls
  | .function f _ => f.calls
  | .node n => n.calls

/-- A task calls a function. -/
def Task.Calls (p : Program) (env : Bindings) (t : Task) (g : FunctionDef) : Prop :=
  ∃ name ∈ t.calls, callee? p env name = some (.user g)

/-- The functions with which the chains of calls of a task begin: a function begins its own,
and any other task those of the functions it calls. -/
def Task.Begins (p : Program) (env : Bindings) : Task → FunctionDef → Prop
  | .function f _, g => g = f
  | t, g => t.Calls p env g

section Chains

variable {p : Program} {cs : List Context} {M N : Moment} {g : FunctionDef} {vs : List Value}
  {m : Machine}

theorem EntersIn.ne_program (h : EntersIn p cs M N) : N.task ≠ .program := by
  cases h <;> simp

/-- What is entered begins with functions that were called for. -/
theorem EntersIn.calls (h : EntersIn p cs M N) (hM : M.task ≠ .program)
    (hg : N.task.Begins p M.machine.env g) : M.task.Calls p M.machine.env g := by
  cases h with
  | global => exact (hM rfl).elim
  | main => exact (hM rfl).elim
  | call => exact hg
  | ret => exact hg
  | letIn => exact hg
  | body _ _ hn hreturn =>
    obtain ⟨name, hname, hcallee⟩ := hg
    have hlive := Node.mem_live_iff.mpr ⟨_, _, hn, hreturn⟩
    exact ⟨name, Node.mem_callsAll.mpr ⟨_, hlive, hname⟩, hcallee⟩
  | argument =>
    obtain ⟨name, hname, hcallee⟩ := hg
    refine ⟨name, List.mem_cons_of_mem _ (Node.mem_callsAll.mpr ⟨_, ?_, hname⟩), hcallee⟩
    simp
  | function hcallee =>
    cases hg
    exact ⟨_, List.mem_cons_self, hcallee⟩
  | left =>
    obtain ⟨name, hname, hcallee⟩ := hg
    exact ⟨name, List.mem_append_left _ hname, hcallee⟩
  | right =>
    obtain ⟨name, hname, hcallee⟩ := hg
    exact ⟨name, List.mem_append_right _ hname, hcallee⟩
  | operand => exact hg

/-- The limit stays what it was, and outside of its start so does the environment. -/
theorem setting_of_reaches (h : ReflTransGen (Enters p) M N) (hM : M.task ≠ .program) :
    N.machine.maxDepth = M.machine.maxDepth ∧ N.machine.env = M.machine.env := by
  induction h using ReflTransGen.head_induction_on with
  | refl => exact ⟨rfl, rfl⟩
  | @head M K henters _ ih =>
    obtain ⟨cs, henters⟩ := henters
    obtain ⟨hlimit, _, henv⟩ := henters.setting
    obtain ⟨hlimit', henv'⟩ := ih henters.ne_program
    exact ⟨hlimit'.trans hlimit, henv'.trans (henv hM)⟩

/-- Moments that lead to a function follow a chain of calls, with a frame for each of them. -/
theorem exists_chain_of_reaches (h : ReflTransGen (Enters p) M ⟨.function g vs, m⟩)
    (hM : M.task ≠ .program) :
    ∃ f l, M.task.Begins p M.machine.env f ∧ (f :: l).IsChain (Calls p M.machine.env) ∧
      ReflTransGen (Calls p M.machine.env) f g ∧
      m.stack.length = M.machine.stack.length + l.length := by
  -- from the front: only a function left behind adds a frame, and it adds a link as well
  induction h using ReflTransGen.head_induction_on with
  | refl => exact ⟨g, [], rfl, .singleton g, .refl, rfl⟩
  | @head M K henters _ ih =>
    obtain ⟨cs, henters⟩ := henters
    obtain ⟨_, hstack, henv⟩ := henters.setting
    obtain ⟨f, l, hf, hchain, hreaches, hdepth⟩ := ih henters.ne_program
    rw [henv hM] at hf hchain hreaches
    have hcalls := henters.calls hM hf
    obtain ⟨task, machine⟩ := M
    cases task with
    | function k args =>
      refine ⟨k, f :: l, rfl, hchain.cons_cons hcalls, .head hcalls hreaches, ?_⟩
      simp only [Task.frames] at hstack
      rw [hdepth, hstack, List.length_cons, Nat.add_assoc, Nat.add_comm 1]
    | program => exact (hM rfl).elim
    | statement n => exact ⟨f, l, hcalls, hchain, hreaches, by rw [hdepth, hstack]; rfl⟩
    | node n => exact ⟨f, l, hcalls, hchain, hreaches, by rw [hdepth, hstack]; rfl⟩

/-- A function that is entered again on the way is part of a cycle of calls. -/
theorem cycle_of_reaches {us : List Value} {m' : Machine}
    (h : TransGen (Enters p) ⟨.function g vs, m⟩ ⟨.function g us, m'⟩) :
    TransGen (Calls p m.env) g g := by
  obtain ⟨N, ⟨cs, henters⟩, hreaches⟩ := TransGen.head'_iff.mp h
  obtain ⟨f, l, hf, _, hcalls, _⟩ := exists_chain_of_reaches hreaches henters.ne_program
  rw [(henters.setting).2.2 (by simp)] at hf hcalls
  exact TransGen.head' (henters.calls (by simp) hf) hcalls

end Chains

/-! ## calls of what gives a value -/

section Success

variable {p : Program} {cs : List Context} {M N : Moment} {g : FunctionDef} {name : String}
  {v : Value} {m m' : Machine}

/-- Where a moment gives a value, so does all that it enters. -/
theorem EntersIn.outcome_ok (h : EntersIn p cs M N) (hM : M.outcome p = .ok v m') :
    ∃ v' m'', N.outcome p = .ok v' m'' := by
  cases hN : N.outcome p with
  | ok v' m'' => exact ⟨v', m'', rfl⟩
  | error s m'' =>
    obtain ⟨m₁, herror⟩ := h.outcome_error hN
    cases herror.symm.trans hM

theorem callBuiltin_of_ok {f : Callable} {args : Run (List Value)}
    (h : callBuiltin name f args m = .ok v m') : ∃ vs m₁, args m = .ok vs m₁ := by
  cases hargs : args m with
  | ok vs m₁ => exact ⟨vs, m₁, rfl⟩
  | error s m₁ =>
    have herror : callBuiltin name f args m = .error (s.fromBuiltin name) m₁ :=
      callBuiltin_eq_error_iff.mpr ⟨s, bind_of_error hargs, rfl⟩
    cases herror.symm.trans h

/-- A call that gives a value is one of a function, with a value for each of its arguments. -/
theorem arguments_of_call_ok {args : List Node} (h : evaluate p (.call name args) m = .ok v m') :
    ∃ c vs m₁, callee? p m.env name = some c ∧ arguments p name 1 args m = .ok vs m₁ := by
  rw [evaluate_call_eq] at h
  have hcall := inContext_eq_ok_iff.mp h
  cases hcallee : callee? p m.env name with
  | none =>
    rw [callNamed_of_none _ _ hcallee] at hcall
    cases hcall
  | some c =>
    cases c with
    | builtin f =>
      rw [callNamed_of_builtin _ _ hcallee] at hcall
      obtain ⟨vs, m₁, hargs⟩ := callBuiltin_of_ok hcall
      exact ⟨_, vs, m₁, rfl, hargs⟩
    | user f =>
      rw [callNamed_of_user _ _ hcallee] at hcall
      obtain ⟨vs, m₁, hargs, _⟩ := bind_eq_ok_iff.mp (inContext_eq_ok_iff.mp hcall)
      exact ⟨_, vs, m₁, rfl, hargs⟩

/-- Either the moment is the call itself, or the call is still to be found in it. -/
def Moment.Nearer (N : Moment) (name : String) (g : FunctionDef) : Prop :=
  (∃ vs, N.task = .function g vs) ∨ (N.task.frames = 0 ∧ name ∈ N.task.calls)

theorem nearer_of_node {n : Node} (hok : evaluate p n m = .ok v m') (hname : name ∈ n.calls)
    (hcallee : callee? p m.env name = some (.user g)) :
    ∃ N, Enters p ⟨.node n, m⟩ N ∧ N.Nearer name g := by
  cases n with
  | call name' args =>
    obtain ⟨c, vs, m₁, hcallee', hargs⟩ := arguments_of_call_ok hok
    rw [Node.calls, List.mem_cons] at hname
    rcases hname with rfl | hname
    · exact ⟨_, ⟨_, .function hcallee hargs⟩, .inl ⟨vs, rfl⟩⟩
    · obtain ⟨n, hn, hin⟩ := Node.mem_callsAll.mp hname
      obtain ⟨before, after, rfl⟩ := List.append_of_mem hn
      obtain ⟨us, m₂, hbefore⟩ := exists_of_arguments_ok hargs
      exact ⟨_, ⟨_, .argument hcallee' hbefore⟩, .inr ⟨rfl, hin⟩⟩
  | bin op l r =>
    rw [evaluate_bin_eq] at hok
    obtain ⟨a, m₁, hl, _⟩ := bind_eq_ok_iff.mp (inContext_eq_ok_iff.mp (inContext_eq_ok_iff.mp hok))
    rw [Node.calls, List.mem_append] at hname
    rcases hname with hname | hname
    · exact ⟨_, ⟨_, .left op l r m⟩, .inr ⟨rfl, hname⟩⟩
    · exact ⟨_, ⟨_, .right hl⟩, .inr ⟨rfl, hname⟩⟩
  | un op x => exact ⟨_, ⟨_, .operand op x m⟩, .inr ⟨rfl, hname⟩⟩
  | letIn name' e => cases hok
  | ret e => cases hok
  | _ => cases hname

theorem nearer_of_statement {n : Node} (hok : statement p n m = .ok v m')
    (hname : name ∈ n.calls) : ∃ N, Enters p ⟨.statement n, m⟩ N ∧ N.Nearer name g := by
  cases n with
  | call name' args => exact ⟨_, ⟨_, .call name' args m⟩, .inr ⟨rfl, hname⟩⟩
  | ret e => exact ⟨_, ⟨_, .ret e m⟩, .inr ⟨rfl, hname⟩⟩
  | letIn name' e => exact ⟨_, ⟨_, .letIn name' e m⟩, .inr ⟨rfl, hname⟩⟩
  | _ =>
    rw [statement_eq] at hok
    cases hok

/-- A function that gives a value was entered. -/
theorem enterable_of_ok {f : FunctionDef} {args : List Value}
    (h : callFunction p f args m = .ok v m') :
    ¬ m.maxDepth ≤ m.stack.length ∧ args.length = f.params.length := by
  rw [callFunction_eq] at h
  by_cases hdepth : m.maxDepth ≤ m.stack.length
  · rw [if_pos hdepth] at h
    cases h
  by_cases hcount : args.length = f.params.length
  · exact ⟨hdepth, hcount⟩
  · rw [if_neg hdepth, if_pos hcount] at h
    cases h

theorem nearer_of_function {f : FunctionDef} {args : List Value}
    (hok : callFunction p f args m = .ok v m') (hname : name ∈ f.calls) :
    ∃ N, Enters p ⟨.function f args, m⟩ N ∧ N.Nearer name g := by
  obtain ⟨n, hlive, hin⟩ := Node.mem_callsAll.mp hname
  obtain ⟨before, after, hn, hreturn⟩ := Node.mem_live_iff.mp hlive
  obtain ⟨hdepth, hcount⟩ := enterable_of_ok hok
  rw [callFunction_of_enterable p hdepth hcount] at hok
  obtain ⟨m₁, hbody, _⟩ := inFrame_eq_ok_iff.mp hok
  have hrow := inContext_eq_ok_iff.mp hbody
  rw [hn, body_append p f.ret _ hreturn] at hrow
  obtain ⟨_, m₂, hbefore, _⟩ := bind_eq_ok_iff.mp hrow
  exact ⟨_, ⟨_, .body hdepth hcount hn hreturn hbefore⟩, .inr ⟨rfl, hin⟩⟩

/-- **Control does not depend on data**: what a task calls is called wherever it gives a value,
and gives one too. -/
theorem exists_call_of_ok (hM : M.task ≠ .program) (hok : M.outcome p = .ok v m')
    (hname : name ∈ M.task.calls) (hcallee : callee? p M.machine.env name = some (.user g)) :
    ∃ vs m₁ v₁ m₂, callFunction p g vs m₁ = .ok v₁ m₂ ∧ m₁.env = M.machine.env ∧
      m₁.maxDepth = M.machine.maxDepth ∧
      m₁.stack.length = M.machine.stack.length + M.task.frames := by
  -- each moment entered is the call or has it in a smaller part; no frame is pushed in between
  induction M using (wellFounded_enters p).induction generalizing v m' with
  | _ M ih =>
    have hstep : ∃ N, Enters p M N ∧ N.Nearer name g := by
      obtain ⟨task, m⟩ := M
      cases task with
      | program => exact (hM rfl).elim
      | statement n => exact nearer_of_statement hok hname
      | function f args => exact nearer_of_function hok hname
      | node n => exact nearer_of_node hok hname hcallee
    obtain ⟨N, ⟨cs, henters⟩, hnearer⟩ := hstep
    obtain ⟨hlimit, hstack, henv⟩ := henters.setting
    obtain ⟨v₁, m₁, hN⟩ := henters.outcome_ok hok
    rcases hnearer with ⟨vs, hfunction⟩ | ⟨hframes, hin⟩
    · obtain ⟨task, m₀⟩ := N
      cases hfunction
      exact ⟨vs, m₀, v₁, m₁, hN, henv hM, hlimit, hstack⟩
    · rw [← henv hM] at hcallee
      obtain ⟨vs, m₀, v₂, m₂, hcall, henv', hlimit', hstack'⟩ :=
        ih N ⟨cs, henters⟩ henters.ne_program hN hin hcallee
      refine ⟨vs, m₀, v₂, m₂, hcall, henv'.trans (henv hM), hlimit'.trans hlimit, ?_⟩
      rw [hstack', hframes, hstack, Nat.add_zero]

end Success

/-! ## depth and height -/

section Depth

variable {p : Program} {f : FunctionDef} {args : List Value} {m m' : Machine}

/-- The chains of calls of a function that gives a value fit below the limit. -/
theorem chain_fits_of_ok {v : Value} {l : List FunctionDef} (h : callFunction p f args m = .ok v m')
    (hchain : (f :: l).IsChain (Calls p m.env)) :
    (m.stack.length + l.length : Int) < m.maxDepth := by
  induction l generalizing f args m v m' with
  | nil =>
    have hdepth := (enterable_of_ok h).1
    simpa using hdepth
  | cons g l ih =>
    obtain ⟨⟨name, hname, hcallee⟩, hrest⟩ := List.isChain_cons_cons.mp hchain
    obtain ⟨vs, m₁, v₁, m₂, hcall, henv, hlimit, hstack⟩ :=
      exists_call_of_ok (M := ⟨.function f args, m⟩) (by simp) h hname hcallee
    rw [← henv] at hrest
    have hfits := ih hcall hrest
    simp only [Task.frames] at henv hlimit hstack
    rw [hstack, hlimit] at hfits
    push_cast at hfits
    rw [List.length_cons]
    push_cast
    omega

/-- A function that fails for want of frames has a chain of calls that does not fit. -/
theorem exists_chain_of_exceeded {s : Stop} {limit : Int}
    (h : callFunction p f args m = .error s m') (hroot : s.root = .inl (.depthExceeded limit)) :
    limit = m.maxDepth ∧
      ∃ l, (f :: l).IsChain (Calls p m.env) ∧ m.maxDepth ≤ (m.stack.length + l.length : Int) := by
  obtain ⟨⟨task, m₁⟩, s', hreaches, hbreaks, hroot'⟩ :=
    Moment.exists_breaks (M := ⟨.function f args, m⟩) h
  obtain ⟨g, vs, rfl, rfl, hdepth⟩ := hbreaks.of_depthExceeded (hroot'.trans hroot)
  obtain ⟨hlimit, _⟩ := setting_of_reaches hreaches (by simp)
  obtain ⟨f', l, rfl, hchain, _, hstack⟩ := exists_chain_of_reaches hreaches (by simp)
  refine ⟨hlimit, l, hchain, ?_⟩
  simp only at hlimit hstack hdepth
  rw [hlimit, hstack] at hdepth
  exact_mod_cast hdepth

/-- The frames that are there and the height of a function together are more than the limit; a
negative limit leaves no more room than zero. -/
def Exceeds (p : Program) (f : FunctionDef) (m : Machine) : Prop :=
  (m.maxDepth.toNat : ℕ∞) < m.stack.length + height p m.env f

theorem exceeds_iff :
    Exceeds p f m ↔
      ∃ l, (f :: l).IsChain (Calls p m.env) ∧ m.maxDepth ≤ (m.stack.length + l.length : Int) := by
  constructor
  · intro hexceeds
    by_contra hnone
    have hfits : ∀ l, (f :: l).IsChain (Calls p m.env) →
        (m.stack.length + l.length : Int) < m.maxDepth := by
      intro l hchain
      by_contra hlong
      exact hnone ⟨l, hchain, by omega⟩
    have hroom := hfits [] (.singleton f)
    have hheight : height p m.env f ≤ ((m.maxDepth.toNat - m.stack.length : ℕ) : ℕ∞) := by
      refine iSup₂_le fun l hchain => ?_
      have hfit := hfits l hchain
      exact_mod_cast (by omega : l.length + 1 ≤ m.maxDepth.toNat - m.stack.length)
    have hle : (m.stack.length : ℕ∞) + height p m.env f ≤ m.maxDepth.toNat := by
      calc (m.stack.length : ℕ∞) + height p m.env f
        _ ≤ m.stack.length + ((m.maxDepth.toNat - m.stack.length : ℕ) : ℕ∞) := by gcongr
        _ = m.maxDepth.toNat := by
          simp only [List.length_nil] at hroom
          exact_mod_cast (by omega :
            m.stack.length + (m.maxDepth.toNat - m.stack.length) = m.maxDepth.toNat)
    exact absurd hexceeds (not_lt.mpr hle)
  · rintro ⟨l, hchain, hlong⟩
    calc (m.maxDepth.toNat : ℕ∞)
      _ < ((m.stack.length + (l.length + 1) : ℕ) : ℕ∞) := by
        exact_mod_cast (by omega : m.maxDepth.toNat < m.stack.length + (l.length + 1))
      _ = (m.stack.length : ℕ∞) + ((l.length + 1 : ℕ) : ℕ∞) := Nat.cast_add _ _
      _ ≤ m.stack.length + height p m.env f := by gcongr; exact le_height hchain

theorem exceeds_of_cycle (h : TransGen (Calls p m.env) f f) : Exceeds p f m := by
  rw [Exceeds, height_eq_top_iff.mpr ⟨f, .refl, h⟩, add_top]
  exact ENat.natCast_lt_top _

/-- A function whose height exceeds the limit gives no value. -/
theorem error_of_exceeds (h : Exceeds p f m) (args : List Value) :
    ∃ s m', callFunction p f args m = .error s m' := by
  obtain ⟨l, hchain, hlong⟩ := exceeds_iff.mp h
  cases hcall : callFunction p f args m with
  | ok v m' =>
    have hfits := chain_fits_of_ok hcall hchain
    omega
  | error s m' => exact ⟨s, m', rfl⟩

/-- A function that is interrupted is interrupted by one of the environment. -/
theorem exists_interrupting {t : String}
    (h : callFunction p f args m = .error (.interrupted t) m') :
    ∃ name, m.env.get? name = some (.fn (.raising (.interrupt t))) := by
  obtain ⟨N, s', hreaches, hbreaks, hroot⟩ := Moment.exists_breaks (M := ⟨.function f args, m⟩) h
  obtain ⟨name, henv⟩ := hbreaks.of_interrupted hroot
  rw [(setting_of_reaches hreaches (by simp)).2] at henv
  exact ⟨name, henv⟩

/-- Where a moment gives a value, so does every one that it leads to. -/
theorem outcome_ok_of_reaches {M N : Moment} (h : ReflTransGen (Enters p) M N) {v : Value}
    (hM : M.outcome p = .ok v m') : ∃ v' m'', N.outcome p = .ok v' m'' := by
  induction h with
  | refl => exact ⟨v, m', hM⟩
  | tail _ henters ih =>
    obtain ⟨v', m'', hok⟩ := ih
    exact henters.choose_spec.outcome_ok hok

/-- A moment that leads to a function which is then entered again fails. -/
theorem error_of_recursion {M : Moment} {g : FunctionDef} {vs us : List Value} {m₁ m₂ : Machine}
    (hreaches : ReflTransGen (Enters p) M ⟨.function g vs, m₁⟩)
    (hagain : TransGen (Enters p) ⟨.function g vs, m₁⟩ ⟨.function g us, m₂⟩) :
    ∃ s m', M.outcome p = .error s m' := by
  obtain ⟨s, m', herror⟩ := error_of_exceeds (exceeds_of_cycle (cycle_of_reaches hagain)) vs
  cases hM : M.outcome p with
  | ok v m'' =>
    obtain ⟨v', m₃, hok⟩ := outcome_ok_of_reaches hreaches hM
    cases herror.symm.trans hok
  | error s m'' => exact ⟨s, m'', rfl⟩

end Depth

/-- **The depth of calls is the height of functions.**  The height of a function is one more
than that of the highest it calls, and infinite just if a cycle of calls can be reached.  A
function whose height is more than the limit leaves room for fails, with a fault unless a
function of the environment interrupts it; and only such a function fails because the limit
was exceeded.  In particular everything fails that leads to a function being entered again. -/
theorem call_depth_law (p : Program) :
    (∀ env f, height p env f =
      1 + ⨆ (g : FunctionDef) (_ : Calls p env f g), height p env g) ∧
    (∀ env f, height p env f = ⊤ ↔
      ∃ g, ReflTransGen (Calls p env) f g ∧ TransGen (Calls p env) g g) ∧
    (∀ f args m, Exceeds p f m → ∃ s m', callFunction p f args m = .error s m' ∧
      ∀ t, s = .interrupted t → ∃ name, m.env.get? name = some (.fn (.raising (.interrupt t)))) ∧
    (∀ f args m fault m' limit, callFunction p f args m = .error (.fault fault) m' →
      fault.cause = .depthExceeded limit → limit = m.maxDepth ∧ Exceeds p f m) ∧
    ∀ M g vs us m₁ m₂, ReflTransGen (Enters p) M ⟨.function g vs, m₁⟩ →
      TransGen (Enters p) ⟨.function g vs, m₁⟩ ⟨.function g us, m₂⟩ →
      ∃ s m', M.outcome p = .error s m' := by
  refine ⟨height_eq p, fun env f => height_eq_top_iff, ?_, ?_, ?_⟩
  · intro f args m hexceeds
    obtain ⟨s, m', herror⟩ := error_of_exceeds hexceeds args
    refine ⟨s, m', herror, fun t hs => ?_⟩
    rw [hs] at herror
    exact exists_interrupting herror
  · intro f args m fault m' limit herror hcause
    have hroot : (Stop.fault fault).root = .inl (.depthExceeded limit) := congrArg Sum.inl hcause
    obtain ⟨hlimit, hchain⟩ := exists_chain_of_exceeded herror hroot
    exact ⟨hlimit, exceeds_iff.mpr hchain⟩
  · intro M g vs us m₁ m₂ hreaches hagain
    exact error_of_recursion hreaches hagain

/-- A function that hands its argument to another one, and calls it by name. -/
def handing (name other : String) : FunctionDef :=
  ⟨name, [⟨"num", "a"⟩], "int", [.ret (.call other [.var "a"])]⟩

/-- Two functions that call each other. -/
def evenOdd : Program where
  functions := [handing "even" "odd", handing "odd" "even"]

theorem handing_reaches (p : Program) (m : Machine) (name : String) (v : Value) {other : String}
    {g : FunctionDef} (hdepth : ¬ m.maxDepth ≤ m.stack.length)
    (hcallee : callee? p m.env other = some (.user g)) :
    TransGen (Enters p) ⟨.function (handing name other) [v], m⟩
      ⟨.function g [v], m.push ⟨name, [("a", v)]⟩⟩ := by
  have hargs : arguments p other 1 [.var "a"] (m.push (frameOf (handing name other) [v])) =
      .ok [v] (m.push ⟨name, [("a", v)]⟩) := rfl
  have hbody : (handing name other).body = [] ++ .ret (.call other [.var "a"]) :: [] := rfl
  exact .head ⟨_, .body hdepth rfl hbody (by simp) rfl⟩
    (.head ⟨_, .ret _ _⟩ (.single ⟨_, .function hcallee hargs⟩))

/-- They go down to the limit, and the second time that the first is entered is enough to
know. -/
theorem evenOdd_too_deep :
    Exceeds evenOdd (handing "even" "odd") { maxDepth := 3 } ∧
    (∃ s m', callFunction evenOdd (handing "even" "odd") [.int 7] { maxDepth := 3 } =
      .error s m' ∧ ∀ t, s ≠ .interrupted t) ∧
    ∃ s m', Moment.outcome evenOdd ⟨.function (handing "even" "odd") [.int 7], { maxDepth := 3 }⟩ =
      .error s m' := by
  obtain ⟨_, _, hdeep, hcause, hagain⟩ := call_depth_law evenOdd
  have hfails : ∃ fault m', callFunction evenOdd (handing "even" "odd") [.int 7] { maxDepth := 3 } =
      .error (.fault fault) m' ∧ fault.cause = .depthExceeded 3 := ⟨_, _, rfl, rfl⟩
  obtain ⟨fault, m', hfault, hlimit⟩ := hfails
  have hexceeds := (hcause _ _ _ _ _ _ hfault hlimit).2
  obtain ⟨s, m'', herror, hinterrupted⟩ := hdeep _ [.int 7] _ hexceeds
  refine ⟨hexceeds, ⟨s, m'', herror, fun t hs => ?_⟩, ?_⟩
  · obtain ⟨name, hname⟩ := hinterrupted t hs
    cases hname
  · have hodd := handing_reaches evenOdd { maxDepth := 3 } "even" (.int 7) (by decide)
      (show callee? evenOdd [] "odd" = some (.user (handing "odd" "even")) from rfl)
    have heven := handing_reaches evenOdd
      (Machine.push { maxDepth := 3 } ⟨"even", [("a", .int 7)]⟩) "odd" (.int 7) (by decide)
      (show callee? evenOdd [] "even" = some (.user (handing "even" "odd")) from rfl)
    exact hagain _ _ _ _ _ _ .refl (hodd.trans heven)

/-- A function that would call itself for ever, but is interrupted first. -/
def pausing : FunctionDef := ⟨"f", [], "int", [.call "k" [], .call "f" []]⟩

/-- An interruption comes before the limit and is no fault. -/
theorem interrupted_before_the_limit :
    ¬ ∀ (p : Program) (f : FunctionDef) (args : List Value) (m : Machine), Exceeds p f m →
      ∃ fault m', callFunction p f args m = .error (.fault fault) m' := by
  intro hfaults
  have hcalls : Calls { functions := [pausing] } [("k", .fn (.raising (.interrupt "stop")))]
      pausing pausing := ⟨"f", by decide, rfl⟩
  obtain ⟨fault, m', hfault⟩ := hfaults { functions := [pausing] } pausing []
    { env := [("k", .fn (.raising (.interrupt "stop")))] } (exceeds_of_cycle (.single hcalls))
  cases hfault

end LetCall.Run
