import LetCall.Proofs.Moments
import LetCall.Proofs.Phases
import LetCall.Proofs.Source.Vocabulary

/-!
# LetCall.Proofs.Source.Confinement

What a run of a source can get to.  Programs that are read from a source are plain, and what
a plain program enters is plain too; since it cannot import the module of texts, whose name is
a reserved word, that module's functions are never there, and since it has no operators but
plus and minus, it never comes to any other.

Main statement: `source_confinement`, for every source, errors recovered from included.
-/

namespace LetCall

/-! ## names that are not there -/

/-- The names that the module of texts offers. -/
def textFunctions : List String := ["print", "println", "len", "substr", "upper", "lower"]

/-- None of the functions of texts is in the environment. -/
def Textless (env : Bindings) : Prop := ∀ name ∈ textFunctions, env.get? name = none

/-- What is found registers none of the functions of texts. -/
def Found.KeepsTextless : Found → Prop
  | .nothing | .noRegister => True
  | .withRegister f => ∀ env, Textless env → Textless (f env).1

namespace Run

open Relation

/-- A module whose name does not begin with a reserved word is not that of texts. -/
theorem textless_exports {name : String} (hname : Unreserved name) {md : Module}
    (hmd : Module.ofName? name = some md) : ∀ n ∈ textFunctions, n ∉ Bindings.names md.exports := by
  cases md with
  | string =>
    have hstring : name = "string" := by
      unfold Module.ofName? at hmd
      split at hmd <;> first | rfl | cases hmd
    subst hstring
    exact (hname "string" (by decide) List.prefix_rfl).elim
  | math => decide
  | time => decide

theorem OnlyWorld.textless {m m' : Machine} (h : OnlyWorld m m') (hm : Textless m.env) :
    Textless m'.env := by
  obtain ⟨w, rfl⟩ := h
  exact hm

/-- Where no other module registers them, the functions of texts do not come into the
environment; the modules around the program stay as they are. -/
structure StaysTextless (m m' : Machine) : Prop where
  modules : m'.world.modules = m.world.modules
  env : m.world.modules.EveryOther Found.KeepsTextless → Textless m.env → Textless m'.env

instance : IsPreorder Machine StaysTextless where
  refl _ := ⟨rfl, fun _ h => h⟩
  trans _ _ _ h h' := ⟨h'.modules.trans h.modules, fun hms hm =>
    h'.env (h.modules.symm ▸ hms) (h.env hms hm)⟩

theorem load_staysTextless {name : String} (hname : Unreserved name) :
    Moves StaysTextless (load name) := by
  intro m
  -- what a module leaves that is not one of the language's own is as the table says
  have hother : ∀ {f env}, Module.ofName? name = none → m.world.modules name = .withRegister f →
      env = (f m.env).1 → StaysTextless m { m with env } := by
    rintro f env hnone hfound rfl
    refine ⟨rfl, fun hms hm => ?_⟩
    have htextless := hms.of_none hnone
    rw [hfound] at htextless
    exact htextless m.env hm
  have hloads := load_loads name m
  generalize load name m = r at hloads
  cases hloads with
  | refused f => exact refl_of StaysTextless m
  | own md hmd hstarts =>
    refine ⟨Module.modules_started m.world md, fun _ hm n hn => ?_⟩
    exact (Bindings.get?_setAll_of_not_mem (textless_exports hname hmd n hn) m.env).trans (hm n hn)
  | other hnone f hfound env hf => exact hother hnone hfound (by rw [hf])
  | raised hnone f hfound env message hf => exact hother hnone hfound (by rw [hf])

theorem importModule_staysTextless {name : String} (hname : Unreserved name) :
    Moves StaysTextless (importModule name) := by
  refine .tryCatch (load_staysTextless hname) fun s => ?_
  cases s with
  | fault f => exact fun m => ⟨rfl, fun _ h => h⟩
  | interrupted s => exact .throw _

/-- Imports of unreserved names do not bring the functions of texts in. -/
theorem imports_staysTextless {names : List String} (hnames : ∀ name ∈ names, Unreserved name) :
    Moves StaysTextless (imports names) := by
  induction names with
  | nil => exact .pure _
  | cons name names ih =>
    rw [List.forall_mem_cons] at hnames
    exact .bind (importModule_staysTextless hnames.1) fun _ => ih hnames.2

theorem textless_of_imports {names : List String} (hnames : ∀ name ∈ names, Unreserved name)
    {m m' : Machine} (h : imports names m = .ok () m')
    (hms : m.world.modules.EveryOther Found.KeepsTextless) (hm : Textless m.env) :
    Textless m'.env := by
  have hstays := imports_staysTextless hnames m
  rw [h] at hstays
  exact hstays.env hms hm

/-! ## plain tasks -/

/-- A task that has to do with plain nodes only. -/
def Task.Plain : Task → Prop
  | .program => True
  | .statement n => n.Plain
  | .function f _ => ∀ n ∈ f.body, n.Plain
  | .node n => n.Plain

/-- What a plain program enters from a plain task is plain. -/
theorem EntersIn.plain {p : Program} {cs : List Context} {M N : Moment} (h : EntersIn p cs M N)
    (hp : p.Plain) (hM : M.task.Plain) : N.task.Plain := by
  cases h with
  | global _ _ _ hn => exact hp.statements _ (by simp [hn])
  | main _ _ _ _ hmain => exact (hp.functions _ (Program.mem_of_find? hmain)).body
  | call => exact hM
  | ret =>
    cases hM with
    | ret hv => exact hv
  | letIn =>
    cases hM with
    | letIn _ hv => exact hv
  | body _ _ hn => exact hM _ (by simp [hn])
  | argument =>
    cases hM with
    | call _ hargs => exact hargs _ (by simp)
  | function hcallee => exact (hp.functions _ (mem_of_callee? hcallee)).body
  | left =>
    cases hM with
    | bin _ hl _ => exact hl
  | right =>
    cases hM with
    | bin _ _ hr => exact hr
  | operand =>
    cases hM with
    | un hx => exact hx

/-! ## confined runs -/

/-- A run from a machine on never has the functions of texts, and comes to no operators but plus
and minus. -/
structure Confined (p : Program) (m : Machine) : Prop where
  /-- After each of the imports. -/
  loading : ∀ loaded rest m₁, p.imports = some (loaded ++ rest) → imports loaded m = .ok () m₁ →
    Textless m₁.env
  /-- At every moment. -/
  moments : ∀ N, ReflTransGen (Enters p) ⟨.program, m⟩ N → Textless N.machine.env
  /-- At the end. -/
  ending : ∀ v m', program p m = .ok v m' → Textless m'.env
  operators : ∀ op l r m', ReflTransGen (Enters p) ⟨.program, m⟩ ⟨.node (.bin op l r), m'⟩ →
    op = "+" ∨ op = "-"

section Confined

variable {p : Program} {m : Machine}

/-- The functions of texts are not there, and where a run begins, they do not come in. -/
structure Moment.Textless (M : Moment) : Prop where
  env : LetCall.Textless M.machine.env
  modules : M.task = .program → M.machine.world.modules.EveryOther Found.KeepsTextless

theorem EntersIn.textless {cs : List Context} {M N : Moment} (h : EntersIn p cs M N) (hp : p.Plain)
    (hM : M.Textless) : N.Textless := by
  have htask : N.task ≠ .program := by cases h <;> nofun
  refine ⟨?_, fun hprogram => (htask hprogram).elim⟩
  -- imports are the only part of a run that changes the environment, and they come at its start
  obtain ⟨names, hnames, hunreserved⟩ := hp.imports
  by_cases hprogram : M.task = .program
  · have hms := hM.modules hprogram
    cases h with
    | global _ himports hloaded _ hbefore =>
      cases hnames.symm.trans himports
      rw [(executeAll_sameSetting hbefore).env]
      exact textless_of_imports hunreserved hloaded hms hM.env
    | main _ himports hloaded hstatements _ =>
      cases hnames.symm.trans himports
      rw [(executeAll_sameSetting hstatements).env]
      exact textless_of_imports hunreserved hloaded hms hM.env
    | _ => cases hprogram
  · rw [h.setting.2.2 hprogram]
    exact hM.env

variable (hms : m.world.modules.EveryOther Found.KeepsTextless)

include hms

/-- Everything that a plain program leads to is plain and without the functions of texts. -/
theorem plain_of_reaches (hp : p.Plain) (hm : Textless m.env) {N : Moment}
    (h : ReflTransGen (Enters p) ⟨.program, m⟩ N) : N.task.Plain ∧ N.Textless := by
  induction h with
  | refl => exact ⟨trivial, hm, fun _ => hms⟩
  | tail _ henters ih =>
    obtain ⟨cs, henters⟩ := henters
    exact ⟨henters.plain hp ih.1, henters.textless hp ih.2⟩

/-- The environment at the end of a run is the one that its imports have left. -/
theorem textless_of_program (hp : p.Plain) (hm : Textless m.env) {v : Value} {m' : Machine}
    (h : program p m = .ok v m') : Textless m'.env := by
  obtain ⟨v', m₁, hprogram, hworld⟩ := exists_program p m
  cases hprogram.symm.trans h
  obtain ⟨names, hnames, hunreserved⟩ := hp.imports
  refine hworld.textless ?_
  by_cases hfunctions : p.functions = []
  · rw [result_of_nothing (.inl hfunctions)]
    exact hm
  · obtain ⟨m₂, m₃, hloaded, _, ⟨k, _, hrow, _⟩, hresult⟩ := result_of_imports hfunctions hnames m
    refine hresult.textless ?_
    rw [(executeAll_sameSetting hrow).env]
    exact textless_of_imports hunreserved hloaded hms hm

theorem confined_of_plain (hp : p.Plain) (hm : Textless m.env) : Confined p m where
  loading loaded rest m₁ himports hloaded := by
    obtain ⟨names, hnames, hunreserved⟩ := hp.imports
    cases hnames.symm.trans himports
    rw [List.forall_mem_append] at hunreserved
    exact textless_of_imports hunreserved.1 hloaded hms hm
  moments N hreaches := (plain_of_reaches hms hp hm hreaches).2.env
  ending v m' hprogram := textless_of_program hms hp hm hprogram
  operators op l r m' hreaches := by
    cases (plain_of_reaches hms hp hm hreaches).1 with
    | bin hop => exact hop

end Confined

end Run

/-! ## sources -/

/-- **What a source can reach.**  A program that is read from a source, with or without errors
recovered from, has no numbers, no operators but plus and minus, no names that begin with a
reserved word, and functions whose return type is an integer, the first token of their heads.
So when it is compiled and run, however many reports the parser may make, and among modules
none of which but that of texts registers the functions of texts, these are never there, and
no operators are applied but plus and minus. -/
theorem source_confinement :
    (∀ code tokens, (tokenize code = .ok tokens ∨ ∃ errors, recover code = (tokens, errors)) →
      ∀ limit r q, Parsing.parse limit (.ofTokens tokens) = .ok r q →
        ∃ p, r = some p ∧ p.Plain ∧ ∀ f ∈ p.functions,
          ∃ (header : Grammar.Header) (before after : List Token),
            tokens = before ++ (header.tokens ++ after) ∧ f = header.withBody f.body ∧
            Pattern.IsRun Text.isDigit header.ret.1.text.toList) ∧
    ∀ o code w tokens w₁ p w₂, w.modules.EveryOther Found.KeepsTextless →
      Compile.tokenizePhase o code w = .ok (some tokens) w₁ →
      Compile.parsePhase o (tokens.map .token) w₁ = .ok (some p) w₂ →
      (tokens ≠ [] → Compile.compileAndRun o code w = Compile.interpretPhase o (some p) w₂) ∧
      w₂.modules = w.modules ∧
      ∀ world, world.modules = w.modules → Run.Confined p { world := world } := by
  constructor
  · intro code tokens htokens limit r q hparse
    have hrecovered : tokens = (recover code).1 := by
      rcases htokens with hok | ⟨errors, hrecover⟩
      · rw [tokenize_eq_ok_iff.mp hok]
      · rw [hrecover]
    refine Parsing.plain_of_parse (fun t ht => ?_) hparse
    rw [hrecovered] at ht
    exact lexed_of_mem_recover ht
  · intro o code w tokens w₁ p w₂ hms htokenize hphase
    obtain ⟨hrecovered, hadds⟩ := Compile.tokenizePhase_gives o code w _ w₁ htokenize
    obtain ⟨⟨q, hparse⟩, hadds'⟩ := Compile.parsePhase_gives o _ w₁ _ w₂ hphase
    obtain ⟨text, htokens⟩ := hrecovered tokens rfl
    have hlexed : ∀ t ∈ tokens, t.Lexed := fun t ht => lexed_of_mem_recover (htokens ▸ ht)
    obtain ⟨p', hp', hplain, _⟩ := Parsing.plain_of_parse hlexed hparse
    cases hp'
    have hconfined : ∀ world : World, world.modules = w.modules →
        Run.Confined p { world := world } := fun world hworld =>
      Run.confined_of_plain (hworld.symm ▸ hms) hplain fun name _ => rfl
    exact ⟨fun hne => Compile.compileAndRun_of_phases hne htokenize hphase,
      (hadds.trans hadds').modules, hconfined⟩

/-- A let with a minus and a function whose return type is a number. -/
def minusSource : String := "let a=b-c 0f()\x7b\x7d"

/-- Its tokens. -/
def minusTokens : List Token :=
  [⟨.letWord, "let", 1, 1⟩, ⟨.ident, "a", 1, 5⟩, ⟨.assign, "=", 1, 6⟩, ⟨.ident, "b", 1, 7⟩,
    ⟨.minus, "-", 1, 8⟩, ⟨.ident, "c", 1, 9⟩, ⟨.int, "0", 1, 11⟩, ⟨.ident, "f", 1, 12⟩,
    ⟨.lparen, "(", 1, 13⟩, ⟨.rparen, ")", 1, 14⟩, ⟨.lbrace, "\x7b", 1, 15⟩,
    ⟨.rbrace, "\x7d", 1, 16⟩]

/-- None of the modules of a plain installation registers a function of texts. -/
theorem keepsTextless_plain : Modules.plain.EveryOther Found.KeepsTextless :=
  Modules.everyOther_plain trivial trivial fun _ _ h => h

/-- The program that is read from it is plain, and its run confined. -/
theorem minus_confined :
    (∃ p q, Parsing.parse reportLimit (.ofTokens minusTokens) = .ok (some p) q ∧ p.Plain) ∧
    ({} : World).modules.EveryOther Found.KeepsTextless ∧
    ∃ p w₂, Compile.tokenizePhase {} (some minusSource) {} = .ok (some minusTokens) {} ∧
      Compile.parsePhase {} (minusTokens.map .token) {} = .ok (some p) w₂ ∧ Run.Confined p {} := by
  have htokenize : tokenize minusSource = .ok minusTokens :=
    tokenize_eq_ok_iff.mpr (by decide +kernel)
  have hparse : ∃ p q, Parsing.parse reportLimit (.ofTokens minusTokens) = .ok (some p) q :=
    ⟨_, _, rfl⟩
  have htokens : Compile.tokenizePhase {} (some minusSource) {} = .ok (some minusTokens) {} :=
    Compile.tokenizePhase_of_tokenize htokenize {}
  have hphase : ∃ p w₂, Compile.parsePhase {} (minusTokens.map .token) {} = .ok (some p) w₂ :=
    ⟨_, _, rfl⟩
  constructor
  · obtain ⟨p, q, hp⟩ := hparse
    obtain ⟨p', hsome, hplain, _⟩ := source_confinement.1 _ _ (.inl htokenize) _ _ _ hp
    cases hsome
    exact ⟨p, q, hp, hplain⟩
  · obtain ⟨p, w₂, hp⟩ := hphase
    have hms : ({} : World).modules.EveryOther Found.KeepsTextless := keepsTextless_plain
    exact ⟨hms, p, w₂, htokens, hp,
      (source_confinement.2 _ _ _ _ _ _ _ hms htokens hp).2.2 {} rfl⟩

end LetCall
