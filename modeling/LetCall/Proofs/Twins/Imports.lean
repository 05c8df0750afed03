import LetCall.Proofs.Twins.Programs

/-!
# LetCall.Proofs.Twins.Imports

What imports do where the modules around a program do nothing.  A name brings one of the
language's own three modules in, or none; no two of these offer the same name, and one that
cannot be brought in leaves a machine as it was.  So neither the order of imports nor their
repetition matters, nor those that fail, but for the warnings that these write.

Main statements: `imports_eq`, which says what a row of imports comes to, and
`imports_commute`.
-/

namespace LetCall

/-! ## names that modules offer -/

namespace Bindings

theorem mem_names_of_get? {bs : Bindings} {name : String} {v : Value} (h : bs.get? name = some v) :
    name ∈ bs.names := by
  induction bs with
  | nil => cases h
  | cons b bs ih =>
    obtain ⟨n, w⟩ := b
    by_cases hn : n = name
    · simp [names, hn]
    · have hrest : get? bs name = some v := by simpa [get?, hn] using h
      exact List.mem_cons_of_mem _ (ih hrest)

end Bindings

namespace Module

/-- The name under which a module is brought in. -/
def name : Module → String
  | math => "math"
  | string => "string"
  | time => "time"

theorem ofName?_eq_some_iff {n : String} {md : Module} : ofName? n = some md ↔ n = md.name := by
  constructor
  · intro h
    unfold ofName? at h
    split at h <;> cases h <;> rfl
  · rintro rfl
    cases md <;> rfl

/-- No two modules offer the same name. -/
theorem eq_of_offers {md md' : Module} {n : String} {v v' : Value}
    (h : Bindings.get? md.exports n = some v) (h' : Bindings.get? md'.exports n = some v') :
    md = md' := by
  have hdisjoint : ∀ md md' : Module, md ≠ md' →
      (Bindings.names md.exports).all (fun n => !(Bindings.names md'.exports).contains n) =
        true := by
    intro md md'
    cases md <;> cases md' <;> decide
  by_contra hne
  have hnot := List.all_eq_true.mp (hdisjoint md md' hne) n (Bindings.mem_names_of_get? h)
  simp [Bindings.mem_names_of_get? h'] at hnot

/-- Bring modules into an environment, one after the other. -/
def extend (mods : List Module) (env : Bindings) : Bindings :=
  mods.foldl (fun env md => env.setAll md.exports) env

theorem get?_extend_of_none {mods : List Module} {n : String}
    (h : ∀ md ∈ mods, Bindings.get? md.exports n = none) (env : Bindings) :
    Bindings.get? (extend mods env) n = Bindings.get? env n := by
  induction mods generalizing env with
  | nil => rfl
  | cons md mods ih =>
    rw [List.forall_mem_cons] at h
    have hmd : Bindings.get? (env.setAll md.exports) n = Bindings.get? env n := by
      rw [Bindings.get?_setAll md.nodup_exports, h.1, Option.none_or]
    exact (ih h.2 (env.setAll md.exports)).trans hmd

theorem get?_extend_of_mem {mods : List Module} {md : Module} {n : String} {v : Value}
    (hmem : md ∈ mods) (h : Bindings.get? md.exports n = some v) (env : Bindings) :
    Bindings.get? (extend mods env) n = some v := by
  induction mods generalizing env with
  | nil => cases hmem
  | cons k mods ih =>
    by_cases hrest : md ∈ mods
    · exact ih hrest (env.setAll k.exports)
    · -- only the first module offers the name, and those behind it leave it
      obtain rfl : md = k := (List.mem_cons.mp hmem).resolve_right hrest
      have hnone : ∀ k ∈ mods, Bindings.get? k.exports n = none := by
        intro k hk
        by_contra hsome
        obtain ⟨v', hv'⟩ := Option.ne_none_iff_exists'.mp hsome
        exact hrest (eq_of_offers h hv' ▸ hk)
      have hfirst : Bindings.get? (env.setAll md.exports) n = some v := by
        rw [Bindings.get?_setAll md.nodup_exports, h, Option.some_or]
      exact (get?_extend_of_none hnone (env.setAll md.exports)).trans hfirst

/-- What names mean depends only on which modules were brought in. -/
theorem get?_extend_congr {mods mods' : List Module} (h : ∀ md, md ∈ mods ↔ md ∈ mods')
    (env : Bindings) (n : String) :
    Bindings.get? (extend mods env) n = Bindings.get? (extend mods' env) n := by
  by_cases hoffer : ∃ md ∈ mods, ∃ v, Bindings.get? md.exports n = some v
  · obtain ⟨md, hmd, v, hv⟩ := hoffer
    rw [get?_extend_of_mem hmd hv, get?_extend_of_mem ((h md).mp hmd) hv]
  · have hnone : ∀ md ∈ mods, Bindings.get? md.exports n = none := by
      intro md hmd
      by_contra hsome
      obtain ⟨v, hv⟩ := Option.ne_none_iff_exists'.mp hsome
      exact hoffer ⟨md, hmd, v, hv⟩
    have hnone' : ∀ md ∈ mods', Bindings.get? md.exports n = none :=
      fun md hmd => hnone md ((h md).mpr hmd)
    rw [get?_extend_of_none hnone, get?_extend_of_none hnone']

end Module

/-- A machine with modules brought in and a text written. -/
def Machine.furnished (m : Machine) (mods : List Module) (text : String) : Machine :=
  { m with
    env := Module.extend mods m.env
    world := { m.world with
      output := m.world.output ++ text
      timer := if .time ∈ mods then some m.world.now else m.world.timer } }

/-! ## modules that do nothing -/

/-- What is found does nothing to an environment: there is no module, it has no `register`, or
it has one that raises without touching its argument. -/
def Found.Inert : Found → Prop
  | .nothing | .noRegister => True
  | .withRegister f => ∀ env, ∃ message, f env = (env, some message)

namespace Run

variable {m m' : Machine} {name : String} {md : Module}

/-! ## loading -/

/-- The module that a name brings in, if it is the name of one that can be started. -/
def brings? (w : World) (name : String) : Option Module :=
  (Module.ofName? name).filter (·.starts w)

theorem brings?_eq_some_iff {w : World} :
    brings? w name = some md ↔ name = md.name ∧ md.starts w = true := by
  rw [brings?, Option.filter_eq_some_iff, Module.ofName?_eq_some_iff]

/-- What a name brings in depends on the clock only. -/
theorem brings?_congr {w w' : World} (h : w'.clockBroken = w.clockBroken) :
    brings? w' = brings? w := by
  have hstarts : ∀ md : Module, md.starts w' = md.starts w := by
    intro md
    cases md <;> simp [Module.starts, h]
  funext name
  simp only [brings?, hstarts]

theorem furnished_one (m : Machine) (md : Module) :
    m.furnished [md] "" =
      { m with env := m.env.setAll md.exports, world := md.started m.world } := by
  cases md <;> simp [Machine.furnished, Module.extend, Module.started]

theorem load_of_brings (h : brings? m.world name = some md) :
    load name m = .ok () (m.furnished [md] "") := by
  obtain ⟨rfl, hstarts⟩ := brings?_eq_some_iff.mp h
  rw [furnished_one]
  cases md <;> exact tryCatch_of_ok (register_of_starts hstarts)

section Inert

variable (hinert : m.world.modules.EveryOther Found.Inert)

include hinert

/-- Among modules that do nothing, a name that brings none in fails and leaves the machine as
it was. -/
theorem exists_refusal (h : brings? m.world name = none) :
    ∃ f, load name m = .error (.fault f) m := by
  have hraises : ∀ {f}, Module.ofName? name = none → m.world.modules name = .withRegister f →
      ∃ message, f m.env = (m.env, some message) := by
    intro f hname hfound
    have hother := hinert.of_none hname
    rw [hfound] at hother
    exact hother m.env
  have hloads := load_loads name m
  generalize load name m = r at hloads
  cases hloads with
  | refused f => exact ⟨f, rfl⟩
  | own md hname hstarts =>
    rw [brings?_eq_some_iff.mpr ⟨Module.ofName?_eq_some_iff.mp hname, hstarts⟩] at h
    cases h
  | other hname f hfound env hf =>
    obtain ⟨message, hmessage⟩ := hraises hname hfound
    cases hf.symm.trans hmessage
  | raised hname f hfound env message hf =>
    obtain ⟨message', hmessage⟩ := hraises hname hfound
    cases hf.symm.trans hmessage
    exact ⟨_, rfl⟩

/-- A name that cannot be loaded changes nothing. -/
theorem eq_of_load_error {s : Stop} (h : load name m = .error s m') : m' = m := by
  cases hbrings : brings? m.world name with
  | some md =>
    rw [load_of_brings hbrings] at h
    cases h
  | none =>
    obtain ⟨f, hf⟩ := exists_refusal hinert hbrings
    cases hf.symm.trans h
    rfl

/-- Only the names of modules can be loaded. -/
theorem exists_of_load_ok (h : load name m = .ok () m') :
    ∃ md : Module, name = md.name ∧ md.starts m.world = true := by
  cases hbrings : brings? m.world name with
  | some md => exact ⟨md, brings?_eq_some_iff.mp hbrings⟩
  | none =>
    obtain ⟨f, hf⟩ := exists_refusal hinert hbrings
    cases hf.symm.trans h

end Inert

/-! ## rows of imports -/

/-- What is written if a name cannot be loaded: a line that says why. -/
def warning (m : Machine) (name : String) : String :=
  match load name m with
  | .error (.fault f) _ => s!"Warning: Failed to load module '{name}': {f.message}" ++ "\n"
  | _ => ""

theorem importModule_eq (hinert : m.world.modules.EveryOther Found.Inert) (name : String) :
    importModule name m =
      .ok () (m.furnished (brings? m.world name).toList (warning m name)) := by
  cases hm : brings? m.world name with
  | some md =>
    rw [warning, load_of_brings hm]
    exact tryCatch_of_ok (load_of_brings hm)
  | none =>
    obtain ⟨f, hf⟩ := exists_refusal hinert hm
    rw [warning, hf]
    refine (tryCatch_of_error hf).trans ?_
    simp only [Option.toList_none, Machine.furnished, List.not_mem_nil, if_false]
    rfl

theorem furnished_furnished (m : Machine) (mods mods' : List Module) (text text' : String) :
    (m.furnished mods text).furnished mods' text' =
      m.furnished (mods ++ mods') (text ++ text') := by
  by_cases htime : Module.time ∈ mods <;> by_cases htime' : Module.time ∈ mods' <;>
    simp [Machine.furnished, Module.extend, htime, htime', String.append_assoc]

/-- The modules that names bring in, one after the other. -/
def brought (w : World) (names : List String) : List Module :=
  names.flatMap fun name => (brings? w name).toList

/-- What is written while names are loaded, each in the machine that those before it leave. -/
def warnings : Machine → List String → String
  | _, [] => ""
  | m, name :: names => warning m name ++ warnings (after (importModule name m)) names

/-- **What imports come to**: the modules of those names that can be loaded are there, and for
each of the others a warning has been written. -/
theorem imports_eq (hinert : m.world.modules.EveryOther Found.Inert) (names : List String) :
    imports names m = .ok () (m.furnished (brought m.world names) (warnings m names)) := by
  induction names generalizing m with
  | nil => simp [imports, brought, warnings, Machine.furnished, Module.extend]; rfl
  | cons name names ih =>
    have hmodule := importModule_eq hinert name
    have hclock : ∀ mods text, (m.furnished mods text).world.clockBroken = m.world.clockBroken :=
      fun _ _ => rfl
    have hinert' : (m.furnished (brings? m.world name).toList
        (warning m name)).world.modules.EveryOther Found.Inert := hinert
    refine (bind_of_ok hmodule).trans ((ih hinert').trans ?_)
    rw [brought, brings?_congr (hclock _ _), furnished_furnished, warnings, hmodule, after]
    rfl

theorem mem_brought {w : World} {names : List String} :
    md ∈ brought w names ↔ md.starts w = true ∧ md.name ∈ names := by
  simp only [brought, List.mem_flatMap, Option.mem_toList, brings?_eq_some_iff]
  constructor
  · rintro ⟨name, hname, rfl, hstarts⟩
    exact ⟨hstarts, hname⟩
  · rintro ⟨hstarts, hname⟩
    exact ⟨md.name, hname, rfl, hstarts⟩

/-- Machines furnished with the same modules are alongside each other. -/
theorem alongside_furnished {mods mods' : List Module} (h : ∀ md, md ∈ mods ↔ md ∈ mods')
    (m : Machine) (text text' : String) :
    Machine.Alongside (companions (m.furnished mods text) (m.furnished mods' text'))
      (m.furnished mods text) (m.furnished mods' text') where
  env := rfl
  env' := rfl
  globals := rfl
  stack := rfl
  maxDepth := rfl
  world :=
    { output := ⟨"", String.append_empty.symm, String.append_empty.symm⟩
      device := rfl
      now := rfl
      clockBroken := rfl
      timer := by simp only [Machine.furnished, h]
      modules := rfl }

/-- What a run writes before its first statement: the warnings of its imports, unless it has
no function and stops before them. -/
def preface (p : Program) (m : Machine) : String :=
  if p.functions = [] then "" else warnings m (p.imports.getD [])

theorem result_of_no_functions {p : Program} (h : p.functions = []) (m : Machine) :
    result p m = .error (.fault ⟨[], .noFunctions⟩) m := by
  simp only [result, h]
  rfl

/-- Where the same modules are brought in, programs that differ in their imports only run
alike behind their prefaces. -/
theorem exists_alongside (hinert : m.world.modules.EveryOther Found.Inert) {p p' : Program}
    {names names' : List String} (hfunctions : p'.functions = p.functions)
    (hstatements : p'.statements = p.statements)
    (himports : p.imports = some names) (himports' : p'.imports = some names')
    (h : ∀ md, md ∈ brought m.world names ↔ md ∈ brought m.world names') :
    ∃ C : Companions, C.written = m.world.output ++ preface p m ∧
      C.written' = m.world.output ++ preface p' m ∧
      Echo (Machine.Alongside C) True (result p m) (result p' m) := by
  by_cases hnone : p.functions = []
  · have hnone' : p'.functions = [] := hfunctions.trans hnone
    refine ⟨companions m m, ?_, ?_, ?_⟩
    · simp [preface, hnone, companions]
    · simp [preface, hnone', companions]
    · rw [result_of_no_functions hnone, result_of_no_functions hnone']
      exact .of_error (alongside_refl m)
  · have hnone' : p'.functions ≠ [] := hfunctions ▸ hnone
    have hloaded := imports_eq hinert names
    have hloaded' := imports_eq hinert names'
    refine ⟨companions _ _, ?_, ?_, result_alongside hnone hnone' himports himports' hstatements
      hloaded hloaded' ⟨?_, ?_⟩ (alongside_furnished h m _ _)⟩
    · simp [preface, hnone, himports, companions, Machine.furnished]
    · simp [preface, hnone', himports', companions, Machine.furnished]
    · exact fun name => Module.get?_extend_congr (fun md => (h md).symm) m.env name
    · intro name _
      have hfind : p'.find? name = p.find? name := by rw [Program.find?, hfunctions, Program.find?]
      rw [hfind]
      cases p.find? name with
      | none => exact .none
      | some f => exact .some (.refl f)

/-- **Imports commute, repeat and fail harmlessly**, whatever modules stand around a program, as
long as none but the language's own does anything to the environment.  A name that cannot be
loaded leaves a machine as it was.  What names mean after some imports depends only on which of
the three modules are among them.  Programs whose imports agree on what can be loaded give the
same exit value, leave the same global variables and write the same behind their warnings. -/
theorem imports_commute {m : Machine} (hinert : m.world.modules.EveryOther Found.Inert) :
    (∀ name s m', load name m = .error s m' → m' = m) ∧
    (∀ names names', (∀ name ∈ ["math", "string", "time"], name ∈ names ↔ name ∈ names') →
      ∃ m₁ m₁', imports names m = .ok () m₁ ∧ imports names' m = .ok () m₁' ∧
        ∀ name, m₁.env.get? name = m₁'.env.get? name) ∧
    ∀ (p : Program) names names',
      (∀ name m', load name m = .ok () m' → (name ∈ names ↔ name ∈ names')) →
      ∃ v m₁ m₁' text, program { p with imports := some names } m = .ok v m₁ ∧
        program { p with imports := some names' } m = .ok v m₁' ∧ m₁.globals = m₁'.globals ∧
        m₁.world.output = m.world.output ++ preface { p with imports := some names } m ++ text ∧
        m₁'.world.output =
          m.world.output ++ preface { p with imports := some names' } m ++ text := by
  refine ⟨fun name s m' => eq_of_load_error hinert, ?_, ?_⟩
  · intro names names' h
    have hmods : ∀ md, md ∈ brought m.world names ↔ md ∈ brought m.world names' := by
      intro md
      have hname : md.name ∈ ["math", "string", "time"] := by cases md <;> simp [Module.name]
      rw [mem_brought, mem_brought, h md.name hname]
    exact ⟨_, _, imports_eq hinert names, imports_eq hinert names',
      fun name => Module.get?_extend_congr hmods m.env name⟩
  · intro p names names' h
    have hmods : ∀ md, md ∈ brought m.world names ↔ md ∈ brought m.world names' := by
      intro md
      rw [mem_brought, mem_brought]
      refine and_congr_right fun hstarts => ?_
      exact h md.name _ (load_of_brings (brings?_eq_some_iff.mpr ⟨rfl, hstarts⟩))
    obtain ⟨C, hwritten, hwritten', hresult⟩ := @exists_alongside m hinert
      { p with imports := some names } { p with imports := some names' } names names' rfl rfl rfl
      rfl hmods
    obtain ⟨v, m₁, hprogram, _⟩ := exists_program { p with imports := some names } m
    obtain ⟨m₁', hprogram', halong⟩ :=
      (program_echo Machine.Alongside.worldly hresult).ok v m₁ hprogram
    obtain ⟨text, hout, hout'⟩ := halong.world.output
    rw [hwritten] at hout
    rw [hwritten'] at hout'
    exact ⟨v, m₁, m₁', text, hprogram, hprogram', halong.globals.symm, hout, hout'⟩

/-- A program that writes a sum. -/
def summing (names : List String) : Program where
  imports := some names
  functions :=
    [⟨"main", [], "void", [.call "println" [.call "add" [.num (.int 1), .num (.int 2)]]]⟩]

/-- The modules of a plain installation do nothing. -/
theorem inert_plain : Modules.plain.EveryOther Found.Inert :=
  Modules.everyOther_plain trivial trivial fun _ _ => ⟨_, rfl⟩

/-- Its imports in another order, with two that fail and one that is repeated. -/
theorem summing_reordered :
    ({} : Machine).world.modules.EveryOther Found.Inert ∧
    (∃ s, load "atexit" {} = .error s {}) ∧
    (∃ m₁ m₁', imports ["math", "string"] {} = .ok () m₁ ∧
      imports ["string", "os", "atexit", "math", "string"] {} = .ok () m₁' ∧
      ∀ name, m₁.env.get? name = m₁'.env.get? name) ∧
    ∃ v m₁ m₁' text, program (summing ["math", "string"]) {} = .ok v m₁ ∧
      program (summing ["string", "os", "atexit", "math", "string"]) {} = .ok v m₁' ∧
      m₁.globals = m₁'.globals ∧ m₁.world.output = text ∧
      m₁'.world.output =
        "Warning: Failed to load module 'os': Module 'os' does not have a register() function\n" ++
          "Warning: Failed to load module 'atexit': Error registering module 'atexit': " ++
          "the first argument must be callable\n" ++ text := by
  have hinert : ({} : Machine).world.modules.EveryOther Found.Inert := inert_plain
  obtain ⟨hfails, henv, hruns⟩ := imports_commute hinert
  have hatexit : ∃ s m', load "atexit" {} = .error s m' := ⟨_, _, rfl⟩
  obtain ⟨s, m', hload⟩ := hatexit
  refine ⟨hinert, ⟨s, hfails _ _ _ hload ▸ hload⟩, henv _ _ (by simp), ?_⟩
  obtain ⟨v, m₁, m₁', text, hrun, hrun', hglobals, hout, hout'⟩ :=
    hruns (summing []) ["math", "string"] ["string", "os", "atexit", "math", "string"] (by
      intro name m' hload
      obtain ⟨md, rfl, _⟩ := exists_of_load_ok hinert hload
      cases md <;> simp [Module.name])
  have hwarned : preface (summing ["string", "os", "atexit", "math", "string"]) {} =
      "Warning: Failed to load module 'os': Module 'os' does not have a register() function\n" ++
        "Warning: Failed to load module 'atexit': Error registering module 'atexit': " ++
        "the first argument must be callable\n" := by decide +kernel
  refine ⟨v, m₁, m₁', text, hrun, hrun', hglobals, hout.trans String.empty_append, hout'.trans ?_⟩
  rw [show preface { summing [] with imports := some _ } {} = _ from hwarned]
  rfl

end Run

end LetCall
