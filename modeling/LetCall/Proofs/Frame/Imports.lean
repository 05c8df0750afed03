import LetCall.Proofs.Frame

/-!
# LetCall.Proofs.Frame.Imports

What bringing modules in can change.  A name is refused, or it is that of one of the
language's own modules, which are there or cannot be started, or it is looked up among the
modules that stand around the program, and these may do to the environment what they like.

Main statements: `load_loads`, which lists what loading a name can come to, and
`exists_imports`.
-/

namespace LetCall

/-! ## the language's own modules -/

/-- Binding many names, each once, leaves the others. -/
theorem Bindings.get?_setAll {new : Bindings} (hnew : new.names.Nodup) (bs : Bindings)
    (name : String) :
    (bs.setAll new).get? name = (new.get? name).or (bs.get? name) := by
  induction new generalizing bs with
  | nil => rfl
  | cons b new ih =>
    obtain ⟨n, v⟩ := b
    obtain ⟨hn, hnodup⟩ := List.nodup_cons.mp hnew
    have hcons : bs.setAll ((n, v) :: new) = (bs.set n v).setAll new := rfl
    by_cases h : n = name
    · subst h
      rw [hcons, get?_setAll_of_not_mem hn]
      simp [get?]
    · rw [hcons, ih hnodup, get?_set_ne bs v (Ne.symm h)]
      simp [get?, h]

namespace Module

theorem nodup_exports (md : Module) : (Bindings.names md.exports).Nodup := by
  cases md <;> decide

/-- Whether a module can be started: that of time asks the clock. -/
def starts (w : World) : Module → Bool
  | time => !w.clockBroken
  | _ => true

/-- The world once a module has been started. -/
def started (w : World) : Module → World
  | time => { w with timer := some w.now }
  | _ => w

@[simp] theorem modules_started (w : World) (md : Module) : (md.started w).modules = w.modules := by
  cases md <;> rfl

theorem start_of_starts {md : Module} {w : World} (h : md.starts w = true) :
    md.start w = .ok () (md.started w) := by
  cases md with
  | math => rfl
  | string => rfl
  | time =>
    obtain ⟨output, device, now, clockBroken, timer, modules⟩ := w
    cases clockBroken with
    | true => cases h
    | false => rfl

/-- Why a module cannot be started. -/
def startFailure : Trouble := .within "Failed to register time module: " .clockFailure

theorem start_of_not_starts {md : Module} {w : World} (h : md.starts w = false) :
    md.start w = .error startFailure w := by
  cases md with
  | math => cases h
  | string => cases h
  | time =>
    obtain ⟨output, device, now, clockBroken, timer, modules⟩ := w
    cases clockBroken with
    | true => rfl
    | false => cases h

end Module

/-! ## the modules around a program -/

/-- What holds of all that is found under names other than those of the language's own
modules. -/
def Modules.EveryOther (ms : Modules) (P : Found → Prop) : Prop :=
  ∀ name, name ∉ ["math", "string", "time"] → P (ms name)

theorem Modules.EveryOther.of_none {ms : Modules} {P : Found → Prop} (h : ms.EveryOther P)
    {name : String} (hnone : Module.ofName? name = none) : P (ms name) := by
  refine h name fun hmem => ?_
  simp only [List.mem_cons, List.not_mem_nil, or_false] at hmem
  rcases hmem with rfl | rfl | rfl <;> cases hnone

/-- In a plain installation there are modules without a `register`, and one that raises and
leaves the environment as it is. -/
theorem Modules.everyOther_plain {P : Found → Prop} (hnothing : P .nothing)
    (hnoRegister : P .noRegister)
    (hraising : ∀ message, P (.withRegister fun env => (env, some message))) :
    Modules.plain.EveryOther P := by
  intro name _
  unfold Modules.plain
  split
  · exact hraising _
  · split
    · exact hnoRegister
    · exact hnothing

namespace Run

variable {name : String} {m : Machine} {md : Module}

/-! ## loading -/

theorem register_of_starts (h : md.starts m.world = true) :
    register md m =
      .ok () { m with env := m.env.setAll md.exports, world := md.started m.world } := by
  have hstart : onWorld md.start m = .ok () { m with world := md.started m.world } := by
    simp only [onWorld, Module.start_of_starts h]
  exact bind_of_ok hstart

theorem register_of_not_starts (h : md.starts m.world = false) :
    register md m = .error (.fault ⟨[], .trouble Module.startFailure⟩) m := by
  have hstart : onWorld md.start m = .error (.fault ⟨[], .trouble Module.startFailure⟩) m := by
    simp only [onWorld, Module.start_of_not_starts h]
  exact bind_of_error hstart

/-- Where a name is looked for: it is refused, it is that of one of the language's own modules,
or it is looked up among the modules around the program. -/
theorem load_cases (name : String) :
    (∃ cause, load name = fail cause) ∨
    (∃ md, Module.ofName? name = some md ∧ load name = tryCatch (register md) (refuse name)) ∨
    (Module.ofName? name = none ∧
      load name = fun m => registerFound name (m.world.modules name) m) := by
  unfold load
  by_cases hempty : name = ""
  · rw [if_pos hempty]
    exact .inl ⟨.module .emptyName, rfl⟩
  rw [if_neg hempty]
  by_cases hname : (!isModuleName name) = true
  · rw [if_pos hname]
    exact .inl ⟨.module (.invalidName name), rfl⟩
  rw [if_neg hname]
  cases Module.ofName? name with
  | some md => exact .inr (.inl ⟨md, rfl, rfl⟩)
  | none => exact .inr (.inr ⟨rfl, rfl⟩)

/-- What loading a name can come to. -/
inductive Loads (name : String) (m : Machine) : EStateM.Result Stop Machine Unit → Prop
  /-- Nothing is changed. -/
  | refused (f : Fault) : Loads name m (.error (.fault f) m)
  /-- One of the language's own modules is there. -/
  | own (md : Module) (hname : Module.ofName? name = some md) (hstarts : md.starts m.world = true) :
      Loads name m (.ok () { m with env := m.env.setAll md.exports, world := md.started m.world })
  /-- Another module has registered what it likes. -/
  | other (hname : Module.ofName? name = none) (f : Bindings → Bindings × Option String)
      (hfound : m.world.modules name = .withRegister f) (env : Bindings)
      (hf : f m.env = (env, none)) : Loads name m (.ok () { m with env })
  /-- Another module has raised, after it may have registered something. -/
  | raised (hname : Module.ofName? name = none) (f : Bindings → Bindings × Option String)
      (hfound : m.world.modules name = .withRegister f) (env : Bindings) (message : String)
      (hf : f m.env = (env, some message)) :
      Loads name m (.error (.fault ⟨[], .module (.refused name message)⟩) { m with env })

theorem registerFound_loads (hname : Module.ofName? name = none) :
    Loads name m (registerFound name (m.world.modules name) m) := by
  cases hfound : m.world.modules name with
  | nothing => exact .refused _
  | noRegister => exact .refused _
  | withRegister f =>
    simp only [registerFound]
    split
    · next env hf => exact .other hname f hfound env hf
    · next env message hf => exact .raised hname f hfound env message hf

theorem load_loads (name : String) (m : Machine) : Loads name m (load name m) := by
  rcases load_cases name with ⟨cause, h⟩ | ⟨md, hname, h⟩ | ⟨hname, h⟩
  · rw [h]
    exact .refused _
  · rw [h]
    cases hstarts : md.starts m.world with
    | true =>
      rw [tryCatch_of_ok (register_of_starts hstarts)]
      exact .own md hname hstarts
    | false =>
      rw [tryCatch_of_error (register_of_not_starts hstarts)]
      exact .refused _
  · rw [h]
    exact registerFound_loads hname

/-! ## rows of imports -/

/-- An import always ends, and changes the environment and the world only. -/
theorem exists_importModule (name : String) (m : Machine) :
    ∃ m', importModule name m = .ok () m' ∧ OnlyEnvironment m m' := by
  have hwarned : ∀ {f m'}, load name m = .error (.fault f) m' → OnlyEnvironment m m' →
      ∃ m'', importModule name m = .ok () m'' ∧ OnlyEnvironment m m'' := by
    intro f m' hload henv
    have hnote := Moves.putLine s!"Warning: Failed to load module '{name}': {f.message}" m'
    exact ⟨_, tryCatch_of_error hload, trans_of OnlyEnvironment henv hnote.onlyEnvironment⟩
  have hloads := load_loads name m
  generalize hload : load name m = r at hloads
  cases hloads with
  | refused f => exact hwarned hload (OnlyWorld.refl m).onlyEnvironment
  | own md => exact ⟨_, tryCatch_of_ok hload, _, _, rfl⟩
  | other _ _ _ env => exact ⟨_, tryCatch_of_ok hload, env, m.world, rfl⟩
  | raised _ _ _ env => exact hwarned hload ⟨env, m.world, rfl⟩

theorem exists_imports (names : List String) (m : Machine) :
    ∃ m', imports names m = .ok () m' ∧ OnlyEnvironment m m' := by
  induction names generalizing m with
  | nil => exact ⟨m, rfl, (OnlyWorld.refl m).onlyEnvironment⟩
  | cons name names ih =>
    obtain ⟨m', hmodule, henv⟩ := exists_importModule name m
    obtain ⟨m'', hrest, henv'⟩ := ih m'
    exact ⟨m'', (bind_of_ok hmodule).trans hrest, trans_of OnlyEnvironment henv henv'⟩

end Run

end LetCall
