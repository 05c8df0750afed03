import LetCall.Proofs.Twins.Evaluation

/-!
# LetCall.Proofs.Twins.Calls

A function cannot see its callers.  The frames below that of a function are neither read nor
changed by it: a variable is looked up in the innermost frame and then outside of all frames,
and the only thing that is asked of the frames below is how many they are.

`Machine.Beside S d` relates two machines that have `d` frames in common on top of the frames
they started with.  Evaluation and calls from the one echo those from the other.

Main statement: `callFunction_blind`.
-/

namespace LetCall

/-! ## machines side by side -/

/-- What two runs have found: the frames and the output of each, and the limit on the frames,
which they share. -/
structure Surroundings where
  frames : List Frame
  frames' : List Frame
  written : String
  written' : String
  limit : Int

/-- Two machines that differ only in their surroundings, with `d` frames of their own. -/
structure Machine.Beside (S : Surroundings) (d : Nat) (m m' : Machine) : Prop where
  env : m'.env = m.env
  globals : m'.globals = m.globals
  limit : m.maxDepth = S.limit
  limit' : m'.maxDepth = S.limit
  stack : ∃ own, own.length = d ∧ m.stack = own ++ S.frames ∧ m'.stack = own ++ S.frames'
  world : World.Beside S.written S.written' m.world m'.world

/-- The second run starts with no more frames than the first, and with as many if the two are
to fail alike. -/
structure Surroundings.Fits (S : Surroundings) (whole : Prop) : Prop where
  le : S.frames'.length ≤ S.frames.length
  eq : whole → S.frames'.length = S.frames.length

/-- The surroundings are out of sight: there is a frame on top of them, or none at all. -/
def Surroundings.Hidden (S : Surroundings) (d : Nat) : Prop :=
  0 < d ∨ S.frames = [] ∧ S.frames' = []

namespace Machine.Beside

variable {S : Surroundings} {d : Nat} {m m' : Machine}

theorem push (h : Beside S d m m') (f : Frame) : Beside S (d + 1) (m.push f) (m'.push f) := by
  obtain ⟨own, hlength, hstack, hstack'⟩ := h.stack
  have hown : (f :: own).length = d + 1 := by rw [List.length_cons, hlength]
  exact { h with
    stack := ⟨f :: own, hown, congrArg (f :: ·) hstack, congrArg (f :: ·) hstack'⟩ }

theorem pop (h : Beside S (d + 1) m m') : Beside S d m.pop m'.pop := by
  obtain ⟨own, hlength, hstack, hstack'⟩ := h.stack
  cases own with
  | nil => cases hlength
  | cons f own =>
    have htail : m.pop.stack = own ++ S.frames := by simp [Machine.pop, hstack]
    have htail' : m'.pop.stack = own ++ S.frames' := by simp [Machine.pop, hstack']
    exact { h with stack := ⟨own, Nat.succ.inj hlength, htail, htail'⟩ }

/-- In a hidden surrounding both machines have the same innermost frame, or none. -/
theorem head? (h : Beside S d m m') (hidden : S.Hidden d) : m'.stack.head? = m.stack.head? := by
  obtain ⟨own, hlength, hstack, hstack'⟩ := h.stack
  rw [hstack, hstack']
  rcases hidden with hpos | ⟨hframes, hframes'⟩
  · cases own with
    | nil =>
      rw [← hlength] at hpos
      cases hpos
    | cons f own => rfl
  · rw [hframes, hframes']

theorem lookup? (h : Beside S d m m') (hidden : S.Hidden d) (name : String) :
    m'.lookup? name = m.lookup? name := by
  rw [Machine.lookup?, h.head? hidden, h.globals, h.env, Machine.lookup?]

theorem bind (h : Beside S d m m') (hidden : S.Hidden d) (name : String) (v : Value) :
    Beside S d (m.bind name v) (m'.bind name v) := by
  obtain ⟨own, hlength, hstack, hstack'⟩ := h.stack
  cases own with
  | nil =>
    obtain ⟨hframes, hframes'⟩ : S.frames = [] ∧ S.frames' = [] :=
      hidden.resolve_left (by rw [← hlength]; exact Nat.lt_irrefl 0)
    have hnil : m.stack = [] := by rw [hstack, hframes, List.nil_append]
    have hnil' : m'.stack = [] := by rw [hstack', hframes', List.nil_append]
    rw [bind_of_nil hnil, bind_of_nil hnil']
    exact { h with globals := congrArg (Bindings.set · name v) h.globals }
  | cons f own =>
    rw [bind_of_cons hstack, bind_of_cons hstack']
    exact { h with stack := ⟨{ f with locals := f.locals.set name v } :: own, hlength, rfl, rfl⟩ }

theorem length_stack (h : Beside S d m m') :
    m.stack.length = d + S.frames.length ∧ m'.stack.length = d + S.frames'.length := by
  obtain ⟨own, hlength, hstack, hstack'⟩ := h.stack
  rw [hstack, hstack', List.length_append, List.length_append, hlength]
  exact ⟨rfl, rfl⟩

end Machine.Beside

/-- Two machines that agree on all but their frames and what they have written. -/
structure Machine.Agrees (m m' : Machine) : Prop where
  env : m'.env = m.env
  globals : m'.globals = m.globals
  maxDepth : m'.maxDepth = m.maxDepth
  device : m'.world.device = m.world.device
  now : m'.world.now = m.world.now
  clockBroken : m'.world.clockBroken = m.world.clockBroken
  timer : m'.world.timer = m.world.timer
  modules : m'.world.modules = m.world.modules

/-- What two machines have found when a run starts in each. -/
def Machine.surroundings (m m' : Machine) : Surroundings :=
  ⟨m.stack, m'.stack, m.world.output, m'.world.output, m.maxDepth⟩

theorem Machine.Agrees.beside {m m' : Machine} (h : m.Agrees m') :
    Machine.Beside (m.surroundings m') 0 m m' where
  env := h.env
  globals := h.globals
  limit := rfl
  limit' := h.maxDepth
  stack := ⟨[], rfl, rfl, rfl⟩
  world :=
    { output := ⟨"", String.append_empty.symm, String.append_empty.symm⟩
      device := h.device
      now := h.now
      clockBroken := h.clockBroken
      timer := h.timer
      modules := h.modules }

/-- A machine in which a step has changed the world only, to `w`, and has written `text`. -/
def Machine.leaving (m : Machine) (w : World) (text : String) : Machine :=
  { m with world := { w with output := m.world.output ++ text } }

namespace Run

variable {α : Type} {S : Surroundings} {d : Nat} {whole : Prop}

/-! ## functions -/

/-- A step that is blind to the surroundings: it does the same in both, up to failures unless
`whole` holds. -/
def Blind (S : Surroundings) (d : Nat) (whole : Prop) (x : Run α) : Prop :=
  Echoes (Machine.Beside S d) whole x x

theorem beside_worldly : Worldly (Machine.Beside S d) :=
  fun _ _ h => ⟨_, _, h.world, fun _ _ hworld => { h with world := hworld }⟩

section Functions

variable {p : Program} {run : Executor}

/-- To evaluation the surroundings make no difference as long as they are hidden. -/
theorem beside_alike (hidden : S.Hidden d) (hrun : ∀ f args, Blind S d whole (run f args)) :
    Alike (Machine.Beside S d) whole p p run run where
  worldly := beside_worldly
  lookup? _ _ h name := h.lookup? hidden name
  bind _ _ h name v := h.bind hidden name v
  callee? m m' h name := by
    rw [h.env]
    cases callee? p m.env name with
    | none => exact .none
    | some c =>
      cases c with
      | builtin f => exact .some (.builtin f)
      | user f => exact .some (.user (hrun f))

/-- A function in its frame is blind to the frames below if the calls in its body are. -/
theorem callFunction_blind_of_body (hfits : S.Fits whole)
    (hbody : (d + S.frames.length : Int) < S.limit →
      ∀ f args, Blind S (d + 1) whole (callFunction p f args))
    (f : FunctionDef) (args : List Value) : Blind S d whole (callFunction p f args) := by
  intro m m' h
  obtain ⟨hlength, hlength'⟩ := h.length_stack
  rw [callFunction_eq, callFunction_eq, h.limit, h.limit', hlength, hlength']
  by_cases hdepth : S.limit ≤ (d + S.frames.length : Nat)
  · rw [if_pos hdepth]
    by_cases hwhole : whole
    · rw [hfits.eq hwhole, if_pos hdepth]
      exact .of_error h
    · exact .of_failure hwhole
  · have hle := hfits.le
    have hdepth' : ¬ S.limit ≤ (d + S.frames'.length : Nat) := by omega
    rw [if_neg hdepth, if_neg hdepth']
    by_cases hcount : args.length ≠ f.params.length
    · rw [if_pos hcount, if_pos hcount]
      exact .of_error h
    · rw [if_neg hcount, if_neg hcount]
      have hrun := hbody (by omega)
      have halike : Alike (Machine.Beside S (d + 1)) whole p p _ _ :=
        beside_alike (.inl (Nat.succ_pos d)) hrun
      exact Echoes.inFrame _ (fun _ _ h => h.push _) (fun _ _ h => h.pop)
        (.inContext _ (bodyWith_echoes halike f.ret f.body)) m m' h

/-- A function is blind to the frames below its own.  The induction is on the number of frames
that can still be entered in the first run. -/
theorem callFunction_blind (hfits : S.Fits whole) (f : FunctionDef) (args : List Value) :
    Blind S d whole (callFunction p f args) := by
  generalize hb : (S.limit - (d + S.frames.length : Nat)).toNat = b
  induction b generalizing d f args with
  | zero =>
    refine callFunction_blind_of_body hfits (fun hdepth => ?_) f args
    omega
  | succ b ih =>
    refine callFunction_blind_of_body hfits (fun _ f args => ih f args ?_) f args
    omega

end Functions

/-! ## calls from two machines -/

/-- Two runs that have changed the world alike, behind what each had written before. -/
theorem exists_leaving {m m' m₁ m₁' : Machine} (hm : OnlyWorld m m₁) (hm' : OnlyWorld m' m₁')
    (h : World.Beside m.world.output m'.world.output m₁.world m₁'.world) :
    ∃ w text, m₁ = m.leaving w text ∧ m₁' = m'.leaving w text := by
  obtain ⟨w, rfl⟩ := hm
  obtain ⟨w', rfl⟩ := hm'
  obtain ⟨text, hout, hout'⟩ := h.output
  refine ⟨w, text, ?_, ?_⟩
  · rw [Machine.leaving, ← hout]
  · obtain ⟨output, device, now, clockBroken, timer, modules⟩ := w'
    rw [Machine.leaving, ← hout', ← h.device, ← h.now, ← h.clockBroken, ← h.timer, ← h.modules]

section Callers

variable {p : Program} {f : FunctionDef} {args : List Value} {m m' m₁ : Machine}

theorem callFunction_twin_ok (hagrees : m.Agrees m') (hle : m'.stack.length ≤ m.stack.length)
    {v : Value} (hcall : callFunction p f args m = .ok v m₁) :
    ∃ w text, m₁ = m.leaving w text ∧
      callFunction p f args m' = .ok v (m'.leaving w text) := by
  have hfits : (m.surroundings m').Fits False := ⟨hle, False.elim⟩
  have hecho := callFunction_blind (p := p) hfits f args m m' hagrees.beside
  obtain ⟨m₁', hcall', h₁⟩ := hecho.ok v m₁ hcall
  have hmoves := callFunction_moves p f args m
  have hmoves' := callFunction_moves p f args m'
  rw [hcall] at hmoves
  rw [hcall'] at hmoves'
  obtain ⟨w, text, rfl, rfl⟩ := exists_leaving hmoves hmoves' h₁.world
  exact ⟨w, text, rfl, hcall'⟩

-- the limit is reached in both runs at once only if they have equally many frames
theorem callFunction_twin_error (hagrees : m.Agrees m') (heq : m'.stack.length = m.stack.length)
    {s : Stop} (hcall : callFunction p f args m = .error s m₁) :
    ∃ w text, m₁ = m.leaving w text ∧
      callFunction p f args m' = .error s (m'.leaving w text) := by
  have hfits : (m.surroundings m').Fits True := ⟨heq.le, fun _ => heq⟩
  have hecho := callFunction_blind (p := p) hfits f args m m' hagrees.beside
  obtain ⟨m₁', hcall', h₁⟩ := hecho.error trivial s m₁ hcall
  have hmoves := callFunction_moves p f args m
  have hmoves' := callFunction_moves p f args m'
  rw [hcall] at hmoves
  rw [hcall'] at hmoves'
  obtain ⟨w, text, rfl, rfl⟩ := exists_leaving hmoves hmoves' h₁.world
  exact ⟨w, text, rfl, hcall'⟩

end Callers

/-- **A function cannot see its callers.**  From machines with equally many frames a call gives
the same value or fails in the same way, changes the world alike and writes the same, whatever
the frames hold.  What a call gives it gives from fewer frames as well. -/
theorem call_blind_to_callers (p : Program) (f : FunctionDef) (args : List Value) {m m' : Machine}
    (hagrees : m.Agrees m') :
    (m'.stack.length = m.stack.length → ∃ w text,
      (∃ v, callFunction p f args m = .ok v (m.leaving w text) ∧
        callFunction p f args m' = .ok v (m'.leaving w text)) ∨
      ∃ s, callFunction p f args m = .error s (m.leaving w text) ∧
        callFunction p f args m' = .error s (m'.leaving w text)) ∧
    (m'.stack.length ≤ m.stack.length → ∀ v m₁, callFunction p f args m = .ok v m₁ →
      ∃ w text, m₁ = m.leaving w text ∧
        callFunction p f args m' = .ok v (m'.leaving w text)) := by
  constructor
  · intro heq
    cases hcall : callFunction p f args m with
    | ok v m₁ =>
      obtain ⟨w, text, rfl, hcall'⟩ := callFunction_twin_ok hagrees heq.le hcall
      exact ⟨w, text, .inl ⟨v, rfl, hcall'⟩⟩
    | error s m₁ =>
      obtain ⟨w, text, rfl, hcall'⟩ := callFunction_twin_error hagrees heq hcall
      exact ⟨w, text, .inr ⟨s, rfl, hcall'⟩⟩
  · intro hle v m₁ hcall
    exact callFunction_twin_ok hagrees hle hcall

/-- A function that writes the value of a name and gives it back. -/
def telling : FunctionDef := ⟨"tell", [], "INT", [.call "println" [.var "x"], .ret (.var "x")]⟩

/-- A machine with a global `x`, in the midst of a function with an `x` of its own. -/
def inside (f : String) (v : Value) : Machine :=
  { env := Module.string.exports, globals := [("x", .str "seen")], stack := [⟨f, [("x", v)]⟩] }

/-- The function finds the global value from either machine, and writes it. -/
theorem telling_hides :
    (inside "main" (.int 2)).Agrees (inside "other" .null) ∧
    ∃ w text, callFunction {} telling [] (inside "main" (.int 2)) =
        .ok (.str "seen") ((inside "main" (.int 2)).leaving w text) ∧
      callFunction {} telling [] (inside "other" .null) =
        .ok (.str "seen") ((inside "other" .null).leaving w text) := by
  have hagrees : (inside "main" (.int 2)).Agrees (inside "other" .null) :=
    ⟨rfl, rfl, rfl, rfl, rfl, rfl, rfl, rfl⟩
  have hcall : ∃ m₁, callFunction {} telling [] (inside "main" (.int 2)) = .ok (.str "seen") m₁ :=
    ⟨_, rfl⟩
  obtain ⟨m₁, hm₁⟩ := hcall
  obtain ⟨w, text, rfl, hother⟩ :=
    (call_blind_to_callers {} telling [] hagrees).2 (Nat.le_refl 1) _ _ hm₁
  exact ⟨hagrees, w, text, hm₁, hother⟩

end Run

end LetCall
