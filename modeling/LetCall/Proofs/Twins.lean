import LetCall.Library
import LetCall.Proofs.Steps

/-!
# LetCall.Proofs.Twins

Two runs side by side.  `Echoes Q whole x y` says that from states that `Q` relates `y` gives
each value that `x` gives, and, if `whole` holds, fails as `x` fails, and that the states in
which the two end are related again.  It is passed along the steps of a run for every `Q`.

Main statement: what has been written before plays no part in a call of a built-in function
(`call_oblivious`) or in the start of a module (`start_oblivious`): both write the same behind
different texts.
-/

namespace LetCall

/-! ## steps that echo others -/

section Echo

variable {ε σ α β : Type} {Q : σ → σ → Prop} {whole : Prop}

/-- The second outcome echoes the first: it has the same value and, if `whole` holds, the same
failure, in a related state. -/
structure Echo (Q : σ → σ → Prop) (whole : Prop) (r r' : EStateM.Result ε σ α) : Prop where
  ok : ∀ a s, r = .ok a s → ∃ s', r' = .ok a s' ∧ Q s s'
  error : whole → ∀ e s, r = .error e s → ∃ s', r' = .error e s' ∧ Q s s'

/-- From related states the second step echoes the first. -/
def Echoes (Q : σ → σ → Prop) (whole : Prop) (x y : EStateM ε σ α) : Prop :=
  ∀ s s', Q s s' → Echo Q whole (x s) (y s')

theorem Echo.of_ok {a : α} {s s' : σ} (h : Q s s') :
    Echo Q whole (.ok a s : EStateM.Result ε σ α) (.ok a s') where
  ok := by
    rintro _ _ ⟨⟩
    exact ⟨s', rfl, h⟩
  error := by rintro _ _ _ ⟨⟩

theorem Echo.of_error {e : ε} {s s' : σ} (h : Q s s') :
    Echo Q whole (.error e s : EStateM.Result ε σ α) (.error e s') where
  ok := by rintro _ _ ⟨⟩
  error := by
    rintro _ _ _ ⟨⟩
    exact ⟨s', rfl, h⟩

/-- Where failures need not be echoed, nothing is to be shown of one. -/
theorem Echo.of_failure {e : ε} {s : σ} {r : EStateM.Result ε σ α} (h : ¬ whole) :
    Echo Q whole (.error e s) r where
  ok := by rintro _ _ ⟨⟩
  error := fun hwhole => (h hwhole).elim

section Steps

variable {x y : EStateM ε σ α} {f g : α → EStateM ε σ β} {s s' : σ}

theorem Echo.bind (hx : Echo Q whole (x s) (y s')) (hf : ∀ a, Echoes Q whole (f a) (g a)) :
    Echo Q whole ((x >>= f) s) ((y >>= g) s') := by
  constructor
  · intro b s₂ hok
    obtain ⟨a, s₁, hxs, hfs⟩ := bind_eq_ok_iff.mp hok
    obtain ⟨s₁', hys, hs₁⟩ := hx.ok a s₁ hxs
    rw [bind_of_ok hys]
    exact (hf a s₁ s₁' hs₁).ok b s₂ hfs
  · intro hwhole e s₂ herror
    rcases bind_eq_error_iff.mp herror with hxs | ⟨a, s₁, hxs, hfs⟩
    · obtain ⟨s₂', hys, hs₂⟩ := hx.error hwhole e s₂ hxs
      exact ⟨s₂', bind_of_error hys, hs₂⟩
    · obtain ⟨s₁', hys, hs₁⟩ := hx.ok a s₁ hxs
      rw [bind_of_ok hys]
      exact (hf a s₁ s₁' hs₁).error hwhole e s₂ hfs

theorem Echo.tryCatch {handler handler' : ε → EStateM ε σ α} (hx : Echo Q True (x s) (y s'))
    (hh : ∀ e, Echoes Q True (handler e) (handler' e)) :
    Echo Q True (MonadExcept.tryCatch x handler s) (MonadExcept.tryCatch y handler' s') := by
  cases hxs : x s with
  | ok a s₁ =>
    obtain ⟨s₁', hys, hs₁⟩ := hx.ok a s₁ hxs
    rw [tryCatch_of_ok hxs, tryCatch_of_ok hys]
    exact .of_ok hs₁
  | error e s₁ =>
    obtain ⟨s₁', hys, hs₁⟩ := hx.error trivial e s₁ hxs
    rw [tryCatch_of_error hxs, tryCatch_of_error hys]
    exact hh e s₁ s₁' hs₁

end Steps

namespace Echoes

variable {x y : EStateM ε σ α} {f g : α → EStateM ε σ β}

theorem pure (a : α) : Echoes Q whole (Pure.pure a : EStateM ε σ α) (Pure.pure a) :=
  fun _ _ h => .of_ok h

theorem throw (e : ε) : Echoes Q whole (MonadExcept.throw e : EStateM ε σ α) (MonadExcept.throw e) :=
  fun _ _ h => .of_error h

theorem settled (hx : Settled x) : Echoes Q whole x x := by
  rcases hx with ⟨a, rfl⟩ | ⟨e, rfl⟩
  · exact pure a
  · exact throw e

theorem modify {k k' : σ → σ} (h : ∀ s s', Q s s' → Q (k s) (k' s')) :
    Echoes Q whole (modify k : EStateM ε σ PUnit) (modify k') :=
  fun s s' hs => .of_ok (h s s' hs)

/-- Steps that look at their states first. -/
theorem get_bind {f g : σ → EStateM ε σ β} (h : ∀ s s', Q s s' → Echo Q whole (f s s) (g s' s')) :
    Echoes Q whole ((get : EStateM ε σ σ) >>= f) ((get : EStateM ε σ σ) >>= g) := h

theorem bind (hx : Echoes Q whole x y) (hf : ∀ a, Echoes Q whole (f a) (g a)) :
    Echoes Q whole (x >>= f) (y >>= g) :=
  fun s s' hs => (hx s s' hs).bind hf

theorem tryCatch {handler handler' : ε → EStateM ε σ α} (hx : Echoes Q True x y)
    (hh : ∀ e, Echoes Q True (handler e) (handler' e)) :
    Echoes Q True (MonadExcept.tryCatch x handler) (MonadExcept.tryCatch y handler') :=
  fun s s' hs => (hx s s' hs).tryCatch hh

/-- A handler that only passes failures on cannot turn one into a value. -/
theorem rethrow {handler : ε → EStateM ε σ α} (hx : Echoes Q whole x y)
    (hh : ∀ e, ∃ e', handler e = MonadExcept.throw e') :
    Echoes Q whole (MonadExcept.tryCatch x handler) (MonadExcept.tryCatch y handler) := by
  intro s s' hs
  have hecho := hx s s' hs
  cases hxs : x s with
  | ok a s₁ =>
    obtain ⟨s₁', hys, hs₁⟩ := hecho.ok a s₁ hxs
    rw [tryCatch_of_ok hxs, tryCatch_of_ok hys]
    exact .of_ok hs₁
  | error e s₁ =>
    obtain ⟨e', he'⟩ := hh e
    rw [tryCatch_of_error hxs, he']
    by_cases hwhole : whole
    · obtain ⟨s₁', hys, hs₁⟩ := hecho.error hwhole e s₁ hxs
      rw [tryCatch_of_error hys, he']
      exact .of_error hs₁
    · exact .of_failure hwhole

end Echoes

end Echo

/-! ## worlds -/

/-- Two worlds that differ only in what was written before some text. -/
structure World.Beside (o o' : String) (w w' : World) : Prop where
  output : ∃ text, w.output = o ++ text ∧ w'.output = o' ++ text
  device : w'.device = w.device
  now : w'.now = w.now
  clockBroken : w'.clockBroken = w.clockBroken
  timer : w'.timer = w.timer
  modules : w'.modules = w.modules

/-- What was written before plays no part in a step. -/
def Oblivious {ε α : Type} (x : WorldM ε α) : Prop :=
  ∀ o o', Echoes (World.Beside o o') True x x

theorem World.Beside.write {o o' : String} {w w' : World} (h : Beside o o' w w') (s : String) :
    Beside o o' (w.write s) (w'.write s) := by
  obtain ⟨text, hout, hout'⟩ := h.output
  have htext : (w.write s).output = o ++ (text ++ s) := by
    rw [output_write, hout, String.append_assoc]
  have htext' : (w'.write s).output = o' ++ (text ++ s) := by
    rw [output_write, hout', String.append_assoc]
  exact { h with output := ⟨text ++ s, htext, htext'⟩ }

namespace Library

variable {ε α : Type} {o o' : String}

theorem readClock_oblivious : Oblivious readClock := by
  intro o o'
  refine .get_bind fun w w' h => ?_
  rw [h.clockBroken, h.now]
  cases w.clockBroken with
  | true => exact .of_error h
  | false => exact .of_ok h

theorem ofExcept_oblivious (r : Except ε α) : Oblivious (ofExcept r : WorldM ε α) := by
  intro o o'
  cases r with
  | ok a => exact .pure a
  | error e => exact .throw e

theorem startTimer_oblivious : Oblivious startTimer := by
  intro o o'
  exact .bind (readClock_oblivious o o') fun now => .modify fun w w' h => { h with timer := rfl }

theorem elapsed_oblivious : Oblivious elapsed := by
  intro o o'
  refine .get_bind fun w w' h => ?_
  rw [h.timer]
  cases w.timer with
  | none => exact .of_ok h
  | some start =>
    have hrest := (readClock_oblivious o o').bind fun now =>
      (ofExcept_oblivious (now.sub start) o o').bind fun t => .pure (some t)
    exact hrest w w' h

theorem orNote_oblivious (what : String) {x : WorldM Trouble String} (hx : Oblivious x) :
    Oblivious (orNote what x) := by
  intro o o'
  unfold orNote
  refine .bind ?_ fun e => ?_
  · exact .tryCatch (.bind (hx o o') fun s => .pure _) fun e => .pure _
  · cases e <;> exact .pure _

theorem inContext_oblivious (context : String) {x : WorldM Trouble α} (hx : Oblivious x) :
    Oblivious (inContext context x) := by
  intro o o'
  exact .tryCatch (hx o o') fun e => .throw _

theorem timeText_oblivious : Oblivious timeText := by
  refine orNote_oblivious _ fun o o' => .bind (elapsed_oblivious o o') fun t? => ?_
  cases t? with
  | none => exact .pure _
  | some t => exact .bind (ofExcept_oblivious _ o o') fun s => .pure _

theorem resetTimer_oblivious : Oblivious resetTimer :=
  inContext_oblivious _ fun o o' => .bind (startTimer_oblivious o o') fun _ => .pure _

theorem uptime_oblivious : Oblivious uptime := by
  refine inContext_oblivious _ fun o o' => .bind (elapsed_oblivious o o') fun t? => ?_
  cases t? with
  | none => exact .pure _
  | some t => exact .pure _

theorem timestampText_oblivious : Oblivious timestampText := by
  refine orNote_oblivious _ fun o o' => .bind (readClock_oblivious o o') fun now =>
    .bind (ofExcept_oblivious _ o o') fun seconds => ?_
  cases Numeric.intText? seconds with
  | none => exact .throw _
  | some text => exact .pure _

theorem datetimeText_oblivious : Oblivious datetimeText :=
  orNote_oblivious _ fun o o' => .bind (readClock_oblivious o o') fun _ =>
    .bind (ofExcept_oblivious _ o o') fun _ => .pure _

theorem dateText_oblivious : Oblivious dateText :=
  orNote_oblivious _ fun o o' => .bind (readClock_oblivious o o') fun _ =>
    .bind (ofExcept_oblivious _ o o') fun _ => .pure _

theorem sleep_oblivious (v : Value) : Oblivious (sleep v) := by
  refine inContext_oblivious _ fun o o' => .bind (ofExcept_oblivious _ o o') fun s =>
    .bind (readClock_oblivious o o') fun now => .bind (ofExcept_oblivious _ o o') fun later =>
      .bind (.modify fun w w' h => ?_) fun _ => .pure _
  exact { h with now := rfl }

theorem writeAscii_beside {w w' : World} (h : World.Beside o o' w w') (pieces : List String) :
    World.Beside o o' (writeAscii w pieces).1 (writeAscii w' pieces).1 ∧
      (writeAscii w' pieces).2 = (writeAscii w pieces).2 := by
  induction pieces generalizing w w' with
  | nil => exact ⟨h, rfl⟩
  | cons piece pieces ih =>
    cases htrouble : encodingTrouble? piece with
    | some e => simpa [writeAscii, htrouble] using h
    | none => simpa [writeAscii, htrouble] using ih (h.write piece)

theorem print_oblivious (ending : String) (vs : List Value) : Oblivious (print ending vs) := by
  intro o o'
  refine .get_bind fun w w' h => ?_
  rw [h.device]
  cases printedAll vs with
  | error e =>
    by_cases hbroken : w.device = .broken
    · simp only [hbroken]
      exact .of_error h
    · simp only [hbroken]
      exact .of_ok (h.write _)
  | ok texts =>
    cases w.device with
    | anyText => exact .of_ok (h.write _)
    | broken => exact .of_ok h
    | ascii =>
      obtain ⟨hworld, hnote⟩ := writeAscii_beside h (texts.intersperse " " ++ [ending])
      cases hwrite : writeAscii w (texts.intersperse " " ++ [ending]) with
      | mk w₁ note =>
        cases hwrite' : writeAscii w' (texts.intersperse " " ++ [ending]) with
        | mk w₁' note' =>
          rw [hwrite, hwrite'] at hworld hnote
          cases hnote
          simp only [hwrite, hwrite']
          cases note with
          | none => exact .of_ok hworld
          | some e => exact .of_ok (hworld.write _)

end Library

theorem worldCall?_oblivious {b : Builtin} {args : List Value} {act : WorldM Trouble Value}
    (h : b.worldCall? args = some act) : Oblivious act := by
  unfold Builtin.worldCall? at h
  split at h
  · cases h
    exact Library.print_oblivious _ _
  · cases h
    exact Library.print_oblivious _ _
  · cases h
    exact Library.timeText_oblivious
  · cases h
    exact Library.timestampText_oblivious
  · cases h
    exact Library.datetimeText_oblivious
  · cases h
    exact Library.dateText_oblivious
  · cases h
    exact Library.sleep_oblivious _
  · cases h
    exact Library.resetTimer_oblivious
  · cases h
    exact Library.uptime_oblivious
  · cases h

/-- What was written before plays no part in a call of a built-in function. -/
theorem call_oblivious (b : Builtin) (args : List Value) : Oblivious (b.call args) := by
  unfold Builtin.call
  split
  · exact Library.ofExcept_oblivious _
  · next hworld => exact worldCall?_oblivious hworld
  · exact fun _ _ => .throw _

/-- Nor does it in the start of a module. -/
theorem start_oblivious (m : Module) : Oblivious m.start := by
  cases m with
  | math => exact fun _ _ => .pure _
  | string => exact fun _ _ => .pure _
  | time => exact Library.inContext_oblivious _ Library.startTimer_oblivious

end LetCall
