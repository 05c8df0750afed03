/-!
# LetCall.Proofs.Steps

Steps in a row.  Reading, parsing and running are all steps that change a state and may
fail, and all of them are opened by the same few equations: what a step does next is
known once it is known how its first part ends.
-/

namespace LetCall

variable {ε σ α β : Type} {x y : EStateM ε σ α} {f g : α → EStateM ε σ β}
  {handler : ε → EStateM ε σ α} {s s' : σ} {a : α} {e : ε}

theorem bind_of_ok (h : x s = .ok a s') : (x >>= f) s = f a s' := by
  show EStateM.bind x f s = _
  simp only [EStateM.bind, h]

theorem bind_of_error (h : x s = .error e s') : (x >>= f) s = .error e s' := by
  show EStateM.bind x f s = _
  simp only [EStateM.bind, h]

theorem bind_congr_of_ok (hx : x s = y s) (hf : ∀ a s', y s = .ok a s' → f a s' = g a s') :
    (x >>= f) s = (y >>= g) s := by
  cases h : y s with
  | ok a s' => rw [bind_of_ok (hx.trans h), bind_of_ok h, hf a s' h]
  | error e s' => rw [bind_of_error (hx.trans h), bind_of_error h]

/-- A row of steps gives a value just as both of them do. -/
theorem bind_eq_ok_iff {b : β} {s'' : σ} :
    (x >>= f) s = .ok b s'' ↔ ∃ a s', x s = .ok a s' ∧ f a s' = .ok b s'' := by
  cases h : x s with
  | ok a s' => simp [bind_of_ok h, and_assoc]
  | error e s' => simp [bind_of_error h]

/-- A row of steps fails in its first part or in its second. -/
theorem bind_eq_error_iff {s'' : σ} :
    (x >>= f) s = .error e s'' ↔
      x s = .error e s'' ∨ ∃ a s', x s = .ok a s' ∧ f a s' = .error e s'' := by
  cases h : x s with
  | ok a s' => simp [bind_of_ok h, and_assoc]
  | error e' s' => simp [bind_of_error h]

theorem map_of_ok (k : α → β) (h : x s = .ok a s') : (k <$> x) s = .ok (k a) s' := by
  show EStateM.map k x s = _
  simp only [EStateM.map, h]

theorem map_of_error (k : α → β) (h : x s = .error e s') : (k <$> x) s = .error e s' := by
  show EStateM.map k x s = _
  simp only [EStateM.map, h]

theorem tryCatch_of_ok (h : x s = .ok a s') : (tryCatch x handler) s = .ok a s' := by
  show EStateM.tryCatch x handler s = _
  delta EStateM.tryCatch
  rw [h]

/-- A handler goes on from the state in which a step has failed. -/
theorem tryCatch_of_error (h : x s = .error e s') : (tryCatch x handler) s = handler e s' := by
  show EStateM.tryCatch x handler s = _
  delta EStateM.tryCatch
  rw [h]
  rfl

/-- A step that is known to give a value ends in some state. -/
theorem exists_ok_of_run' (h : x.run' s = some a) : ∃ s', x s = .ok a s' := by
  delta EStateM.run' EStateM.run at h
  cases hx : x s with
  | ok b s' =>
    rw [hx] at h
    cases h
    exact ⟨s', rfl⟩
  | error e s' =>
    rw [hx] at h
    cases h

/-! ## steps that leave the state alone -/

/-- A step that neither looks at the state nor changes it. -/
def Settled (x : EStateM ε σ α) : Prop := (∃ a, x = Pure.pure a) ∨ ∃ e, x = MonadExcept.throw e

theorem Settled.pure (a : α) : Settled (Pure.pure a : EStateM ε σ α) := .inl ⟨a, rfl⟩

theorem Settled.throw (e : ε) : Settled (MonadExcept.throw e : EStateM ε σ α) := .inr ⟨e, rfl⟩

theorem Settled.bind (hx : Settled x) (hf : ∀ a, Settled (f a)) : Settled (x >>= f) := by
  rcases hx with ⟨a, rfl⟩ | ⟨e, rfl⟩
  · exact hf a
  · exact .inr ⟨e, rfl⟩

end LetCall
