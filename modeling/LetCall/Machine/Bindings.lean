import LetCall.Value

/-!
# LetCall.Machine.Bindings

Names bound to values, in the order in which they were first bound.

Main statements: looking up a name after a binding (`get?_set_self`, `get?_set_ne`).
-/

namespace LetCall

/-- Names and their values, in the order of first binding. -/
abbrev Bindings := List (String × Value)

namespace Bindings

/-- The value of a name. -/
def get? : Bindings → String → Option Value
  | [], _ => none
  | (n, v) :: bs, name => if n = name then some v else get? bs name

/-- Bind a name: a known one keeps its place, a new one goes last. -/
def set : Bindings → String → Value → Bindings
  | [], name, v => [(name, v)]
  | (n, w) :: bs, name, v => if n = name then (n, v) :: bs else (n, w) :: set bs name v

/-- Bind many names, one after another. -/
def setAll (bs new : Bindings) : Bindings := new.foldl (fun bs (n, v) => bs.set n v) bs

/-- The bound names. -/
def names (bs : Bindings) : List String := bs.map (·.1)

@[simp] theorem get?_nil (name : String) : get? [] name = none := rfl

@[simp] theorem get?_set_self (bs : Bindings) (name : String) (v : Value) :
    (bs.set name v).get? name = some v := by
  induction bs with
  | nil => simp [set, get?]
  | cons b bs ih =>
    obtain ⟨n, w⟩ := b
    by_cases h : n = name <;> simp [set, get?, h, ih]

theorem get?_set_ne (bs : Bindings) {name other : String} (v : Value) (h : other ≠ name) :
    (bs.set name v).get? other = bs.get? other := by
  induction bs with
  | nil => simp [set, get?, Ne.symm h]
  | cons b bs ih =>
    obtain ⟨n, w⟩ := b
    by_cases hn : n = name
    · subst hn; simp [set, get?, Ne.symm h]
    · by_cases ho : n = other
      · subst ho; simp [set, get?, hn]
      · simp [set, get?, hn, ho, ih]

theorem get?_setAll_of_not_mem {new : Bindings} {name : String} (h : name ∉ new.names)
    (bs : Bindings) : (bs.setAll new).get? name = bs.get? name := by
  induction new generalizing bs with
  | nil => rfl
  | cons b new ih =>
    simp only [names, List.map_cons, List.mem_cons, not_or] at h
    have hrest : name ∉ names new := h.2
    calc (bs.setAll (b :: new)).get? name
      _ = ((bs.set b.1 b.2).setAll new).get? name := rfl
      _ = (bs.set b.1 b.2).get? name := ih hrest _
      _ = bs.get? name := get?_set_ne bs b.2 h.1

end Bindings

end LetCall
