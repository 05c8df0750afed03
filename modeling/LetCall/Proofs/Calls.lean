import LetCall.Proofs.Evaluation
import Mathlib.Data.ENat.Lattice
import Mathlib.Data.List.Chain
import Mathlib.Data.List.Duplicate
import Mathlib.Order.CompletePartialOrder

/-!
# LetCall.Proofs.Calls

Which functions of a program call which.  Programs do not branch, so the calls that are made
can be read off their text: those that stand in a body up to its first return.  The height of
a function is the number of functions in the longest chain of calls that it begins.

Main statements: the height is one more than that of the highest function called
(`height_eq`), and it is infinite just where a cycle of calls can be reached
(`height_eq_top_iff`).
-/

namespace LetCall

/-! ## names that are called -/

mutual

/-- The names of the calls in a node that evaluation can come to; a foreign node has none. -/
def Node.calls : Node → List String
  | .call name args => name :: callsAll args
  | .bin _ l r => l.calls ++ r.calls
  | .un _ x => x.calls
  | .letIn _ v => v.calls
  | .ret v => v.calls
  | .absent | .str _ | .num _ | .var _ | .foreign _ => []

/-- The names of the calls in nodes. -/
def Node.callsAll : List Node → List String
  | [] => []
  | n :: ns => n.calls ++ callsAll ns

end

theorem Node.mem_callsAll {name : String} {ns : List Node} :
    name ∈ Node.callsAll ns ↔ ∃ n ∈ ns, name ∈ n.calls := by
  induction ns with
  | nil => simp [Node.callsAll]
  | cons n ns ih => simp [Node.callsAll, ih]

/-- The statements up to and including the first return; those after it are never executed. -/
def Node.live : List Node → List Node
  | [] => []
  | n :: ns => if n.isReturn then [n] else n :: live ns

theorem Node.mem_live_iff {n : Node} {ns : List Node} :
    n ∈ Node.live ns ↔
      ∃ before after, ns = before ++ n :: after ∧ ∀ k ∈ before, k.isReturn = false := by
  induction ns with
  | nil => simp [Node.live]
  | cons k ns ih =>
    rw [Node.live]
    constructor
    · intro hn
      by_cases hk : k.isReturn = true
      · rw [if_pos hk, List.mem_singleton] at hn
        exact ⟨[], ns, by rw [hn]; rfl, by simp⟩
      · rw [if_neg hk, List.mem_cons] at hn
        rcases hn with rfl | hn
        · exact ⟨[], ns, rfl, by simp⟩
        · obtain ⟨before, after, rfl, hbefore⟩ := ih.mp hn
          have hnot : k.isReturn = false := by simpa using hk
          exact ⟨k :: before, after, rfl, List.forall_mem_cons.mpr ⟨hnot, hbefore⟩⟩
    · rintro ⟨before, after, hsplit, hbefore⟩
      cases before with
      | nil =>
        cases hsplit
        split <;> simp
      | cons k' before =>
        cases hsplit
        rw [List.forall_mem_cons] at hbefore
        rw [if_neg (by simp [hbefore.1])]
        exact List.mem_cons_of_mem _ (ih.mpr ⟨before, after, rfl, hbefore.2⟩)

/-- The names of the calls that a function makes. -/
def FunctionDef.calls (f : FunctionDef) : List String := Node.callsAll (Node.live f.body)

namespace Run

/-! ## functions that are called -/

/-- The first function calls the second: a name that it calls stands for it, and not for a
function of the environment.  What stands inside a node of a foreign form does not count: such
a node is refused before any of its parts is looked at, so no call in it is ever made, and a
function that comes to one gives no value whatever its height. -/
def Calls (p : Program) (env : Bindings) (f g : FunctionDef) : Prop :=
  ∃ name ∈ f.calls, callee? p env name = some (.user g)

theorem Calls.mem_functions {p : Program} {env : Bindings} {f g : FunctionDef}
    (h : Calls p env f g) : g ∈ p.functions := by
  obtain ⟨name, _, hcallee⟩ := h
  exact mem_of_callee? hcallee

/-- The number of functions in the longest chain of calls that begins with a function. -/
noncomputable def height (p : Program) (env : Bindings) (f : FunctionDef) : ℕ∞ :=
  ⨆ (l : List FunctionDef) (_ : (f :: l).IsChain (Calls p env)), ((l.length + 1 : ℕ) : ℕ∞)

section Height

variable {p : Program} {env : Bindings} {f g : FunctionDef}

theorem le_height {l : List FunctionDef} (h : (f :: l).IsChain (Calls p env)) :
    ((l.length + 1 : ℕ) : ℕ∞) ≤ height p env f := le_iSup₂_of_le l h le_rfl

theorem lt_height_iff {k : ℕ∞} :
    k < height p env f ↔ ∃ l, (f :: l).IsChain (Calls p env) ∧ k < ((l.length + 1 : ℕ) : ℕ∞) := by
  simp only [height, lt_iSup_iff, exists_prop]

theorem cast_length_cons (g : FunctionDef) (l : List FunctionDef) :
    (((g :: l).length + 1 : ℕ) : ℕ∞) = 1 + ((l.length + 1 : ℕ) : ℕ∞) := by
  rw [List.length_cons, Nat.cast_add_one, add_comm]

theorem one_add_height_le (h : Calls p env f g) : 1 + height p env g ≤ height p env f := by
  rw [height, ENat.add_biSup' ⟨[], .singleton g⟩]
  refine iSup₂_le fun l hl => ?_
  rw [← cast_length_cons g]
  exact le_height (hl.cons_cons h)

/-- A function is one higher than the highest that it calls. -/
theorem height_eq (p : Program) (env : Bindings) (f : FunctionDef) :
    height p env f = 1 + ⨆ (g : FunctionDef) (_ : Calls p env f g), height p env g := by
  apply le_antisymm
  · refine iSup₂_le fun l hl => ?_
    cases l with
    | nil => exact le_self_add
    | cons g l =>
      obtain ⟨hcalls, hrest⟩ := List.isChain_cons_cons.mp hl
      calc (((g :: l).length + 1 : ℕ) : ℕ∞)
        _ = 1 + ((l.length + 1 : ℕ) : ℕ∞) := cast_length_cons g l
        _ ≤ 1 + height p env g := by gcongr; exact le_height hrest
        _ ≤ _ := by gcongr; exact le_iSup₂_of_le g hcalls le_rfl
  · -- addition goes into a supremum only if something is called at all
    by_cases hcalls : ∃ g, Calls p env f g
    · rw [ENat.add_biSup' hcalls]
      exact iSup₂_le fun g hg => one_add_height_le hg
    · have hnone : ∀ g, ¬ Calls p env f g := fun g hg => hcalls ⟨g, hg⟩
      simpa [hnone] using le_height (.singleton f : [f].IsChain (Calls p env))

theorem height_le_of_reflTransGen (h : Relation.ReflTransGen (Calls p env) f g) :
    height p env g ≤ height p env f := by
  induction h with
  | refl => exact le_rfl
  | tail _ hcalls ih => exact (le_add_self.trans (one_add_height_le hcalls)).trans ih

theorem one_add_height_le_of_transGen (h : Relation.TransGen (Calls p env) f g) :
    1 + height p env g ≤ height p env f := by
  obtain ⟨k, hcalls, hrest⟩ := Relation.TransGen.head'_iff.mp h
  have hle := height_le_of_reflTransGen hrest
  calc 1 + height p env g
    _ ≤ 1 + height p env k := by gcongr
    _ ≤ height p env f := one_add_height_le hcalls

theorem subset_functions_of_chain {l : List FunctionDef} (h : (f :: l).IsChain (Calls p env)) :
    l ⊆ p.functions := by
  induction l generalizing f with
  | nil => exact List.nil_subset _
  | cons g l ih =>
    obtain ⟨hcalls, hrest⟩ := List.isChain_cons_cons.mp h
    exact List.cons_subset.mpr ⟨hcalls.mem_functions, ih hrest⟩

/-- A chain of calls longer than the program comes by one of its functions twice. -/
theorem exists_cycle_of_chain {l : List FunctionDef} (h : (f :: l).IsChain (Calls p env))
    (hlong : p.functions.length < l.length) :
    ∃ g, Relation.ReflTransGen (Calls p env) f g ∧ Relation.TransGen (Calls p env) g g := by
  have hpairs : (f :: l).Pairwise (Relation.TransGen (Calls p env)) :=
    List.isChain_iff_pairwise.mp (h.imp fun _ _ => Relation.TransGen.single)
  have hrepeats : ¬ l.Nodup := fun hnodup => by
    have hle := (List.subperm_of_subset hnodup (subset_functions_of_chain h)).length_le
    omega
  obtain ⟨g, hg⟩ := List.exists_duplicate_iff_not_nodup.mpr hrepeats
  rw [List.pairwise_cons] at hpairs
  have htwice := hpairs.2.sublist (List.duplicate_iff_sublist.mp hg)
  exact ⟨g, (hpairs.1 g hg.mem).to_reflTransGen, by simpa using htwice⟩

/-- A function is infinitely high just if it leads into a cycle of calls. -/
theorem height_eq_top_iff :
    height p env f = ⊤ ↔
      ∃ g, Relation.ReflTransGen (Calls p env) f g ∧ Relation.TransGen (Calls p env) g g := by
  constructor
  · intro htop
    have hlong : ((p.functions.length + 1 : ℕ) : ℕ∞) < height p env f := by
      rw [htop]
      exact ENat.natCast_lt_top _
    obtain ⟨l, hchain, hlt⟩ := lt_height_iff.mp hlong
    rw [Nat.cast_lt] at hlt
    exact exists_cycle_of_chain hchain (by omega)
  · rintro ⟨g, hreaches, hcycle⟩
    have htop : height p env g = ⊤ := by
      by_contra hfinite
      have hle := one_add_height_le_of_transGen hcycle
      lift height p env g to ℕ using hfinite with k
      norm_cast at hle
      omega
    exact top_le_iff.mp (htop ▸ height_le_of_reflTransGen hreaches)

end Height

end Run

end LetCall
