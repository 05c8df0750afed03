import LetCall.Library

/-!
# LetCall.Proofs.Library.Slices

Parts of texts.  The library brings both ends of a part into the text, one after the other and
the second not before the first.  Told by indices alone this is a slice: each end stands for a
place of the text, and the part is the characters between the two places.

Main statement: `substr` gives the characters between the places of its two indices, it never
fails on a text and integers, and the two parts on either side of an index make up the text
(`substr_slices`).
-/

namespace LetCall.Library

/-! ## characters by their indices -/

/-- The characters of a text whose indices are wanted, in order. -/
def charsAt (cs : List Char) (wanted : Nat → Bool) : List Char :=
  (cs.zipIdx.filter fun c => wanted c.2).map Prod.fst

/-- The place in a text of so many characters that an index stands for: a negative index counts
from the end, and no place is outside of the text. -/
def place (size : Nat) (k : Int) : Int := if 0 ≤ k then min size k else max 0 (size + k)

/-- The indices from one place up to another. -/
def between (first last : Int) (i : Nat) : Bool := decide (first ≤ i) && decide (i < last)

/-- Characters whose indices are counted from `k` on and lie between two bounds. -/
theorem filter_zipIdx_between (cs : List Char) (k first last : Nat) :
    ((cs.zipIdx k).filter fun c => between first last c.2).map Prod.fst =
      (cs.take (last - k)).drop (first - k) := by
  induction cs generalizing k with
  | nil => simp
  | cons c cs ih =>
    rw [List.zipIdx_cons, List.filter_cons]
    by_cases hlast : k < last
    · have hstep : last - k = last - (k + 1) + 1 := by omega
      rw [hstep, List.take_succ_cons]
      by_cases hfirst : first ≤ k
      · have hwanted : between first last k = true := by simp [between, hfirst, hlast]
        have hnone : first - k = 0 := by omega
        have hnone' : first - (k + 1) = 0 := by omega
        simp [hwanted, ih, hnone, hnone']
      · have hwanted : between first last k = false := by simp [between, hfirst]
        have hstep' : first - k = first - (k + 1) + 1 := by omega
        simp [hwanted, ih, hstep']
    · have hwanted : between first last k = false := by simp [between, hlast]
      have hnone : last - k = 0 := by omega
      have hnone' : last - (k + 1) = 0 := by omega
      simp [hwanted, ih, hnone, hnone']

/-- The characters between two bounds are a part of the text without a gap. -/
theorem charsAt_between (cs : List Char) (first last : Nat) :
    charsAt cs (between first last) = (cs.take last).drop first :=
  filter_zipIdx_between cs 0 first last

/-! ## the two ends of a part -/

theorem place_nonneg (size : Nat) (k : Int) : 0 ≤ place size k := by
  unfold place
  omega

/-- An index that is counted from the start and then brought into the text is its place. -/
theorem min_fromStart (size : Nat) (k : Int) : min (fromStart size k) size = place size k := by
  unfold fromStart place
  omega

/-- A place is inside of the text already. -/
theorem max_min_fromStart (size : Nat) (k : Int) :
    max 0 (min (fromStart size k) size) = place size k := by
  have hnonneg := place_nonneg size k
  rw [min_fromStart]
  omega

theorem slice_to_end (cs : List Char) (a : Int) :
    slice cs a none = charsAt cs (between (place cs.length a) cs.length) := by
  obtain ⟨first, hfirst⟩ := Int.eq_ofNat_of_zero_le (place_nonneg cs.length a)
  rw [slice, max_min_fromStart, hfirst, charsAt_between, List.take_length]
  rfl

/-- The second end is brought behind the first, and then there is nothing between them. -/
theorem slice_between (cs : List Char) (a b : Int) :
    slice cs a (some b) = charsAt cs (between (place cs.length a) (place cs.length b)) := by
  obtain ⟨first, hfirst⟩ := Int.eq_ofNat_of_zero_le (place_nonneg cs.length a)
  obtain ⟨last, hlast⟩ := Int.eq_ofNat_of_zero_le (place_nonneg cs.length b)
  have hwidth : (max (first : Int) last - first).toNat = last - first := by omega
  rw [slice, max_min_fromStart, min_fromStart, hfirst, hlast, charsAt_between, List.drop_take,
    ← hwidth]
  rfl

/-- What stands before a place and what stands from it on make up the text. -/
theorem charsAt_append (cs : List Char) (k : Int) :
    charsAt cs (between 0 (place cs.length k)) ++
      charsAt cs (between (place cs.length k) cs.length) = cs := by
  obtain ⟨mid, hmid⟩ := Int.eq_ofNat_of_zero_le (place_nonneg cs.length k)
  have hfront : charsAt cs (between 0 mid) = cs.take mid := charsAt_between cs 0 mid
  have hback : charsAt cs (between mid cs.length) = cs.drop mid := by
    rw [charsAt_between, List.take_length]
  rw [hmid, hfront, hback, List.take_append_drop]

/-! ## calls -/

/-- The text of the characters between two places. -/
def part (s : String) (first last : Int) : String :=
  String.ofList (charsAt s.toList (between first last))

theorem part_append (s : String) (k : Int) :
    part s 0 (place s.length k) ++ part s (place s.length k) s.length = s := by
  rw [part, part, ← String.ofList_append, ← String.length_toList, charsAt_append,
    String.ofList_toList]

/-- **Parts of texts are slices.**  From one index up to another, whatever their signs, sizes and
order, `substr` gives the characters between the places of the two; without a second index, those
from the place of the first on.  So it never fails on a text and integers, and the parts up to an
index and from it on make up the text. -/
theorem substr_slices (s : String) (w : World) :
    (∀ a b : Int, Builtin.substr.call [.str s, .int a, .int b] w =
      .ok (.str (part s (place s.length a) (place s.length b))) w) ∧
    (∀ a : Int, Builtin.substr.call [.str s, .int a] w =
      .ok (.str (part s (place s.length a) s.length)) w) ∧
    ∀ k : Int, ∃ front back, Builtin.substr.call [.str s, .int 0, .int k] w = .ok (.str front) w ∧
      Builtin.substr.call [.str s, .int k] w = .ok (.str back) w ∧ front ++ back = s := by
  have htwo : ∀ a b : Int, Builtin.substr.call [.str s, .int a, .int b] w =
      .ok (.str (part s (place s.length a) (place s.length b))) w := by
    intro a b
    rw [part, ← String.length_toList, ← slice_between]
    rfl
  have hone : ∀ a : Int, Builtin.substr.call [.str s, .int a] w =
      .ok (.str (part s (place s.length a) s.length)) w := by
    intro a
    rw [part, ← String.length_toList, ← slice_to_end]
    rfl
  have hzero : place s.length 0 = 0 := by
    unfold place
    omega
  refine ⟨htwo, hone, fun k => ⟨_, _, htwo 0 k, hone k, ?_⟩⟩
  rw [hzero, part_append]

end LetCall.Library
