import LetCall.Proofs.Parsing
import Mathlib.Logic.Relation

/-!
# LetCall.Proofs.Parsing.Loops

The loops of a parser before well-formed tokens.  Between two states a parser has read
some tokens and reported some errors (`Advance`); the parts that a loop has found, and the
gaps between them where it had to take up reading again, are told by `Salvaged`.

Main statements: `Loop.parts_of_more`, the equation of a loop without its bound on the
turns; `Loop.parts_runs`, what a loop has found where it ends, and how it has come to a
turn that stalls; and `Loop.stalls_of_trace`, a loop stalls if it can come to such a turn.
-/

namespace LetCall.Parsing

open Grammar Relation

variable {α β : Type}

/-! ## before tokens -/

/-- The parser stands before the tokens `ts`. -/
def Before (ts : List Token) (p : Parser) : Prop := p.cursor.rest = ts.map .token

/-- From `p` to `q` a parser has read the tokens `used` and reported `n` errors. -/
structure Advance (used : List Token) (n : Nat) (p q : Parser) : Prop where
  rest : p.cursor.rest = used.map .token ++ q.cursor.rest
  pos : q.cursor.pos = p.cursor.pos + used.length
  reports : q.reports.length = p.reports.length + n

section Advance

variable {ts used used' : List Token} {n n' : Nat} {p q r : Parser}

theorem Before.cursor_eq (hp : Before ts p) : p.cursor = .before ts p.cursor.pos := by
  rw [Cursor.before, ← hp]

theorem Before.length_rest (hp : Before ts p) : p.cursor.rest.length = ts.length := by
  rw [hp, List.length_map]

theorem map_token_inj {ts ts' : List Token} (h : ts.map Item.token = ts'.map Item.token) :
    ts = ts' :=
  (List.map_inj_right fun _ _ h => by cases h; rfl).mp h

theorem Before.unique {ts' : List Token} (hp : Before ts p) (hp' : Before ts' p) : ts = ts' :=
  map_token_inj (hp.symm.trans hp')

theorem Advance.refl (p : Parser) : Advance [] 0 p p := ⟨rfl, rfl, rfl⟩

theorem Advance.trans (h : Advance used n p q) (h' : Advance used' n' q r) :
    Advance (used ++ used') (n + n') p r where
  rest := by rw [h.rest, h'.rest, List.map_append, List.append_assoc]
  pos := by rw [h'.pos, h.pos, List.length_append, Nat.add_assoc]
  reports := by rw [h'.reports, h.reports, Nat.add_assoc]

/-- Reading some tokens, and nothing else. -/
theorem Before.advance {rest : List Token} (hp : Before (used ++ rest) p) :
    Advance used 0 p { p with cursor := .before rest (p.cursor.pos + used.length) } :=
  ⟨hp.trans (List.map_append ..), rfl, rfl⟩

/-- The tokens that a parser has read are the first of those it stood before. -/
theorem Advance.exists_before (h : Advance used n p q) (hp : Before ts p) :
    ∃ rest, ts = used ++ rest ∧ Before rest q := by
  obtain ⟨us, rest, hts, hus, hrest⟩ := List.map_eq_append_iff.mp (hp.symm.trans h.rest)
  obtain rfl := map_token_inj hus
  exact ⟨rest, hts, hrest.symm⟩

/-- What a parser has read is known from where it starts and ends. -/
theorem Advance.unique (h : Advance used n p q) (h' : Advance used' n' p q) : used = used' :=
  map_token_inj (List.append_cancel_right (h.rest.symm.trans h'.rest))

/-- A turn that uses up a token or reports an error, as the limit allows, leaves fewer
turns. -/
theorem Advance.turnsLeft_lt {limit : Nat} (h : Advance used n p q) (hl : Allows limit p q)
    (hprogress : used ≠ [] ∨ 0 < n) : q.turnsLeft limit < p.turnsLeft limit := by
  have hrest := congrArg List.length h.rest
  have hreports := h.reports
  rw [List.length_append, List.length_map] at hrest
  unfold Parser.turnsLeft
  unfold Allows at hl
  rcases hprogress with hused | hn
  · have hpos : 0 < used.length := List.length_pos_iff.mpr hused
    omega
  · omega

end Advance

/-! ## how steps end -/

/-- A step settles with a value so that `ok` holds of it and of the state, or for a syntax
error so that `err` holds of the state, or it stalls in a state of which `stuck` holds. -/
inductive Runs (x : Nat → Parsing α) (p : Parser) (ok : α → Parser → Prop)
    (err stuck : Parser → Prop) : Prop
  | settled {a : α} {q : Parser} (h : Settles x p (.ok a) q) (hq : ok a q)
  | failed {e : SyntaxError} {q : Parser} (h : Settles x p (.error e) q) (hq : err q)
  | stalled {s : Parser} {r : Report} (h : Stalls x p s r) (hs : stuck s)

namespace Runs

variable {x y : Nat → Parsing α} {f : Nat → α → Parsing β} {p : Parser}
  {ok : α → Parser → Prop} {err stuck : Parser → Prop}
  {ok' : β → Parser → Prop} {err' stuck' : Parser → Prop}

theorem bind (hx : Runs x p ok err stuck)
    (hf : ∀ a q, Settles x p (.ok a) q → ok a q →
      Runs (fun limit => f limit a) q ok' err' stuck')
    (herr : ∀ q, err q → err' q) (hstuck : ∀ s, stuck s → stuck' s) :
    Runs (fun limit => x limit >>= f limit) p ok' err' stuck' := by
  cases hx with
  | settled h hq =>
    cases hf _ _ h hq with
    | settled h' hq' => exact .settled (h.bind h') hq'
    | failed h' hq' => exact .failed (h.bind h') hq'
    | stalled h' hs' => exact .stalled (h.bind_stalls h') hs'
  | failed h hq => exact .failed h.bind_error (herr _ hq)
  | stalled h hs => exact .stalled h.bind (hstuck _ hs)

theorem mono {ok₂ : α → Parser → Prop} {err₂ stuck₂ : Parser → Prop}
    (hx : Runs x p ok err stuck) (hok : ∀ a q, ok a q → ok₂ a q) (herr : ∀ q, err q → err₂ q)
    (hstuck : ∀ s, stuck s → stuck₂ s) : Runs x p ok₂ err₂ stuck₂ := by
  cases hx with
  | settled h hq => exact .settled h (hok _ _ hq)
  | failed h hq => exact .failed h (herr _ hq)
  | stalled h hs => exact .stalled h (hstuck _ hs)

/-- What is known of a step holds where it ends with a value under some limit. -/
theorem of_ok (hx : Runs x p ok err stuck) {limit : Nat} {a : α} {q : Parser}
    (h : x limit p = .ok a q) : ok a q := by
  cases hx with
  | settled hs hq =>
    obtain ⟨hout, rfl, _⟩ := hs.eq_of_ok limit h
    cases hout
    exact hq
  | failed hs _ =>
    obtain ⟨hout, _⟩ := hs.eq_of_ok limit h
    cases hout
  | stalled hs _ =>
    obtain ⟨r, hr⟩ := hs.exists_abandoned limit
    cases hr.symm.trans h

theorem within (construct : Construct) (hx : Runs x p ok err stuck) :
    Runs (fun limit => Parsing.within construct (x limit)) p ok err stuck := by
  cases hx with
  | settled h hq => exact .settled (h.within construct) hq
  | failed h hq => exact .failed (h.within construct) hq
  | stalled h hs => exact .stalled (h.within construct) hs

/-- What a reader does, it does as a step of a parser, without a report. -/
theorem read {r : Reader α} {ts : List Token} {okRead : List Token → α → List Token → Prop}
    {errRead : List Token → Prop} (hr : Reader.Reads r ts okRead errRead) (hp : Before ts p) :
    Runs (fun _ => Parsing.read r) p
      (fun a q => ∃ used rest, Advance used 0 p q ∧ Before rest q ∧ okRead used a rest)
      (fun q => ∃ used, Advance used 0 p q ∧ errRead used) (fun _ => False) := by
  rcases hr p.cursor.pos with ⟨used, rest, a, hts, hread, hok⟩ | ⟨used, rest, e, hts, hread, herr⟩
  · rw [← hp.cursor_eq] at hread
    have hsettles : Settles (fun _ => Parsing.read r) p (.ok a) _ :=
      Settles.of_eq (read_of_ok hread) rfl
    exact .settled hsettles ⟨used, rest, (hts ▸ hp).advance, rfl, hok⟩
  · rw [← hp.cursor_eq] at hread
    have hsettles : Settles (fun _ => Parsing.read r) p (.error e) _ :=
      Settles.of_eq (read_of_syntaxError hread) rfl
    exact .failed hsettles ⟨used, (hts ▸ hp).advance, herr⟩

end Runs

/-! ## taking up reading again -/

/-- A token that is passed over on the way to the next boundary. -/
def passedOver (t : Token) : Bool := !Reader.boundaries.contains t.kind

theorem skipToBoundary_before (ts : List Token) (pos : Nat) :
    Reader.skipToBoundary (ts.map .token) pos =
      .ok () (.before (ts.dropWhile passedOver) (pos + (ts.takeWhile passedOver).length)) := by
  induction ts generalizing pos with
  | nil => rfl
  | cons t ts ih =>
    simp only [List.map_cons, Reader.skipToBoundary, Item.kind_token]
    by_cases h : Reader.boundaries.contains t.kind = true
    · have hover : passedOver t = false := by rw [passedOver, h]; rfl
      rw [if_pos h, List.takeWhile_cons_of_neg (by simp [hover]),
        List.dropWhile_cons_of_neg (by simp [hover])]
      rfl
    · have hover : passedOver t = true := by simpa [passedOver] using h
      rw [if_neg h, List.takeWhile_cons_of_pos hover, List.dropWhile_cons_of_pos hover, ih,
        List.length_cons, Nat.add_assoc, Nat.add_comm 1]

theorem exists_synchronize {ts : List Token} {p : Parser} (hp : Before ts p) :
    ∃ q, synchronize p = .ok () q ∧ Advance (ts.takeWhile passedOver) 0 p q ∧
      q.reports = p.reports ∧ q.panicking = false := by
  have hskip := skipToBoundary_before ts p.cursor.pos
  rw [← hp] at hskip
  refine ⟨{ p with panicking := false, cursor := .before (ts.dropWhile passedOver) _ },
    read_of_ok hskip, ⟨?_, rfl, rfl⟩, rfl, rfl⟩
  show p.cursor.rest =
    (ts.takeWhile passedOver).map .token ++ (ts.dropWhile passedOver).map .token
  rw [hp, ← List.map_append, List.takeWhile_append_dropWhile]

/-- A turn of a loop gives a part and ends behind it, or it fails and ends at the next
boundary after one report more. -/
theorem Runs.attempt {x : Nat → Parsing α} {p : Parser} {ok : α → Parser → Prop}
    {err stuck : Parser → Prop} (hx : Runs x p ok err stuck)
    (herr : ∀ q, err q → ∃ ts, Before ts q) :
    Runs (fun limit => Parsing.attempt limit (x limit)) p
      (fun found q => (∃ a, found = some a ∧ ok a q) ∨
        (found = none ∧ ∃ q₀ ts, err q₀ ∧ Before ts q₀ ∧
          Advance (ts.takeWhile passedOver) 1 q₀ q))
      (fun _ => False) stuck := by
  cases hx with
  | settled h hq => exact .settled h.attempt (.inl ⟨_, rfl, hq⟩)
  | @failed e q₀ h hq =>
    obtain ⟨ts, hts⟩ := herr _ hq
    obtain ⟨q, hsync, hadvance, hreports, _⟩ :=
      exists_synchronize (show Before ts (noted q₀ (.nested e)) from hts)
    have hnoted : Advance [] 1 q₀ (noted q₀ (.nested e)) := ⟨rfl, rfl, by simp [noted]⟩
    have hturn := hnoted.trans hadvance
    exact .settled (h.attempt_error hsync hreports) (.inr ⟨rfl, q₀, ts, hq, hts, hturn⟩)
  | stalled h hs => exact .stalled h.attempt hs

/-! ## loops -/

/-- What makes `more` and `part` into a loop: before tokens `more` is `goesOn`, which is
false at the end, and each turn of the loop uses up a token or reports an error, unless it
stalls. -/
structure Loop (more : Parsing Bool) (part : Nat → Parsing α) (goesOn : List Token → Bool) :
    Prop where
  more_eq : ∀ {ts p}, Before ts p → more p = .ok (goesOn ts) p
  nil : goesOn [] = false
  turn : ∀ {ts p}, Before ts p → goesOn ts = true →
    Runs (fun limit => attempt limit (part limit)) p
      (fun _ q => ∃ used n, Advance used n p q ∧ (used ≠ [] ∨ 0 < n))
      (fun _ => False) (fun _ => True)

/-- One turn of a loop. -/
def Turn (limit : Nat) (more : Parsing Bool) (part : Parsing α) (p q : Parser) : Prop :=
  more p = .ok true p ∧ ∃ found, attempt limit part p = .ok found q

namespace Loop

variable {more : Parsing Bool} {part : Nat → Parsing α} {goesOn : List Token → Bool}
  {ts : List Token} {p q : Parser} {limit : Nat}

/-- A turn that ends under one limit settles. -/
theorem settles_of_ok (hl : Loop more part goesOn) (hp : Before ts p) (hgo : goesOn ts = true)
    {found : Option α} (h : attempt limit (part limit) p = .ok found q) :
    Settles (fun limit => attempt limit (part limit)) p (.ok found) q ∧ Allows limit p q ∧
      ∃ used n, Advance used n p q ∧ (used ≠ [] ∨ 0 < n) := by
  cases hl.turn hp hgo with
  | settled hs hq =>
    obtain ⟨hout, rfl, hallows⟩ := hs.eq_of_ok limit h
    cases hout
    exact ⟨hs, hallows, hq⟩
  | failed _ hq => exact hq.elim
  | stalled hs _ =>
    obtain ⟨s, hs'⟩ := hs.exists_abandoned limit
    rw [hs'] at h
    cases h

theorem partsUpTo_of_not_more (hl : Loop more part goesOn) (hp : Before ts p)
    (hgo : goesOn ts = false) (n : Nat) : partsUpTo limit more (part limit) n p = .ok [] p := by
  cases n with
  | zero => rfl
  | succ n =>
    rw [partsUpTo, bind_of_ok (hl.more_eq hp), hgo]
    rfl

theorem partsUpTo_of_more (hl : Loop more part goesOn) (hp : Before ts p)
    (hgo : goesOn ts = true) (n : Nat) :
    partsUpTo limit more (part limit) (n + 1) p =
      (do let found ← attempt limit (part limit)
          return found.toList ++ (← partsUpTo limit more (part limit) n)) p := by
  rw [partsUpTo, bind_of_ok (hl.more_eq hp), hgo, if_pos rfl]

/-- A loop that goes on has a turn left. -/
theorem turnsLeft_pos (hl : Loop more part goesOn) (hp : Before ts p) (hgo : goesOn ts = true)
    (limit : Nat) : 0 < p.turnsLeft limit := by
  cases ts with
  | nil =>
    rw [hl.nil] at hgo
    cases hgo
  | cons t ts =>
    unfold Parser.turnsLeft
    rw [hp.length_rest, List.length_cons]
    omega

/-- Turns beyond those a parser can still take make no difference. -/
theorem partsUpTo_eq (hl : Loop more part goesOn) (hp : Before ts p) {n : Nat}
    (hn : p.turnsLeft limit ≤ n) :
    partsUpTo limit more (part limit) n p = parts limit more (part limit) p := by
  show _ = partsUpTo limit more (part limit) (p.turnsLeft limit) p
  -- both bounds go down by one with each turn, so the claim is about any two bounds
  suffices h : ∀ m, p.turnsLeft limit ≤ m →
      partsUpTo limit more (part limit) n p = partsUpTo limit more (part limit) m p from
    h _ (Nat.le_refl _)
  induction n generalizing p ts with
  | zero =>
    intro m _
    cases hgo : goesOn ts with
    | false => rw [hl.partsUpTo_of_not_more hp hgo, hl.partsUpTo_of_not_more hp hgo]
    | true =>
      have hpos := hl.turnsLeft_pos hp hgo limit
      omega
  | succ n ih =>
    intro m hm
    cases hgo : goesOn ts with
    | false => rw [hl.partsUpTo_of_not_more hp hgo, hl.partsUpTo_of_not_more hp hgo]
    | true =>
      have hpos := hl.turnsLeft_pos hp hgo limit
      obtain ⟨m, rfl⟩ : ∃ k, m = k + 1 := ⟨m - 1, by omega⟩
      rw [hl.partsUpTo_of_more hp hgo, hl.partsUpTo_of_more hp hgo]
      refine bind_congr_of_ok rfl fun found q hturn => bind_congr_of_ok ?_ fun _ _ _ => rfl
      obtain ⟨_, hallows, used, k, hadvance, hprogress⟩ := hl.settles_of_ok hp hgo hturn
      have hlt := hadvance.turnsLeft_lt hallows hprogress
      obtain ⟨rest, _, hq⟩ := hadvance.exists_before hp
      exact ih hq (by omega) m (by omega)

/-- The equation of a loop that goes on. -/
theorem parts_of_more (hl : Loop more part goesOn) (hp : Before ts p) (hgo : goesOn ts = true) :
    parts limit more (part limit) p =
      (do let found ← attempt limit (part limit)
          return found.toList ++ (← parts limit more (part limit))) p := by
  rw [← hl.partsUpTo_eq hp (Nat.le_succ _), hl.partsUpTo_of_more hp hgo]
  refine bind_congr_of_ok rfl fun found q hturn => bind_congr_of_ok ?_ fun _ _ _ => rfl
  obtain ⟨_, hallows, used, k, hadvance, hprogress⟩ := hl.settles_of_ok hp hgo hturn
  obtain ⟨rest, _, hq⟩ := hadvance.exists_before hp
  exact hl.partsUpTo_eq hq (Nat.le_of_lt (hadvance.turnsLeft_lt hallows hprogress))

theorem parts_of_not_more (hl : Loop more part goesOn) (hp : Before ts p)
    (hgo : goesOn ts = false) : parts limit more (part limit) p = .ok [] p :=
  hl.partsUpTo_of_not_more hp hgo _

/-! ## whole runs of a loop -/

/-- If a turn of a loop settles and the loop settles from there on, so it does as a whole. -/
theorem settles_of_turn (hl : Loop more part goesOn) (hp : Before ts p) (hgo : goesOn ts = true)
    {found : Option α} {as : List α} {r : Parser}
    (hturn : Settles (fun limit => attempt limit (part limit)) p (.ok found) q)
    (hrest : Settles (fun limit => parts limit more (part limit)) q (.ok as) r) :
    Settles (fun limit => parts limit more (part limit)) p (.ok (found.toList ++ as)) r := by
  refine Settles.congr (fun _ => hl.parts_of_more hp hgo) (hturn.bind (hrest.bind ?_))
  exact Settles.of_eq rfl rfl

/-- If a turn of a loop settles and the loop stalls from there on, so it does as a whole. -/
theorem stalls_of_turn (hl : Loop more part goesOn) (hp : Before ts p) (hgo : goesOn ts = true)
    {found : Option α} {s : Parser} {r : Report}
    (hturn : Settles (fun limit => attempt limit (part limit)) p (.ok found) q)
    (hrest : Stalls (fun limit => parts limit more (part limit)) q s r) :
    Stalls (fun limit => parts limit more (part limit)) p s r :=
  Stalls.congr (fun _ => hl.parts_of_more hp hgo) (hturn.bind_stalls hrest.bind)

/-- A loop stalls if one of its turns does. -/
theorem stalls_of_attempt (hl : Loop more part goesOn) (hp : Before ts p) (hgo : goesOn ts = true)
    {s : Parser} {r : Report} (hturn : Stalls (fun limit => attempt limit (part limit)) p s r) :
    Stalls (fun limit => parts limit more (part limit)) p s r :=
  Stalls.congr (fun _ => hl.parts_of_more hp hgo) hturn.bind

end Loop

/-- What a turn of a loop has found: a part, of which `P` holds with the errors inside it
and its tokens, or a gap, which stands for one error at least. -/
def Turned (P : Nat → List Token → α → Prop) (n : Nat) (used : List Token) : Option α → Prop
  | some a => P n used a
  | none => 0 < n

/-- The parts that a loop has found, with the errors it has reported and all tokens it has
used up. -/
inductive Salvaged (P : Nat → List Token → α → Prop) : Nat → List Token → List α → Prop
  | nil : Salvaged P 0 [] []
  | turn {n m : Nat} {used used' : List Token} {found : Option α} {as : List α}
      (h : Turned P n used found) (hs : Salvaged P m used' as) :
      Salvaged P (n + m) (used ++ used') (found.toList ++ as)

/-- From `p` to `q` every reported error is paid for by a token of its own. -/
def Paid (p q : Parser) : Prop := ∃ used n, Advance used n p q ∧ n ≤ used.length

theorem Paid.refl (p : Parser) : Paid p p := ⟨[], 0, Advance.refl p, Nat.le_refl _⟩

theorem Paid.trans {p q r : Parser} (h : Paid p q) (h' : Paid q r) : Paid p r := by
  obtain ⟨used, n, hadvance, hn⟩ := h
  obtain ⟨used', n', hadvance', hn'⟩ := h'
  refine ⟨used ++ used', n + n', hadvance.trans hadvance', ?_⟩
  rw [List.length_append]
  omega

/-- A loop is run as long as its turns settle.  Either it ends, and tells what it has
salvaged, or its turns lead to a state from which it stalls. -/
theorem Loop.parts_runs {more : Parsing Bool} {part : Nat → Parsing α}
    {goesOn : List Token → Bool} (hl : Loop more part goesOn)
    {P : Nat → List Token → α → Prop} {Stuck : Parser → Parser → Prop}
    (hturn : ∀ {ts p}, Before ts p → goesOn ts = true →
      (∃ found q used n, Settles (fun limit => attempt limit (part limit)) p (.ok found) q ∧
        Advance used n p q ∧ used ≠ [] ∧ n ≤ used.length ∧ Turned P n used found) ∨
      ∃ s r, Stalls (fun limit => parts limit more (part limit)) p s r ∧ Stuck p s)
    {ts : List Token} {p : Parser} (hp : Before ts p) :
    Runs (fun limit => parts limit more (part limit)) p
      (fun as q => ∃ used n rest, Advance used n p q ∧ n ≤ used.length ∧ Salvaged P n used as ∧
        Before rest q ∧ goesOn rest = false)
      (fun _ => False)
      (fun s => ∃ q, Paid p q ∧ Stuck q s ∧ ∀ limit, s.reports.length < limit →
        ReflTransGen (Turn limit more (part limit)) p q) := by
  induction hlen : ts.length using Nat.strongRecOn generalizing ts p with
  | ind len ih =>
    subst hlen
    cases hgo : goesOn ts with
    | false =>
      have hend : Settles (fun limit => parts limit more (part limit)) p (.ok []) p :=
        Settles.congr (fun _ => hl.parts_of_not_more hp hgo) (Settles.of_eq rfl rfl)
      exact .settled hend ⟨[], 0, ts, Advance.refl p, Nat.le_refl _, .nil, hp, hgo⟩
    | true =>
      rcases hturn hp hgo with
        ⟨found, q, used, n, hsettles, hadvance, hused, hpaid, hfound⟩ | ⟨s, r, hstalls, hstuck⟩
      · obtain ⟨rest, rfl, hq⟩ := hadvance.exists_before hp
        have hpos : 0 < used.length := List.length_pos_iff.mpr hused
        have hshort : rest.length < (used ++ rest).length := by
          rw [List.length_append]
          omega
        cases ih rest.length hshort hq rfl with
        | settled h hpost =>
          obtain ⟨used', m, rest', hadvance', hpaid', hsalvaged, hrest', hgo'⟩ := hpost
          refine .settled (hl.settles_of_turn hp hgo hsettles h)
            ⟨used ++ used', n + m, rest', hadvance.trans hadvance', ?_, .turn hfound hsalvaged,
              hrest', hgo'⟩
          rw [List.length_append]
          omega
        | failed _ hpost => exact hpost.elim
        | stalled h hpost =>
          obtain ⟨q', hpaid', hstuck, htrace⟩ := hpost
          refine .stalled (hl.stalls_of_turn hp hgo hsettles h)
            ⟨q', Paid.trans ⟨used, n, hadvance, hpaid⟩ hpaid', hstuck, fun limit hlimit => ?_⟩
          have hallows : Allows limit p q := .inr (Nat.lt_of_le_of_lt h.grows hlimit)
          have hmore := hl.more_eq hp
          rw [hgo] at hmore
          exact ReflTransGen.head ⟨hmore, found, hsettles.ends hallows⟩ (htrace limit hlimit)
      · exact .stalled hstalls ⟨p, Paid.refl p, hstuck, fun _ _ => .refl⟩

end LetCall.Parsing
