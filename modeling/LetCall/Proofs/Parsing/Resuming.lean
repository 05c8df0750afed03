import LetCall.Proofs.Parsing.Acceptance

/-!
# LetCall.Proofs.Parsing.Resuming

Where a program is taken up again after a bad import.  The tokens behind the word are passed over
up to the next boundary, and from there the parser goes on with imports, then lets, then functions.
What comes of it depends on the boundary.  Before an import or a function the rest is read as if
it stood alone.  A semicolon, however, is not passed over with the import that it ends, and no
part of a program begins with one: so nothing of the rest is read.

Main statement: `import_recovery_law`.
-/

namespace LetCall

open Grammar

/-! ## bad imports -/

/-- An import that is not a name before a semicolon fails, and no token that ends it is used up. -/
theorem Reader.exists_importDirective_error {word : Token} {bad after : List Token}
    (hword : word.kind = .importWord) (hsemi : ∀ t ∈ bad, t.kind ≠ .semi)
    (hident : leads [.ident] after = false)
    (hflaw : ∀ t, bad = [t] → t.kind = .ident ∧ t.text ≠ "" → leads [.semi] after = false)
    (pos : Nat) :
    ∃ e passed left, bad = passed ++ left ∧
      importDirective (.before (word :: (bad ++ after)) pos) =
        .error (.syntaxError e) (.before (left ++ after) (pos + 1 + passed.length)) := by
  have hfirst : ∀ {ts : List Token}, leads [.ident] ts = false →
      importDirective (.before (word :: ts) pos) =
        .error (.syntaxError (missing .ident ts)) (.before ts (pos + 1)) := by
    intro ts hts
    refine within_of_syntaxError _ ?_
    rw [bind_of_ok (expect_before hword _ pos)]
    exact bind_of_error (bind_of_error (expect_before_of_not_leads hts _))
  cases bad with
  | nil => exact ⟨_, [], [], rfl, hfirst hident⟩
  | cons t bad =>
    by_cases hkind : t.kind = .ident
    · by_cases hname : t.text = ""
      · refine ⟨⟨.emptyModuleName, some t⟩, [t], bad, rfl, within_of_syntaxError _ ?_⟩
        rw [bind_of_ok (expect_before hword _ pos)]
        exact bind_of_error (expectName_before_of_empty hkind hname _ _ _)
      · have hend : leads [.semi] (bad ++ after) = false := by
          cases bad with
          | nil => exact hflaw t rfl ⟨hkind, hname⟩
          | cons u bad => simpa using hsemi u (by simp)
        refine ⟨missing .semi (bad ++ after), [t], bad, rfl, within_of_syntaxError _ ?_⟩
        rw [bind_of_ok (expect_before hword _ pos), List.cons_append,
          bind_of_ok (expectName_before ⟨hkind, hname⟩ _ _ _)]
        exact bind_of_error (expect_before_of_not_leads hend _)
    · exact ⟨_, [], t :: bad, rfl, hfirst (by simpa using hkind)⟩

namespace Parsing

variable {word : Token} {bad after : List Token} {limit : Nat} {p q : Parser}

/-- A report below the limit is taken. -/
theorem report_of_lt {r : Report} (hlimit : p.reports.length + 1 < limit) :
    report limit r p = .ok () (noted p r) :=
  (report_eq limit r p).trans (if_neg (Nat.not_le_of_lt hlimit))

/-- The next boundary, or the end, comes behind tokens that are no boundaries. -/
theorem takeWhile_passedOver (hbad : ∀ t ∈ bad, t.kind ∉ Reader.boundaries)
    (hafter : after = [] ∨ leads Reader.boundaries after = true) :
    (bad ++ after).takeWhile passedOver = bad := by
  have hover : ∀ t ∈ bad, passedOver t = true := by
    intro t ht
    simpa [passedOver] using hbad t ht
  have hstop : after.takeWhile passedOver = [] := by
    rcases hafter with rfl | hlead
    · rfl
    · cases after with
      | nil => rfl
      | cons t after =>
        exact List.takeWhile_cons_of_neg (by simpa [passedOver] using hlead)
  rw [List.takeWhile_append_of_pos hover, hstop, List.append_nil]

/-- The turn of the loop over imports at a bad one: it is reported, and the next boundary is
where reading is taken up again. -/
theorem exists_attempt_import (hword : word.kind = .importWord)
    (hbad : ∀ t ∈ bad, t.kind ∉ Reader.boundaries)
    (hafter : after = [] ∨ leads Reader.boundaries after = true)
    (hflaw : ∀ t, bad = [t] → t.kind = .ident ∧ t.text ≠ "" → leads [.semi] after = false)
    (hp : Before (word :: (bad ++ after)) p) (hlimit : p.reports.length + 1 < limit) :
    ∃ e q, attempt limit (read Reader.importDirective) p = .ok none q ∧ Before after q ∧
      q.reports = p.reports ++ [.nested e] := by
  have hsemi : ∀ t ∈ bad, t.kind ≠ .semi := by
    intro t ht hkind
    exact hbad t ht (by simp [hkind, Reader.boundaries])
  have hident : leads [.ident] after = false := by
    rcases hafter with rfl | hlead
    · rfl
    · exact leads_eq_false_of_disjoint (by decide) hlead
  obtain ⟨e, passed, left, rfl, herror⟩ :=
    Reader.exists_importDirective_error hword hsemi hident hflaw p.cursor.pos
  rw [← hp.cursor_eq] at herror
  let failed : Parser :=
    { p with cursor := .before (left ++ after) (p.cursor.pos + 1 + passed.length) }
  have hread : read Reader.importDirective p = .error (.failure (.syntaxError e)) failed :=
    read_of_syntaxError herror
  have hfailed : Before (left ++ after) (noted failed (.nested e)) := rfl
  obtain ⟨q, hsync, hadvance, hreports, _⟩ := exists_synchronize hfailed
  refine ⟨e, q, ?_, ?_, hreports⟩
  · have hreport : report limit (.nested e) failed = .ok () _ := report_of_lt hlimit
    rw [attempt_of_syntaxError hread, bind_of_ok hreport, bind_of_ok hsync]
    rfl
  · have hleft : ∀ t ∈ left, t.kind ∉ Reader.boundaries :=
      fun t ht => hbad t (List.mem_append_right passed ht)
    rw [takeWhile_passedOver hleft hafter] at hadvance
    obtain ⟨rest, hrest, hq⟩ := hadvance.exists_before hfailed
    rwa [List.append_cancel_left hrest]

/-! ## the sections of a program -/

/-- A program is read section by section. -/
theorem program_of_sections {imports : List String} {lets : List Node}
    {functions : List FunctionDef} {q₁ q₂ q₃ : Parser} (hlead : leads [.version] after = false)
    (hp : Before after p)
    (himports : parts limit (starts [.importWord]) (read Reader.importDirective) p = .ok imports q₁)
    (hlets : parts limit (starts [.letWord]) (read Reader.letStatement) q₁ = .ok lets q₂)
    (hfunctions : parts limit (starts [.int, .void]) (function limit) q₂ = .ok functions q₃)
    (hending : ending limit q₃ = .ok () q) :
    program limit p = .ok { imports := some imports, functions, statements := lets } q := by
  have hversion : leadingVersion limit p = .ok none p := by
    rw [leadingVersion, bind_of_ok (starts_before _ hp), hlead]
    rfl
  have hpreamble : preamble limit p = .ok (none, imports, lets) q₂ := by
    rw [preamble, bind_of_ok hversion, bind_of_ok himports, bind_of_ok hlets]
    rfl
  rw [program, bind_of_ok hpreamble]
  show (parts limit (starts [.int, .void]) (function limit) >>= _ : Parsing _) _ = _
  rw [bind_of_ok hfunctions, bind_of_ok hending]
  rfl

/-- A bad import leaves no trace in the imports of a program. -/
theorem imports_of_attempt {imports : List String} {q₁ : Parser}
    (hlead : leads [.importWord] after = true) (hp : Before after p)
    (hturn : attempt limit (read Reader.importDirective) p = .ok none q)
    (hrest : parts limit (starts [.importWord]) (read Reader.importDirective) q = .ok imports q₁) :
    parts limit (starts [.importWord]) (read Reader.importDirective) p = .ok imports q₁ := by
  rw [loop_imports.parts_of_more hp hlead, bind_of_ok hturn, bind_of_ok hrest]
  rfl

/-- No section of a program begins with a semicolon: it is reported, and nothing is read. -/
theorem program_of_semi {semi : Token} {rest : List Token} (hsemi : semi.kind = .semi)
    (hlead : leads [.importWord] after = true) (hp : Before after p)
    (hturn : attempt limit (read Reader.importDirective) p = .ok none q)
    (hq : Before (semi :: rest) q) (hlimit : q.reports.length + 1 < limit) :
    program limit p = .ok {} (noted q (.unexpectedToken semi)) := by
  have hno : ∀ kinds, Kind.semi ∉ kinds → leads kinds (semi :: rest) = false := by
    intro kinds h
    simpa [hsemi] using h
  have himports := imports_of_attempt hlead hp hturn
    (loop_imports.parts_of_not_more hq (hno _ (by decide)))
  exact program_of_sections (leads_eq_false_of_disjoint (by decide) hlead) hp himports
    (loop_lets.parts_of_not_more hq (hno _ (by decide)))
    (loop_functions.parts_of_not_more hq (hno _ (by decide)))
    ((ending_of_cons hq limit).trans (report_of_lt hlimit))

/-- The tokens of a derivation without a version are read behind a bad import as they are read
alone. -/
theorem program_of_derived {is : List Import} {ls : List Let} {fs : List Function}
    (hlead : leads [.importWord] after = true) (hp : Before after p)
    (hturn : attempt limit (read Reader.importDirective) p = .ok none q)
    (hq : Before (Grammar.Program.mk none is ls fs).tokens q) :
    ∃ q', program limit p = .ok (Grammar.Program.mk none is ls fs).parsed q' ∧
      q'.reports = q.reports := by
  have himports := imports_derived limit is (leads_lets (by decide) ls fs) hq
  have hfollow : ∀ {kinds : List Kind}, (∀ k ∈ [Kind.int, .void], k ∉ kinds) →
      leads kinds (fs.flatMap Function.tokens) = false := fun h => leads_functions h fs
  exact ⟨_, program_of_sections (leads_eq_false_of_disjoint (by decide) hlead) hp
    (imports_of_attempt hlead hp hturn himports)
    (lets_derived limit ls (hfollow (by decide)) (hfollow (by decide)) (before_past ..))
    (functions_derived limit fs (before_past ..)) (ending_of_nil (before_past ..) limit), rfl⟩

/-- A program that begins with no version directive has none. -/
theorem version_of_leads {d : Grammar.Program} (h : leads [.version] d.tokens = false) :
    d.version = none := by
  obtain ⟨v, is, ls, fs⟩ := d
  cases v with
  | none => rfl
  | some v =>
    have hlead := Version.leads_tokens [.version] v (is.flatMap Import.tokens ++
      (ls.flatMap Let.tokens ++ fs.flatMap Function.tokens))
    cases h.symm.trans hlead

/-! ## whole programs -/

section Recovery

variable (hword : word.kind = .importWord) (hbad : ∀ t ∈ bad, t.kind ∉ Reader.boundaries)
  (hlimit : 2 < limit)

include hword hbad hlimit

/-- The semicolon behind a bad import is where reading is taken up again and where it ends. -/
theorem exists_parse_of_semi {semi : Token} {rest : List Token} (hsemi : semi.kind = .semi)
    (hname : ¬ ∃ t, bad = [t] ∧ t.kind = .ident ∧ t.text ≠ "") :
    ∃ e q, parse limit (.ofTokens (word :: (bad ++ semi :: rest))) = .ok (some {}) q ∧
      q.reports = [.nested e, .unexpectedToken semi] := by
  have hlead : leads [.importWord] (word :: (bad ++ semi :: rest)) = true := by simp [hword]
  have hafter : leads Reader.boundaries (semi :: rest) = true := by
    simp [hsemi, Reader.boundaries]
  obtain ⟨e, q, hturn, hq, hreports⟩ := exists_attempt_import hword hbad (.inr hafter)
    (fun t ht hident => (hname ⟨t, ht, hident⟩).elim) (before_ofTokens _)
    (Nat.lt_of_succ_lt hlimit)
  have hone : q.reports = [.nested e] := hreports
  have hprogram := program_of_semi hsemi hlead (before_ofTokens _) hturn hq
    (by rw [hone]; exact hlimit)
  exact ⟨e, _, parse_of_ok hprogram, by rw [noted, hone]; rfl⟩

/-- The import or function behind a bad import is where the rest of the program is read from. -/
theorem exists_parse_of_accepted {rest : List Token} {prog : LetCall.Program} {q₀ : Parser}
    (hrest : rest = [] ∨ leads [.importWord, .int, .void] rest = true)
    (hparse : parse limit (.ofTokens rest) = .ok (some prog) q₀) (hnone : q₀.reports = []) :
    ∃ e q, parse limit (.ofTokens (word :: (bad ++ rest))) = .ok (some prog) q ∧
      q.reports = [.nested e] := by
  have hlead : leads [.importWord] (word :: (bad ++ rest)) = true := by simp [hword]
  have hno : ∀ {kinds : List Kind}, (∀ k ∈ [Kind.importWord, .int, .void], k ∉ kinds) →
      leads kinds rest = false := by
    intro kinds hdisj
    rcases hrest with rfl | hpart
    · rfl
    · exact leads_eq_false_of_disjoint hdisj hpart
  have hafter : rest = [] ∨ leads Reader.boundaries rest = true :=
    hrest.imp_right (leads_mono (by decide))
  obtain ⟨e, q, hturn, hq, hreports⟩ := exists_attempt_import hword hbad hafter
    (fun _ _ _ => hno (by decide)) (before_ofTokens _) (Nat.lt_of_succ_lt hlimit)
  -- what is accepted alone is derived, and a derivation is read from every state
  obtain ⟨_, hprog, hprogram⟩ := isProgram_of_parse hparse
  rw [hnone] at hprogram
  obtain ⟨⟨v, is, ls, fs⟩, rfl, rfl⟩ := hprogram.exists_derivation
  cases hprog
  obtain rfl : v = none := version_of_leads (hno (by decide))
  obtain ⟨q', hread, hreports'⟩ := program_of_derived hlead (before_ofTokens _) hturn hq
  exact ⟨e, q', parse_of_ok hread, hreports'.trans hreports⟩

end Recovery

/-- **Recovery from a bad import.**  Take the word of an import and behind it tokens among which
there is no boundary.  If a semicolon comes next, and the tokens between are not a single name,
then parsing ends with two reports, one on the import and one on the semicolon, and with an empty
program, whatever follows.  If instead an import, a function or the end comes next, and what is
left can be parsed alone without a report, then parsing ends with one report and with the program
that is left. -/
theorem import_recovery_law {word : Token} {bad : List Token} {limit : Nat}
    (hword : word.kind = .importWord) (hbad : ∀ t ∈ bad, t.kind ∉ Reader.boundaries)
    (hlimit : 2 < limit) :
    (∀ semi rest, semi.kind = .semi →
      (¬ ∃ t, bad = [t] ∧ t.kind = .ident ∧ t.text ≠ "") →
      ∃ e q, parse limit (.ofTokens (word :: (bad ++ semi :: rest))) = .ok (some {}) q ∧
        q.reports = [.nested e, .unexpectedToken semi]) ∧
    ∀ rest prog q₀, rest = [] ∨ leads [.importWord, .int, .void] rest = true →
      parse limit (.ofTokens rest) = .ok (some prog) q₀ → q₀.reports = [] →
      ∃ e q, parse limit (.ofTokens (word :: (bad ++ rest))) = .ok (some prog) q ∧
        q.reports = [.nested e] :=
  ⟨fun _ _ hsemi hname => exists_parse_of_semi hword hbad hlimit hsemi hname,
    fun _ _ _ hrest hparse hnone =>
      exists_parse_of_accepted hword hbad hlimit hrest hparse hnone⟩

/-- An import of a number. -/
def numberImport : Token × Token := (⟨.importWord, "import", 1, 1⟩, ⟨.number, "7", 1, 8⟩)

/-- A good import, and before it the semicolon that ends another one. -/
def nextImport : Token × List Token :=
  (⟨.semi, ";", 1, 9⟩,
    [⟨.importWord, "import", 2, 1⟩, ⟨.ident, "math", 2, 8⟩, ⟨.semi, ";", 2, 12⟩])

/-- Behind a bad import and its semicolon a good import is lost, and two errors are reported. -/
theorem good_import_lost :
    let word := numberImport.1
    let bad := [numberImport.2]
    let semi := nextImport.1
    let rest := nextImport.2
    (∃ q, parse reportLimit (.ofTokens rest) = .ok (some { imports := some ["math"] }) q ∧
      q.reports = []) ∧
    ∃ q, parse reportLimit (.ofTokens (word :: (bad ++ semi :: rest))) = .ok (some {}) q ∧
      q.reports.length = 2 :=
  ⟨⟨_, rfl, rfl⟩, ⟨_, rfl, rfl⟩⟩

/-- Without the semicolon it is not lost. -/
theorem good_import_kept :
    let word := numberImport.1
    let bad := [numberImport.2]
    let semi := nextImport.1
    let rest := nextImport.2
    word.kind = .importWord ∧ (∀ t ∈ bad, t.kind ∉ Reader.boundaries) ∧
    (∃ e q, parse reportLimit (.ofTokens (word :: (bad ++ rest))) =
      .ok (some { imports := some ["math"] }) q ∧ q.reports = [.nested e]) ∧
    ∃ e q, parse reportLimit (.ofTokens (word :: (bad ++ semi :: rest))) = .ok (some {}) q ∧
      q.reports = [.nested e, .unexpectedToken semi] := by
  intro word bad semi rest
  have hbad : ∀ t ∈ bad, t.kind ∉ Reader.boundaries := by
    simp [bad, numberImport, Reader.boundaries]
  have hname : ¬ ∃ t, bad = [t] ∧ t.kind = .ident ∧ t.text ≠ "" := by
    rintro ⟨t, ht, hkind, _⟩
    obtain rfl : numberImport.2 = t := List.singleton_inj.mp ht
    cases hkind
  have hparse : parse reportLimit (.ofTokens rest) =
      .ok (some { imports := some ["math"] }) ⟨⟨[], 3⟩, [], false⟩ := rfl
  obtain ⟨hlost, hkept⟩ := @import_recovery_law word bad reportLimit rfl hbad (by decide)
  exact ⟨rfl, hbad, hkept rest _ _ (.inr rfl) hparse rfl, hlost semi rest rfl hname⟩

end Parsing

end LetCall
