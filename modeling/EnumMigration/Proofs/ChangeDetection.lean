import Mathlib.Tactic.TFAE
import EnumMigration.Proofs.ImportInsertion

/-!
# Changes are detected exactly

Whether a text was changed is reported by a comparison of texts, and how often
something was replaced by a counter.  The two agree, and both tell whether the
text at the beginning held a legacy token (`Table.change_detection`).

The counter is zero exactly for a text without legacy tokens, which then passes
through.  For the other direction it does not matter what was replaced, in which
order, or whether an import line came in: the result of either action holds no
legacy token, so it differs from a text that held one.
-/

namespace EnumMigration

theorem not_legacyFree_iff {entries : List PatternEntry} {text : List Char} :
    ¬ LegacyFree entries text ↔ ∃ entry ∈ entries, HoldsWhole entry.legacy.toList text := by
  simp only [LegacyFree, not_forall, not_not, exists_prop]

namespace Table

section Actions

variable (table : Table) (text : String)

/-! ## The counter -/

theorem transform_replacements_pos_iff :
    0 < (table.transform text).replacements ↔ ¬ LegacyFree table.entries text.toList := by
  rw [Nat.pos_iff_ne_zero, table.legacyFree_iff, ← replaceEach_eq_zero_iff]
  rfl

theorem migrate_replacements :
    (table.migrate text).replacements = (table.transform text).replacements := rfl

/-! ## The comparison -/

theorem transform_changed_iff :
    (table.transform text).changed = true ↔ (table.transform text).text ≠ text := by
  simp only [transform, bne_iff_ne, ne_eq, ← String.toList_inj, String.toList_ofList]

theorem migrate_changed_iff :
    (table.migrate text).changed = true ↔ (table.migrate text).text ≠ text := by
  simp only [migrate, bne_iff_ne, ne_eq, ← String.toList_inj, String.toList_ofList]

/-- The replacements of a text never cancel out. -/
theorem transform_text_ne_iff :
    (table.transform text).text ≠ text ↔ ¬ LegacyFree table.entries text.toList := by
  rw [not_iff_not]
  constructor
  · intro heq
    have hfree := table.legacyFree_transform text
    rwa [heq] at hfree
  · intro hfree
    rw [(table.transform_eq_self_iff text).mpr hfree]

/-- Neither do they together with the import line. -/
theorem migrate_text_ne_iff :
    (table.migrate text).text ≠ text ↔ ¬ LegacyFree table.entries text.toList := by
  rw [not_iff_not]
  constructor
  · intro heq
    have hfree := table.legacyFree_migrate text
    rwa [heq] at hfree
  · intro hfree
    rw [(table.migrate_eq_self_iff text).mpr hfree]

end Actions

/-! ## Both together -/

/-- **Changes are detected exactly.**  For a text and an accepted table it is the
same that the text holds a legacy token as a whole token, that either action
counts a replacement, that it reports a change, and that its result is another
text.  A text that gets the import line is among those that are changed, and a
text without legacy tokens comes back from both actions as it is. -/
theorem change_detection {entries : List PatternEntry} {importLine : String} {table : Table}
    (h : ofEntries entries importLine = .ok table) (text : String) :
    [∃ entry ∈ entries, HoldsWhole entry.legacy.toList text.toList,
      0 < (table.transform text).replacements,
      (table.transform text).changed = true,
      (table.transform text).text ≠ text,
      0 < (table.migrate text).replacements,
      (table.migrate text).changed = true,
      (table.migrate text).text ≠ text].TFAE ∧
    ((table.migrate text).importInserted = true → (table.migrate text).changed = true) ∧
    ((∀ entry ∈ entries, ¬ HoldsWhole entry.legacy.toList text.toList) →
      table.transform text = ⟨text, false, 0⟩ ∧ table.migrate text = ⟨text, false, 0, false⟩) := by
  obtain ⟨rfl, -⟩ := ofEntries_eq_ok_iff.mp h
  have hcount := table.transform_replacements_pos_iff text
  refine ⟨?_, ?_, ?_⟩
  · -- every item is compared with the first one
    tfae_have 2 ↔ 1 := hcount.trans not_legacyFree_iff
    tfae_have 4 ↔ 1 := (table.transform_text_ne_iff text).trans not_legacyFree_iff
    tfae_have 3 ↔ 4 := table.transform_changed_iff text
    tfae_have 5 ↔ 2 := by rw [table.migrate_replacements]
    tfae_have 7 ↔ 1 := (table.migrate_text_ne_iff text).trans not_legacyFree_iff
    tfae_have 6 ↔ 7 := table.migrate_changed_iff text
    tfae_finish
  · intro hinserted
    obtain ⟨hne, -⟩ := (table.importInserted_iff text).mp hinserted
    rw [table.migrate_changed_iff, table.migrate_text_ne_iff, ← hcount]
    exact Nat.pos_of_ne_zero hne
  · intro hfree
    exact ⟨(table.transform_eq_self_iff text).mpr hfree, (table.migrate_eq_self_iff text).mpr hfree⟩

theorem change_detection_import :
    ∃ table, ofEntries [⟨"A.B", "X"⟩] "import p;" = .ok table ∧
      (table.migrate "import q;\nA.B").importInserted = true ∧
      (table.migrate "import q;\nA.B").changed = true ∧
      (∃ entry ∈ [PatternEntry.mk "A.B" "X"],
        HoldsWhole entry.legacy.toList "import q;\nA.B".toList) ∧
      table.migrate "import q;\nA.Bx" = ⟨"import q;\nA.Bx", false, 0, false⟩ := by
  have hresult : (ofEntries [⟨"A.B", "X"⟩] "import p;").toOption.map
      (fun table => (table.migrate "import q;\nA.B").importInserted) = some true := by
    decide +kernel
  obtain ⟨table, h, hinserted⟩ := exists_ok_of_toOption_map hresult
  obtain ⟨htfae, himport, -⟩ := change_detection h "import q;\nA.B"
  have hchanged := himport hinserted
  refine ⟨table, h, hinserted, hchanged, (htfae.out 5 0).mp hchanged, ?_⟩
  refine ((change_detection h "import q;\nA.Bx").2.2 ?_).2
  have hlonger : ¬ HoldsWhole "A.B".toList "import q;\nA.Bx".toList :=
    ((Pattern.mk ⟨"A.B", "X"⟩ (by decide)).occursIn_iff _).not.mp (by decide)
  simpa using hlonger

end Table

end EnumMigration
