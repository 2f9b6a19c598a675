import EnumMigration.Proofs.FixedPoint
import EnumMigration.Proofs.Splitting

/-!
# Where the import line goes

An anchor is said here by its parts (`AnchorLine`): the word `import`, blanks, a
name, a semicolon.  The recognizer takes as many blanks and as many characters
of the name as it can.  No blank can stand in a name, and neither can the
semicolon, so the parts of an anchor leave it no choice (`isAnchor_iff`).

The import line is added between lines, but whether it is there already is asked
of the text as a whole.  The two views meet in two facts: every line stands in
its text (`infix_intercalate_of_mem`), and a line without line feeds stays one line
(`List.splitOn_intercalate`).  From the first it follows that the import line stands in no
other line, and that a second insertion finds it; from the second that it can be
taken out again.
-/

namespace EnumMigration

/-! ## Anchors -/

/-- The parts of a line that starts with an import declaration. -/
structure Declaration (line blanks name rest : List Char) : Prop where
  line_eq : line = "import".toList ++ (blanks ++ (name ++ ';' :: rest))
  blanks_ne : blanks ≠ []
  blank : ∀ c ∈ blanks, isBlank c = true
  name_ne : name ≠ []
  named : ∀ c ∈ name, isWord c = true ∨ c = '.'

/-- A line that starts with an import declaration. -/
def AnchorLine (line : List Char) : Prop :=
  ∃ blanks name rest, Declaration line blanks name rest

/-- A run of characters is passed as a whole when what follows is none of
them. -/
theorem dropWhile_run {test : Char → Bool} {run : List Char} (hrun : ∀ c ∈ run, test c = true)
    {next : Char} (hnext : test next = false) (rest : List Char) :
    (run ++ next :: rest).dropWhile test = next :: rest := by
  rw [List.dropWhile_append_of_pos hrun, List.dropWhile_cons_of_neg (by simp [hnext])]

theorem takeWhile_ne_nil {test : Char → Bool} {text : List Char}
    (h : text.head?.any test = true) : text.takeWhile test ≠ [] := by
  cases text with
  | nil => cases h
  | cons c rest =>
      have hc : test c = true := h
      simp [hc]

theorem isNameChar_iff (c : Char) : isNameChar c = true ↔ isWord c = true ∨ c = '.' := by
  rw [isNameChar, Bool.or_eq_true, beq_iff_eq]

theorem isBlank_of_isNameChar {c : Char} (h : isNameChar c = true) : isBlank c = false := by
  rw [isNameChar_iff] at h
  rcases h with hword | rfl
  · by_contra hblank
    rw [Bool.not_eq_false] at hblank
    rw [isWord_of_isBlank hblank] at hword
    cases hword
  · decide

/-- The recognizer accepts exactly the import declarations. -/
theorem isAnchor_iff (line : List Char) : isAnchor line = true ↔ AnchorLine line := by
  constructor
  · intro h
    rw [isAnchor] at h
    split at h
    · cases h
    rename_i text hafter
    simp only [Bool.and_eq_true, beq_iff_eq] at h
    obtain ⟨⟨hblanks, hname⟩, hclosing⟩ := h
    obtain ⟨rest, hrest⟩ := List.head?_eq_some_iff.mp hclosing
    refine ⟨text.takeWhile isBlank, (text.dropWhile isBlank).takeWhile isNameChar, rest,
      ?_, takeWhile_ne_nil hblanks, ?_, takeWhile_ne_nil hname, ?_⟩
    · rw [← hrest, List.takeWhile_append_dropWhile, List.takeWhile_append_dropWhile]
      exact (List.isPrefixOf?_eq_some_iff_append_eq.mp hafter).symm
    · exact List.all_eq_true.mp List.all_takeWhile
    · intro c hc
      exact (isNameChar_iff c).mp (List.all_eq_true.mp List.all_takeWhile c hc)
  · rintro ⟨blanks, name, rest, rfl, hblanks, hblank, hname, hnamed⟩
    obtain ⟨b, moreBlanks, rfl⟩ := List.exists_cons_of_ne_nil hblanks
    obtain ⟨n, moreName, rfl⟩ := List.exists_cons_of_ne_nil hname
    have hnameChar : ∀ c ∈ n :: moreName, isNameChar c = true :=
      fun c hc => (isNameChar_iff c).mpr (hnamed c hc)
    have hn := hnameChar n List.mem_cons_self
    have hafterBlanks : (b :: moreBlanks ++ (n :: moreName ++ ';' :: rest)).dropWhile isBlank =
        n :: moreName ++ ';' :: rest :=
      dropWhile_run hblank (isBlank_of_isNameChar hn) _
    have hafterName : (n :: moreName ++ ';' :: rest).dropWhile isNameChar = ';' :: rest :=
      dropWhile_run hnameChar (by decide) rest
    rw [isAnchor, List.isPrefixOf?_eq_some_iff_append_eq.mpr rfl]
    simp only [hafterBlanks, hafterName]
    simp [hblank b List.mem_cons_self, hn]

/-! ## The insertion -/

theorem occursWithin_iff (part text : List Char) :
    occursWithin part text = true ↔ part <:+: text := by
  induction text with
  | nil => rw [occursWithin, List.isEmpty_iff, List.infix_nil]
  | cons c rest ih =>
      rw [occursWithin, Bool.or_eq_true, ih, List.isPrefixOf_iff_prefix, List.infix_cons_iff]

theorem insertAfterLast_eq_none_iff {α : Type} {test : α → Bool} {new : α} {list : List α} :
    insertAfterLast test new list = none ↔ ∀ a ∈ list, test a = false := by
  induction list with
  | nil => simp [insertAfterLast]
  | cons a rest ih =>
      rw [insertAfterLast, List.forall_mem_cons, ← ih]
      cases hrest : insertAfterLast test new rest with
      | some inserted => simp
      | none => simp

/-- A text with the import line directly behind its last anchor. -/
structure Insertion (importLine text result : List Char) (before : List (List Char))
    (anchor : List Char) (after : List (List Char)) : Prop where
  lines_eq : lines text = before ++ anchor :: after
  anchor_line : AnchorLine anchor
  last : ∀ line ∈ after, ¬ AnchorLine line
  result_eq : result = unlines (before ++ anchor :: importLine :: after)

theorem forall_isAnchor_eq_false_iff (pieces : List (List Char)) :
    (∀ line ∈ pieces, isAnchor line = false) ↔ ∀ line ∈ pieces, ¬ AnchorLine line := by
  simp only [← isAnchor_iff, Bool.not_eq_true]

/-- Nothing is added to a text that holds the import line or has no anchor. -/
theorem insertImport?_eq_none_iff {importLine text : List Char} :
    insertImport? importLine text = none ↔
      importLine <:+: text ∨ ∀ line ∈ lines text, ¬ AnchorLine line := by
  rw [insertImport?, ← occursWithin_iff, ← forall_isAnchor_eq_false_iff]
  by_cases hoccurs : occursWithin importLine text = true
  · rw [if_pos hoccurs]
    exact iff_of_true rfl (Or.inl hoccurs)
  · rw [if_neg hoccurs, Option.map_eq_none_iff, insertAfterLast_eq_none_iff]
    exact (or_iff_right hoccurs).symm

/-- In every other text the import line goes behind the last anchor. -/
theorem exists_insertion {importLine text result : List Char}
    (h : insertImport? importLine text = some result) :
    ¬ importLine <:+: text ∧
      ∃ before anchor after, Insertion importLine text result before anchor after := by
  rw [insertImport?] at h
  split at h
  · cases h
  rename_i hoccurs
  obtain ⟨inserted, hinserted, rfl⟩ := Option.map_eq_some_iff.mp h
  obtain ⟨before, anchor, after, hlines, rfl, hanchor, hafter⟩ := insertAfterLast_eq_some hinserted
  rw [occursWithin_iff] at hoccurs
  refine ⟨hoccurs, before, anchor, after, hlines, (isAnchor_iff anchor).mp hanchor, ?_, rfl⟩
  exact (forall_isAnchor_eq_false_iff after).mp (insertAfterLast_eq_none_iff.mp hafter)

/-- The text grows by the import line and a line feed. -/
theorem length_insertImport {importLine text result : List Char}
    (h : insertImport? importLine text = some result) :
    result.length = text.length + importLine.length + 1 := by
  rcases insertImport?_eq_some h with rfl | ⟨above, below, rfl, rfl⟩
  · simp only [List.length_append, List.length_cons]
    omega
  · simp only [List.length_append, List.length_cons]
    omega

namespace Insertion

variable {importLine text result anchor : List Char} {before after : List (List Char)}

/-- The new text holds the import line. -/
theorem importLine_infix (insertion : Insertion importLine text result before anchor after) :
    importLine <:+: result := by
  rw [insertion.result_eq]
  exact infix_intercalate_of_mem (by simp)

/-- An import line without line feeds is one line of the new text. -/
theorem lines_result (insertion : Insertion importLine text result before anchor after)
    (hnewline : '\n' ∉ importLine) :
    lines result = before ++ anchor :: importLine :: after := by
  have hfree : ∀ line ∈ before ++ anchor :: after, '\n' ∉ line := by
    intro line hline
    rw [← insertion.lines_eq] at hline
    exact not_mem_of_mem_splitOn hline
  rw [insertion.result_eq]
  refine List.splitOn_intercalate '\n' ?_ (by simp)
  simp only [List.mem_append, List.mem_cons] at hfree ⊢
  rintro line (hline | rfl | rfl | hline)
  · exact hfree line (Or.inl hline)
  · exact hfree line (Or.inr (Or.inl rfl))
  · exact hnewline
  · exact hfree line (Or.inr (Or.inr hline))

/-- Taking the line behind the anchor out again gives the text back. -/
theorem unlines_eraseIdx (insertion : Insertion importLine text result before anchor after)
    (hnewline : '\n' ∉ importLine) :
    unlines ((lines result).eraseIdx (before.length + 1)) = text := by
  have herase : (before ++ anchor :: importLine :: after).eraseIdx (before.length + 1) =
      before ++ anchor :: after := by
    rw [List.eraseIdx_append_of_length_le (by omega), Nat.add_sub_cancel_left]
    rfl
  rw [insertion.lines_result hnewline, herase, ← insertion.lines_eq, unlines_lines]

/-- No line of the text at the beginning holds the import line. -/
theorem not_infix_of_mem (insertion : Insertion importLine text result before anchor after)
    (hoccurs : ¬ importLine <:+: text) {line : List Char} (hline : line ∈ before ++ anchor :: after) :
    ¬ importLine <:+: line := by
  intro hin
  rw [← insertion.lines_eq] at hline
  have htext : line <:+: unlines (lines text) := infix_intercalate_of_mem hline
  rw [unlines_lines] at htext
  exact hoccurs (hin.trans htext)

/-- So the new line is the only one that does. -/
theorem index_eq (insertion : Insertion importLine text result before anchor after)
    (hnewline : '\n' ∉ importLine) (hoccurs : ¬ importLine <:+: text) {index : Nat}
    {line : List Char} (hline : (lines result)[index]? = some line) (hin : importLine <:+: line) :
    index = before.length + 1 := by
  have hother : ∀ other ∈ before ++ anchor :: after, ¬ importLine <:+: other :=
    fun other => insertion.not_infix_of_mem hoccurs
  rw [insertion.lines_result hnewline] at hline
  by_contra hindex
  -- at any other place stands a line of the text at the beginning
  apply hother line ?_ hin
  rw [List.mem_append, List.mem_cons]
  rcases Nat.lt_trichotomy index before.length with hlow | rfl | hhigh
  · rw [List.getElem?_append_left hlow] at hline
    exact Or.inl (List.mem_of_getElem? hline)
  · rw [List.getElem?_append_right (Nat.le_refl _), Nat.sub_self] at hline
    exact Or.inr (Or.inl (Option.some.inj hline).symm)
  · obtain ⟨more, rfl⟩ : ∃ more, index = before.length + (more + 2) :=
      ⟨index - before.length - 2, by omega⟩
    rw [List.getElem?_append_right (by omega), Nat.add_sub_cancel_left] at hline
    exact Or.inr (Or.inr (List.mem_of_getElem? hline))

theorem count_lines_result (insertion : Insertion importLine text result before anchor after)
    (hnewline : '\n' ∉ importLine) (hoccurs : ¬ importLine <:+: text) :
    (lines result).count importLine = 1 := by
  have hnone : (before ++ anchor :: after).count importLine = 0 := by
    apply List.count_eq_zero_of_not_mem
    intro hmem
    exact insertion.not_infix_of_mem hoccurs hmem List.infix_rfl
  rw [insertion.lines_result hnewline]
  simp only [List.count_append, List.count_cons, beq_self_eq_true, if_true] at hnone ⊢
  omega

end Insertion

/-! ## Making sure of the import line -/

theorem ensureImport_eq_self {text importLine : String}
    (h : importLine.toList <:+: text.toList ∨ ∀ line ∈ lines text.toList, ¬ AnchorLine line) :
    ensureImport text importLine = text := by
  rw [ensureImport, insertImport?_eq_none_iff.mpr h]

theorem ensureImport_of_some {text importLine : String} {result : List Char}
    (h : insertImport? importLine.toList text.toList = some result) :
    ensureImport text importLine = String.ofList result := by
  rw [ensureImport, h]

/-- The import line stands once in the new text, as a line of its own between the
last anchor and what follows it, and can be taken out again. -/
structure PlacedOnce (importLine text result : String) (before : List (List Char))
    (anchor : List Char) (after : List (List Char)) : Prop where
  lines_text : lines text.toList = before ++ anchor :: after
  lines_result : lines result.toList = before ++ anchor :: importLine.toList :: after
  anchor_line : AnchorLine anchor
  last : ∀ line ∈ after, ¬ AnchorLine line
  restored : unlines ((lines result.toList).eraseIdx (before.length + 1)) = text.toList
  only : ∀ (index : Nat) (line : List Char), (lines result.toList)[index]? = some line →
    importLine.toList <:+: line → index = before.length + 1
  counted : countLines result importLine = 1

theorem exists_placedOnce {text importLine : String} (hnewline : '\n' ∉ importLine.toList)
    (hoccurs : ¬ importLine.toList <:+: text.toList)
    (hanchor : ∃ line ∈ lines text.toList, AnchorLine line) :
    ∃ before anchor after,
      PlacedOnce importLine text (ensureImport text importLine) before anchor after := by
  cases hinsert : insertImport? importLine.toList text.toList with
  | none =>
      rcases insertImport?_eq_none_iff.mp hinsert with hin | hnone
      · exact absurd hin hoccurs
      · obtain ⟨line, hline, hdeclares⟩ := hanchor
        exact absurd hdeclares (hnone line hline)
  | some result =>
      obtain ⟨-, before, anchor, after, insertion⟩ := exists_insertion hinsert
      rw [ensureImport_of_some hinsert]
      refine ⟨before, anchor, after, insertion.lines_eq, ?_, insertion.anchor_line, insertion.last,
        ?_, ?_, ?_⟩
      · rw [String.toList_ofList]
        exact insertion.lines_result hnewline
      · rw [String.toList_ofList]
        exact insertion.unlines_eraseIdx hnewline
      · intro index line hline hin
        rw [String.toList_ofList] at hline
        exact insertion.index_eq hnewline hoccurs hline hin
      · rw [countLines, String.toList_ofList]
        exact insertion.count_lines_result hnewline hoccurs

/-- A second time there is nothing to do, whatever the import line looks like. -/
theorem ensureImport_ensureImport (text importLine : String) :
    ensureImport (ensureImport text importLine) importLine = ensureImport text importLine := by
  cases hinsert : insertImport? importLine.toList text.toList with
  | none =>
      have hself := ensureImport_eq_self (insertImport?_eq_none_iff.mp hinsert)
      rw [hself, hself]
  | some result =>
      obtain ⟨-, before, anchor, after, insertion⟩ := exists_insertion hinsert
      rw [ensureImport_of_some hinsert]
      apply ensureImport_eq_self
      rw [String.toList_ofList]
      exact Or.inl insertion.importLine_infix

namespace Table

/-- Migrating is transforming, and then making sure of the import line if
anything was replaced. -/
theorem migrate_text (table : Table) (text : String) :
    (table.migrate text).text =
      if (table.transform text).replacements = 0 then (table.transform text).text
      else ensureImport (table.transform text).text table.importLine := by
  simp only [migrate, transform, ensureImport, String.toList_ofList]
  split
  · rfl
  · split
    · rename_i hinsert
      rw [hinsert]
      rfl
    · rename_i result hinsert
      rw [hinsert]
      rfl

theorem importInserted_iff (table : Table) (text : String) :
    (table.migrate text).importInserted = true ↔
      (table.transform text).replacements ≠ 0 ∧ ∃ result,
        insertImport? table.importLine.toList (table.transform text).text.toList = some result ∧
          (table.migrate text).text = String.ofList result := by
  simp only [migrate, transform, String.toList_ofList, Option.isSome_iff_exists]
  split
  · rename_i hzero
    exact iff_of_false (by simp) fun h => h.1 hzero
  · rename_i hcount
    constructor
    · rintro ⟨result, hinsert⟩
      exact ⟨hcount, result, hinsert, by rw [hinsert, Option.getD_some]⟩
    · rintro ⟨-, result, hinsert, -⟩
      exact ⟨result, hinsert⟩

theorem importInserted_iff_text_ne (table : Table) (text : String) :
    (table.migrate text).importInserted = true ↔
      (table.migrate text).text ≠ (table.transform text).text := by
  constructor
  · intro hinserted
    obtain ⟨-, result, hinsert, htext⟩ := (table.importInserted_iff text).mp hinserted
    have hlength := length_insertImport hinsert
    intro heq
    rw [← heq, htext, String.toList_ofList] at hlength
    omega
  · intro hne
    rw [migrate_text] at hne
    split at hne
    · exact absurd rfl hne
    · rename_i hcount
      rw [importInserted_iff, migrate_text, if_neg hcount]
      cases hinsert : insertImport? table.importLine.toList (table.transform text).text.toList with
      | none => exact absurd (ensureImport_eq_self (insertImport?_eq_none_iff.mp hinsert)) hne
      | some result => exact ⟨hcount, result, rfl, ensureImport_of_some hinsert⟩

end Table

/-- **The import line goes behind the last anchor, once.**  A text stays as it is
if it holds the import line already or has no anchor.  Every other text gets an
added line directly behind its last anchor, provided that the import line has no
line feeds.  A second time nothing is added, with line feeds or without.
Migrating a file does the same to the transformed text, if anything was replaced,
and reports it exactly when the text got the line. -/
theorem import_placed :
    (∀ text importLine : String, '\n' ∉ importLine.toList →
      ((importLine.toList <:+: text.toList ∨ ∀ line ∈ lines text.toList, ¬ AnchorLine line) →
        ensureImport text importLine = text) ∧
      (¬ importLine.toList <:+: text.toList → (∃ line ∈ lines text.toList, AnchorLine line) →
        ∃ before anchor after,
          PlacedOnce importLine text (ensureImport text importLine) before anchor after)) ∧
      (∀ text importLine : String,
        ensureImport (ensureImport text importLine) importLine = ensureImport text importLine) ∧
      ∀ (table : Table) (text : String),
        ((table.migrate text).text =
          if (table.migrate text).replacements = 0 then (table.transform text).text
          else ensureImport (table.transform text).text table.importLine) ∧
        ((table.migrate text).importInserted = true → 0 < (table.migrate text).replacements) ∧
        ((table.migrate text).importInserted = true ↔
          (table.migrate text).text ≠ (table.transform text).text) ∧
        ((table.migrate text).importInserted = true → ∃ before anchor after,
          Insertion table.importLine.toList (table.transform text).text.toList
            (table.migrate text).text.toList before anchor after) ∧
        (table.importLine.toList <:+: (table.transform text).text.toList →
          (table.migrate text).text = (table.transform text).text ∧
            (table.migrate text).importInserted = false) := by
  refine ⟨?_, ensureImport_ensureImport, ?_⟩
  · intro text importLine hnewline
    exact ⟨ensureImport_eq_self, exists_placedOnce hnewline⟩
  · intro table text
    have hinserted := table.importInserted_iff text
    have hne := table.importInserted_iff_text_ne text
    refine ⟨table.migrate_text text, ?_, hne, ?_, ?_⟩
    · intro h
      exact Nat.pos_of_ne_zero (hinserted.mp h).1
    · intro h
      obtain ⟨-, result, hinsert, htext⟩ := hinserted.mp h
      rw [htext, String.toList_ofList]
      exact (exists_insertion hinsert).2
    · intro hin
      have htext : (table.migrate text).text = (table.transform text).text := by
        rw [table.migrate_text, ensureImport_eq_self (Or.inl hin), ite_self]
      refine ⟨htext, ?_⟩
      rw [← Bool.not_eq_true, hne]
      exact not_not_intro htext

/-- A static import is no anchor, and a carriage return stays on its line. -/
theorem import_placed_crlf :
    (∃ before anchor after, PlacedOnce "import p;" "import a.B;\r\nimport static c.D;\nA.B"
      "import a.B;\r\nimport p;\nimport static c.D;\nA.B" before anchor after) ∧
    ∃ table, Table.ofEntries [⟨"A.B", "X"⟩] "import p;" = .ok table ∧
      (table.migrate "import q;\nA.B").importInserted = true ∧
      0 < (table.migrate "import q;\nA.B").replacements := by
  obtain ⟨hensure, -, hmigrate⟩ := import_placed
  constructor
  · refine (hensure "import a.B;\r\nimport static c.D;\nA.B" "import p;" (by decide)).2 ?_ ?_
    · rw [← occursWithin_iff]
      decide
    · exact ⟨"import a.B;\r".toList, by decide, (isAnchor_iff _).mp (by decide)⟩
  · have hresult : (Table.ofEntries [⟨"A.B", "X"⟩] "import p;").toOption.map
        (fun table => (table.migrate "import q;\nA.B").importInserted) = some true := by
      decide +kernel
    obtain ⟨table, h, hinserted⟩ := exists_ok_of_toOption_map hresult
    exact ⟨table, h, hinserted, (hmigrate table "import q;\nA.B").2.1 hinserted⟩

end EnumMigration
