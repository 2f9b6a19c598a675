import EnumMigration.Proofs.Splice
import EnumMigration.Proofs.Splitting

/-!
# One run is enough

A text is `LegacyFree` when it holds no legacy token as a whole token.  Both
actions of a table leave such a text, and leave such a text alone, so the second
application of either finds nothing to do (`Table.fixed_point`).

Two things could bring a token back.  A replacement could, with the text around
it; `Consistent.not_holdsWhole_target` excludes this, since a token among the
fragments would either have been kept as a whole or be completed around a
replacement.  The import line could; it stands between line feeds, which no
token has, so `holdsWhole_insertImport_iff` reduces this to the line by itself.
-/

namespace EnumMigration

/-- No legacy token of the entries stands in the text as a whole token. -/
def LegacyFree (entries : List PatternEntry) (text : List Char) : Prop :=
  ∀ entry ∈ entries, ¬ HoldsWhole entry.legacy.toList text

/-! ## The text after all passes -/

namespace Fragment

/-- A kept token can begin only where it is not blocked: behind a swapped
fragment comes no word character. -/
theorem Separated.not_blocked {first rest : List Fragment} {c : Char}
    (h : Separated false (first ++ kept c :: rest)) (hc : isWord c = true)
    {part : Pattern → List Char} (hlast : isWordAt (render part first).getLast? = false) :
    blockedAfter false first = false := by
  rcases List.eq_nil_or_concat' first with rfl | ⟨front, last, rfl⟩
  · rfl
  · rw [blockedAfter_append]
    cases last with
    | kept d =>
        rw [render_append, render_kept, render_nil,
          List.getLast?_append_of_ne_nil _ (by simp)] at hlast
        exact hlast
    | swapped index pattern =>
        rw [List.append_assoc] at h
        have hhead : isWord c = false := h.append.2.1
        rw [hc] at hhead
        cases hhead

/-- A token that is not among the kept characters is not in the text so far. -/
theorem Consistent.not_holdsWhole_target {table : Table} {text : List Char}
    {fragments : List Fragment} (consistent : Consistent table.patterns text fragments)
    {pattern : Pattern} (hpattern : pattern ∈ table.patterns)
    (hnot : ¬ KeptWhole pattern.token fragments) :
    ¬ HoldsWhole pattern.token (target fragments) := by
  rintro ⟨start, hwhole⟩
  obtain ⟨before, after, htext, rfl, hbefore, hafter⟩ :=
    (wholeAt_iff_split pattern.wordEdged).mp hwhole
  rcases kept_or_overlap Pattern.substitute_ne_nil pattern.wordEdged.ne_nil htext with
    ⟨first, rest, rfl, rfl, rfl⟩ | ⟨first, index, p, rest, rfl, hlow, hhigh⟩
  · -- all of the token was kept
    have hseparated := consistent.separated
    have hrest := hseparated.append.append
    rw [blockedAfter_map_kept_token pattern.wordEdged] at hrest
    have hfirst : blockedAfter false first = false := by
      obtain ⟨c, tail, htoken⟩ := List.exists_cons_of_ne_nil pattern.wordEdged.ne_nil
      have hc := pattern.wordEdged.first
      rw [htoken] at hseparated hc
      exact hseparated.not_blocked hc hbefore
    refine hnot ⟨first, rest, rfl, getLast?_render_of_not_blocked hfirst Pattern.token, ?_⟩
    rw [← hrest.head?_render Pattern.substitute]
    exact hafter
  · -- the token reaches into a replacement
    obtain ⟨hleft, hright⟩ := consistent.separated.edges Pattern.substitute
    refine consistent.not_completable hpattern index p (by simp)
      ⟨target first, target rest, before.length, hleft, hright, ?_, hhigh, hlow⟩
    simpa using hwhole

end Fragment

/-! ## The import line between its neighbours -/

/-- Where a list gets its new element: behind one that passes the test, with
none behind it that does. -/
theorem insertAfterLast_eq_some {α : Type} {test : α → Bool} {new : α} {list result : List α}
    (h : insertAfterLast test new list = some result) :
    ∃ before anchor after, list = before ++ anchor :: after ∧
      result = before ++ anchor :: new :: after ∧ test anchor = true ∧
      insertAfterLast test new after = none := by
  induction list generalizing result with
  | nil => simp [insertAfterLast] at h
  | cons a rest ih =>
      rw [insertAfterLast] at h
      cases hrest : insertAfterLast test new rest with
      | some inserted =>
          obtain ⟨before, anchor, after, rfl, rfl, htest, hafter⟩ := ih hrest
          rw [hrest] at h
          cases h
          exact ⟨a :: before, anchor, after, rfl, rfl, htest, hafter⟩
      | none =>
          rw [hrest] at h
          by_cases htest : test a = true
          · rw [if_pos htest] at h
            cases h
            exact ⟨[], a, rest, rfl, rfl, htest, hrest⟩
          · rw [if_neg htest] at h
            cases h

/-- Adding the import line puts it behind a line feed and before another one,
unless the text ends there. -/
theorem insertImport?_eq_some {importLine text result : List Char}
    (h : insertImport? importLine text = some result) :
    (result = text ++ '\n' :: importLine) ∨
      ∃ above below, text = above ++ '\n' :: below ∧
        result = above ++ '\n' :: (importLine ++ '\n' :: below) := by
  rw [insertImport?] at h
  split at h
  · cases h
  obtain ⟨inserted, hinserted, rfl⟩ := Option.map_eq_some_iff.mp h
  obtain ⟨before, anchor, after, hlines, rfl, -⟩ := insertAfterLast_eq_some hinserted
  have htext : text = unlines (before ++ anchor :: after) := by rw [← hlines, unlines_lines]
  have hcut (line : List Char) (rest : List (List Char)) :
      unlines (before ++ anchor :: line :: rest) =
        unlines (before ++ [anchor]) ++ '\n' :: unlines (line :: rest) := by
    have hjoin := intercalate_append_cons '\n' (List.concat_ne_nil anchor before) line rest
    rwa [List.append_assoc] at hjoin
  cases after with
  | nil => exact Or.inl (by rw [hcut, htext, unlines_singleton])
  | cons next after =>
      have hrest : unlines (importLine :: next :: after) =
          importLine ++ '\n' :: unlines (next :: after) :=
        intercalate_cons_cons '\n' importLine next after
      exact Or.inr ⟨_, _, htext.trans (hcut next after), by rw [hcut, hrest]⟩

/-- A token without line feeds stands in a text with the import line if it
stands in the text or in the line. -/
theorem holdsWhole_insertImport_iff {token importLine text result : List Char}
    (edged : WordEdged token) (hnewline : '\n' ∉ token)
    (h : insertImport? importLine text = some result) :
    HoldsWhole token result ↔ HoldsWhole token text ∨ HoldsWhole token importLine := by
  have hbreak := holdsWhole_append_cons edged isWord_newline hnewline
  rcases insertImport?_eq_some h with rfl | ⟨above, below, rfl, rfl⟩
  · exact hbreak text importLine
  · rw [hbreak, hbreak, hbreak, or_assoc, or_comm (a := HoldsWhole token importLine)]

/-! ## Texts without legacy tokens -/

/-- Nothing is counted exactly when no token is there, and then nothing is
replaced. -/
theorem replaceEach_eq_zero_iff (patterns : List Pattern) (text : List Char) :
    (replaceEach patterns text).2 = 0 ↔ ∀ pattern ∈ patterns, ¬ HoldsWhole pattern.token text := by
  induction patterns with
  | nil => simp [replaceEach]
  | cons pattern patterns ih =>
      simp only [replaceEach, Nat.add_eq_zero_iff, Pattern.hits_eq_zero_iff, List.forall_mem_cons]
      constructor
      · rintro ⟨hfirst, hrest⟩
        rw [Pattern.replaceAll_eq_self hfirst] at hrest
        exact ⟨hfirst, ih.mp hrest⟩
      · rintro ⟨hfirst, hrest⟩
        rw [Pattern.replaceAll_eq_self hfirst]
        exact ⟨hfirst, ih.mpr hrest⟩

theorem replaceEach_eq_self {patterns : List Pattern} {text : List Char}
    (h : ∀ pattern ∈ patterns, ¬ HoldsWhole pattern.token text) :
    replaceEach patterns text = (text, 0) := by
  induction patterns with
  | nil => rfl
  | cons pattern patterns ih =>
      have hfirst := h pattern List.mem_cons_self
      have hrest := ih fun other hother => h other (List.mem_cons_of_mem _ hother)
      rw [replaceEach, Pattern.replaceAll_eq_self hfirst, hrest,
        (Pattern.hits_eq_zero_iff _ _).mpr hfirst]

namespace Table

theorem legacyFree_iff (table : Table) (text : List Char) :
    LegacyFree table.entries text ↔
      ∀ pattern ∈ table.patterns, ¬ HoldsWhole pattern.token text := by
  simp only [LegacyFree, entries, List.forall_mem_map]
  rfl

/-- The passes of a table leave no legacy token. -/
theorem legacyFree_replaceEach (table : Table) (text : List Char) :
    LegacyFree table.entries (replaceEach table.patterns text).1 := by
  obtain ⟨last, passes, consistent, hreplace⟩ := table.exists_fragments text
  rw [legacyFree_iff, hreplace]
  intro pattern hpattern
  exact consistent.not_holdsWhole_target hpattern
    (passes.not_keptWhole List.drop_zero (Fragment.consistent_map_kept _ _) hpattern)

theorem transform_eq_self_iff (table : Table) (text : String) :
    table.transform text = ⟨text, false, 0⟩ ↔ LegacyFree table.entries text.toList := by
  rw [legacyFree_iff]
  constructor
  · intro h
    rw [← replaceEach_eq_zero_iff]
    exact congrArg Transformed.replacements h
  · intro h
    simp [transform, replaceEach_eq_self h]

theorem migrate_eq_self_iff (table : Table) (text : String) :
    table.migrate text = ⟨text, false, 0, false⟩ ↔ LegacyFree table.entries text.toList := by
  rw [legacyFree_iff]
  constructor
  · intro h
    rw [← replaceEach_eq_zero_iff]
    exact congrArg Migrated.replacements h
  · intro h
    simp [migrate, replaceEach_eq_self h]

theorem legacyFree_transform (table : Table) (text : String) :
    LegacyFree table.entries (table.transform text).text.toList := by
  simpa [transform] using table.legacyFree_replaceEach text.toList

/-- Neither do the passes together with the import line. -/
theorem legacyFree_migrate (table : Table) (text : String) :
    LegacyFree table.entries (table.migrate text).text.toList := by
  have hfree := table.legacyFree_replaceEach text.toList
  rcases hreplace : replaceEach table.patterns text.toList with ⟨replaced, count⟩
  rw [hreplace] at hfree
  simp only [migrate, hreplace, String.toList_ofList]
  cases hinserted : if count = 0 then none else insertImport? table.importLine.toList replaced with
  | none => exact hfree
  | some result =>
      have himport : insertImport? table.importLine.toList replaced = some result := by
        split at hinserted
        · cases hinserted
        · exact hinserted
      rw [legacyFree_iff] at hfree ⊢
      intro pattern hpattern
      rw [Option.getD_some,
        holdsWhole_insertImport_iff pattern.wordEdged pattern.isUsable.no_newline himport]
      exact not_or.mpr ⟨hfree pattern hpattern, table.not_holdsWhole_importLine hpattern⟩

/-- **One run is enough.**  What either action of an accepted table leaves holds
no legacy token as a whole token, and a second application returns it unchanged
and counts nothing.  For every text the two say the same: an action returns it
as it is and counts nothing exactly when it holds no legacy token. -/
theorem fixed_point {entries : List PatternEntry} {importLine : String} {table : Table}
    (h : ofEntries entries importLine = .ok table) (text : String) :
    table.transform (table.transform text).text = ⟨(table.transform text).text, false, 0⟩ ∧
      table.migrate (table.migrate text).text = ⟨(table.migrate text).text, false, 0, false⟩ ∧
      LegacyFree entries (table.transform text).text.toList ∧
      LegacyFree entries (table.migrate text).text.toList ∧
      ∀ other : String,
        (table.transform other = ⟨other, false, 0⟩ ↔ LegacyFree entries other.toList) ∧
        (table.migrate other = ⟨other, false, 0, false⟩ ↔ LegacyFree entries other.toList) := by
  obtain ⟨rfl, -⟩ := ofEntries_eq_ok_iff.mp h
  have htransform := table.legacyFree_transform text
  have hmigrate := table.legacyFree_migrate text
  refine ⟨(table.transform_eq_self_iff _).mpr htransform,
    (table.migrate_eq_self_iff _).mpr hmigrate, htransform, hmigrate, ?_⟩
  exact fun other => ⟨table.transform_eq_self_iff other, table.migrate_eq_self_iff other⟩

theorem fixed_point_overlapping :
    ∃ table, ofEntries [⟨"A.B", "X.Y"⟩, ⟨"B.C", "Z"⟩] "import p;" = .ok table ∧
      table.migrate "import q;\nA.B.C" = ⟨"import q;\nimport p;\nX.Y.C", true, 1, true⟩ ∧
      table.migrate "import q;\nimport p;\nX.Y.C" =
        ⟨"import q;\nimport p;\nX.Y.C", false, 0, false⟩ ∧
      LegacyFree [⟨"A.B", "X.Y"⟩, ⟨"B.C", "Z"⟩] "import q;\nimport p;\nX.Y.C".toList := by
  have hmigrate : (ofEntries [⟨"A.B", "X.Y"⟩, ⟨"B.C", "Z"⟩] "import p;").toOption.map
      (migrate · "import q;\nA.B.C") = some ⟨"import q;\nimport p;\nX.Y.C", true, 1, true⟩ := by
    decide +kernel
  obtain ⟨table, h, hfirst⟩ := exists_ok_of_toOption_map hmigrate
  obtain ⟨-, hagain, -, hfree, -⟩ := fixed_point h "import q;\nA.B.C"
  rw [hfirst] at hagain hfree
  exact ⟨table, h, hfirst, hagain, hfree⟩

end Table

end EnumMigration
