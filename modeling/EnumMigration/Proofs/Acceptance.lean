import EnumMigration.Table
import EnumMigration.Proofs.Computations
import EnumMigration.Proofs.Slide

/-!
# Which entries make a table

`Acceptable` states what a list of entries and an import line need to form a
table, without mentioning a scan or a slide: usable entries, no replacement
that some surrounding text completes to a legacy token, and an import line that
holds none.  The checks accept exactly these (`Table.ofEntries_exact`), and the
error about a reintroduced token always names a token and a replacement for
which such a surrounding text exists.

A table determines its entries and its import line, and these determine the
table: `Table.ofEntries_eq_ok_iff`.
-/

namespace EnumMigration

/-- What entries and an import line need to form a table. -/
structure Acceptable (entries : List PatternEntry) (importLine : String) : Prop where
  import_has_text : ∃ c ∈ importLine.toList, isBlank c = false
  entries_ne_nil : entries ≠ []
  usable : ∀ entry ∈ entries, entry.Usable
  not_completable : ∀ p ∈ entries, ∀ q ∈ entries,
    ¬ Completable p.legacy.toList q.replacement.toList
  import_free : ∀ p ∈ entries, ¬ HoldsWhole p.legacy.toList importLine.toList

/-! ## Entries and their patterns -/

namespace Pattern

theorem compile_eq_ok_iff {entry : PatternEntry} {pattern : Pattern} :
    compile entry = .ok pattern ↔ pattern.toPatternEntry = entry := by
  rw [← ofEntry_eq_ok_iff, compile]
  cases ofEntry entry with
  | error fault => simp [Except.mapError]
  | ok found => simp [Except.mapError]

/-- The only error of an entry by itself is that it is no pattern. -/
theorem exists_of_compile_eq_error {entry : PatternEntry} {e : TableError}
    (h : compile entry = .error e) : ∃ fault, e = .invalidPattern entry.legacy fault := by
  rw [compile] at h
  cases hentry : ofEntry entry with
  | ok found => simp [hentry, Except.mapError] at h
  | error fault =>
      simp only [hentry, Except.mapError, Except.error.injEq] at h
      exact ⟨fault, h.symm⟩

theorem mapM_compile_map (patterns : List Pattern) :
    (patterns.map toPatternEntry).mapM compile = .ok patterns := by
  induction patterns with
  | nil => rfl
  | cons pattern patterns ih =>
      rw [List.map_cons, List.mapM_cons, compile_eq_ok_iff.mpr rfl, ih]
      rfl

/-- Compiling a list fails only on an entry that is no pattern, and otherwise
gives the patterns of exactly these entries. -/
theorem mapM_compile_cases (entries : List PatternEntry) :
    (∃ legacy fault, entries.mapM compile = .error (.invalidPattern legacy fault)) ∨
      ∃ patterns : List Pattern, entries.mapM compile = .ok patterns ∧
        patterns.map toPatternEntry = entries := by
  induction entries with
  | nil => exact Or.inr ⟨[], rfl, rfl⟩
  | cons entry entries ih =>
      rw [List.mapM_cons]
      cases hfirst : compile entry with
      | error e =>
          obtain ⟨fault, rfl⟩ := exists_of_compile_eq_error hfirst
          exact Or.inl ⟨_, _, rfl⟩
      | ok pattern =>
          rcases ih with ⟨legacy, fault, hrest⟩ | ⟨patterns, hrest, hmap⟩
          · rw [hrest]
            exact Or.inl ⟨_, _, rfl⟩
          · rw [hrest]
            refine Or.inr ⟨pattern :: patterns, rfl, ?_⟩
            rw [List.map_cons, compile_eq_ok_iff.mp hfirst, hmap]

/-- Usable entries are the entries of patterns. -/
theorem exists_map_toPatternEntry {entries : List PatternEntry}
    (husable : ∀ entry ∈ entries, entry.Usable) :
    ∃ patterns : List Pattern, patterns.map toPatternEntry = entries := by
  induction entries with
  | nil => exact ⟨[], rfl⟩
  | cons entry entries ih =>
      obtain ⟨patterns, rfl⟩ := ih fun other hother => husable other (List.mem_cons_of_mem _ hother)
      have hfault := (PatternEntry.fault?_eq_none_iff entry).mpr (husable entry List.mem_cons_self)
      exact ⟨⟨entry, hfault⟩ :: patterns, rfl⟩

/-! ## Conflicts -/

/-- The direct search in a replacement is subsumed by the slide, and the slide
decides whether any surrounding text completes the token. -/
theorem returnsIn_iff (pattern : Pattern) (replacement : List Char) :
    pattern.returnsIn replacement = true ↔ Completable pattern.token replacement := by
  rw [returnsIn, Bool.or_eq_true, occursIn_iff, completesToken_iff pattern.wordEdged]
  exact or_iff_right_of_imp (Completable.of_holdsWhole pattern.wordEdged)

theorem conflict?_eq_none_iff (pattern : Pattern) (patterns : List Pattern) (importLine : String) :
    pattern.conflict? patterns importLine = none ↔
      (∀ other ∈ patterns, ¬ Completable pattern.token other.substitute) ∧
        ¬ HoldsWhole pattern.token importLine.toList := by
  simp only [conflict?, ← returnsIn_iff, ← occursIn_iff]
  cases hfind : patterns.find? fun other => pattern.returnsIn other.substitute with
  | none =>
      rw [List.find?_eq_none] at hfind
      simpa using fun _ => hfind
  | some other =>
      have hreturns := List.find?_some hfind
      refine iff_of_false (by simp) ?_
      exact fun h => h.1 other (List.mem_of_find?_eq_some hfind) hreturns

/-- A conflict about a reintroduced token has a completing text behind it. -/
theorem completable_of_conflict {pattern : Pattern} {patterns : List Pattern}
    {importLine legacy replacement : String}
    (h : pattern.conflict? patterns importLine = some (.reintroducesLegacy legacy replacement)) :
    ∃ other ∈ patterns, pattern.legacy = legacy ∧ other.replacement = replacement ∧
      Completable legacy.toList replacement.toList := by
  simp only [conflict?] at h
  split at h
  · rename_i other hfind
    simp only [Option.some.injEq, TableError.reintroducesLegacy.injEq] at h
    obtain ⟨rfl, rfl⟩ := h
    have hreturns := List.find?_some hfind
    exact ⟨other, List.mem_of_find?_eq_some hfind, rfl, rfl, (returnsIn_iff _ _).mp hreturns⟩
  · split at h
    · simp at h
    · simp at h

end Pattern

/-! ## Tables -/

namespace Table

/-- The entries of a table. -/
def entries (table : Table) : List PatternEntry := table.patterns.map Pattern.toPatternEntry

/-- The checks give back a table with exactly these entries and this import
line. -/
theorem ofEntries_eq_ok_iff {entries : List PatternEntry} {importLine : String} {table : Table} :
    ofEntries entries importLine = .ok table ↔
      table.entries = entries ∧ table.importLine = importLine := by
  constructor
  · intro h
    rw [ofEntries] at h
    split at h
    · cases h
    · rcases Pattern.mapM_compile_cases entries with ⟨legacy, fault, hmap⟩ | ⟨patterns, hmap, hentries⟩
      · rw [hmap] at h
        cases h
      · rw [hmap] at h
        simp only at h
        split at h
        · cases h
        · split at h
          · cases h
          · cases h
            exact ⟨hentries, rfl⟩
  · rintro ⟨rfl, rfl⟩
    have hnone : (table.patterns.findSome? fun pattern =>
        pattern.conflict? table.patterns table.importLine) = none :=
      List.findSome?_eq_none_iff.mpr table.no_conflict
    rw [ofEntries, dif_neg (by simp [table.importLine_not_blank]), entries,
      Pattern.mapM_compile_map]
    simp only
    rw [dif_neg table.patterns_ne_nil]
    split
    · rename_i conflict hsome
      rw [hnone] at hsome
      cases hsome
    · rfl

/-- No replacement of a table can bring back a token of it. -/
theorem not_completable (table : Table) {pattern other : Pattern} (hpattern : pattern ∈ table.patterns)
    (hother : other ∈ table.patterns) : ¬ Completable pattern.token other.substitute :=
  ((Pattern.conflict?_eq_none_iff _ _ _).mp (table.no_conflict pattern hpattern)).1 other hother

/-- Neither can its import line. -/
theorem not_holdsWhole_importLine (table : Table) {pattern : Pattern}
    (hpattern : pattern ∈ table.patterns) :
    ¬ HoldsWhole pattern.token table.importLine.toList :=
  ((Pattern.conflict?_eq_none_iff _ _ _).mp (table.no_conflict pattern hpattern)).2

theorem isBlankText_eq_false_iff {text : List Char} :
    isBlankText text = false ↔ ∃ c ∈ text, isBlank c = false := by
  simp [isBlankText, List.all_eq_false]

/-- What holds together in a table is acceptable. -/
theorem acceptable (table : Table) : Acceptable table.entries table.importLine where
  import_has_text := isBlankText_eq_false_iff.mp table.importLine_not_blank
  entries_ne_nil := by simpa [entries] using table.patterns_ne_nil
  usable := by
    intro entry hentry
    obtain ⟨pattern, -, rfl⟩ := List.mem_map.mp hentry
    exact pattern.isUsable
  not_completable := by
    intro p hp q hq
    obtain ⟨pattern, hpattern, rfl⟩ := List.mem_map.mp hp
    obtain ⟨other, hother, rfl⟩ := List.mem_map.mp hq
    exact table.not_completable hpattern hother
  import_free := by
    intro p hp
    obtain ⟨pattern, hpattern, rfl⟩ := List.mem_map.mp hp
    exact table.not_holdsWhole_importLine hpattern

/-- What is acceptable makes a table. -/
theorem exists_of_acceptable {entries : List PatternEntry} {importLine : String}
    (acceptable : Acceptable entries importLine) :
    ∃ table, ofEntries entries importLine = .ok table := by
  obtain ⟨patterns, rfl⟩ := Pattern.exists_map_toPatternEntry acceptable.usable
  have hconflict : ∀ pattern ∈ patterns, pattern.conflict? patterns importLine = none := by
    intro pattern hpattern
    have hentry := List.mem_map_of_mem (f := Pattern.toPatternEntry) hpattern
    refine (Pattern.conflict?_eq_none_iff _ _ _).mpr ⟨?_, acceptable.import_free _ hentry⟩
    intro other hother
    exact acceptable.not_completable _ hentry _ (List.mem_map_of_mem hother)
  refine ⟨⟨importLine, patterns, ?_, ?_, hconflict⟩, ofEntries_eq_ok_iff.mpr ⟨rfl, rfl⟩⟩
  · exact isBlankText_eq_false_iff.mpr acceptable.import_has_text
  · simpa using acceptable.entries_ne_nil

/-- The error about a reintroduced token names a token and a replacement of the
entries that some surrounding text completes. -/
theorem completable_of_ofEntries_eq_error {entries : List PatternEntry} {importLine : String}
    {legacy replacement : String}
    (h : ofEntries entries importLine = .error (.reintroducesLegacy legacy replacement)) :
    (∃ p ∈ entries, p.legacy = legacy) ∧ (∃ q ∈ entries, q.replacement = replacement) ∧
      Completable legacy.toList replacement.toList := by
  rw [ofEntries] at h
  split at h
  · cases h
  rcases Pattern.mapM_compile_cases entries with ⟨_, _, hmap⟩ | ⟨patterns, hmap, rfl⟩
  · rw [hmap] at h
    cases h
  rw [hmap] at h
  simp only at h
  split at h
  · cases h
  split at h
  · rename_i conflict hsome
    cases h
    obtain ⟨pattern, hpattern, hconflict⟩ := List.exists_of_findSome?_eq_some hsome
    obtain ⟨other, hother, hlegacy, hreplacement, hcompletable⟩ :=
      Pattern.completable_of_conflict hconflict
    exact ⟨⟨_, List.mem_map_of_mem hpattern, hlegacy⟩, ⟨_, List.mem_map_of_mem hother, hreplacement⟩,
      hcompletable⟩
  · cases h

/-- **The checks of a table are exact.**  They pass exactly the acceptable
entries and import lines.  The error about a reintroduced token is never raised
without a surrounding text that completes the token named in it.  Behind this,
the slide decides whether there is such a text, and finds whatever a direct
search in the replacement would find. -/
theorem ofEntries_exact (entries : List PatternEntry) (importLine : String) :
    ((∃ table, ofEntries entries importLine = .ok table) ↔ Acceptable entries importLine) ∧
      (∀ legacy replacement,
        ofEntries entries importLine = .error (.reintroducesLegacy legacy replacement) →
          (∃ p ∈ entries, p.legacy = legacy) ∧ (∃ q ∈ entries, q.replacement = replacement) ∧
            Completable legacy.toList replacement.toList) ∧
      ∀ (pattern : Pattern) (replacement : List Char),
        (completesToken pattern.token replacement = true ↔
          Completable pattern.token replacement) ∧
        (pattern.occursIn replacement = true →
          completesToken pattern.token replacement = true) := by
  refine ⟨⟨?_, exists_of_acceptable⟩, fun _ _ => completable_of_ofEntries_eq_error, ?_⟩
  · rintro ⟨table, htable⟩
    obtain ⟨rfl, rfl⟩ := ofEntries_eq_ok_iff.mp htable
    exact table.acceptable
  · intro pattern replacement
    have hslide := completesToken_iff pattern.wordEdged replacement
    refine ⟨hslide, fun hoccurs => hslide.mpr ?_⟩
    exact Completable.of_holdsWhole pattern.wordEdged ((pattern.occursIn_iff _).mp hoccurs)

/-- A replacement that holds no token may still complete one: `C.A` in front of `.B`. -/
theorem ofEntries_exact_completed :
    ofEntries [⟨"A.B", "C.A"⟩] "import p;" = .error (.reintroducesLegacy "A.B" "C.A") ∧
      Completable "A.B".toList "C.A".toList ∧ ¬ Acceptable [⟨"A.B", "C.A"⟩] "import p;" := by
  have herror : ofEntries [⟨"A.B", "C.A"⟩] "import p;" =
      .error (.reintroducesLegacy "A.B" "C.A") := rfl
  obtain ⟨haccepted, hcompletes, -⟩ := ofEntries_exact [⟨"A.B", "C.A"⟩] "import p;"
  refine ⟨herror, (hcompletes _ _ herror).2.2, fun hacceptable => ?_⟩
  obtain ⟨table, htable⟩ := haccepted.mpr hacceptable
  rw [herror] at htable
  cases htable

end Table

end EnumMigration
