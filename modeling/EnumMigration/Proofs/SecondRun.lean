import EnumMigration.Proofs.FixedPoint
import EnumMigration.Proofs.Visits

/-!
# A second run of a batch

A batch that was run once has nothing left to do.  One text is settled by
`Table.migrate_migrate`; for a whole run the difficulty is that a file may be listed
more than once, and under several spellings, so that it is written after its
visit was over.

## Strategy

`Later` compares two stores of one run: a file is as it was, or it holds what the
table makes of it and can be written.  Every visit leads to a later store and
`Later` is transitive, because the table has nothing to do on its own output.
`Visited.again` is the step: from any later store a visit repeats its result and
changes nothing.  The run follows by induction on the list.
-/

namespace EnumMigration

/-! ## Texts and results that are settled -/

namespace Table

theorem migrate_migrate (table : Table) (text : String) :
    table.migrate (table.migrate text).text = ⟨(table.migrate text).text, false, 0, false⟩ :=
  (table.migrate_eq_self_iff _).mpr (table.legacyFree_migrate text)

theorem migrate_text_of_unchanged {table : Table} {text : String}
    (h : (table.migrate text).changed = false) : (table.migrate text).text = text := by
  simp only [migrate, bne_eq_false_iff_eq] at h ⊢
  rw [h, String.ofList_toList]

end Table

/-- What is reported about a file that was visited before: failures stay, and
everything else is unchanged. -/
def FileResult.repeated (result : FileResult) : FileResult :=
  match result.status with
  | .missing | .errored => result
  | .updated | .unchanged => .ofStatus result.path .unchanged

theorem FileResult.repeated_ofMigrated (path : Path) (before : String) (migrated : Migrated) :
    (ofMigrated path before migrated).1.repeated = .ofStatus path.text .unchanged := by
  unfold ofMigrated
  split <;> rfl

theorem FileResult.isFailure_repeated (result : FileResult) :
    result.repeated.status.isFailure = result.status.isFailure := by
  unfold repeated
  cases hstatus : result.status <;> simp only [hstatus] <;> rfl

theorem FileResult.repeated_ne_updated (result : FileResult) :
    result.repeated.status ≠ .updated := by
  unfold repeated
  cases hstatus : result.status <;> simp [hstatus, ofStatus]

namespace MemoryStore

/-! ## Later stores of a run -/

/-- A store that a run may reach from another: a file is as it was, or it holds
what the table makes of it and may be written. -/
structure Later (table : Table) (store later : MemoryStore) : Prop where
  failingReads_eq : later.failingReads = store.failingReads
  failingWrites_eq : later.failingWrites = store.failingWrites
  content : ∀ path : Path, later.get? path = store.get? path ∨
    path.components ∉ store.failingWrites ∧ ∃ before, store.get? path = some before ∧
      later.get? path = some (table.migrate before).text

variable {table : Table} {path : Path} {paths : List Path} {store next last : MemoryStore}
  {visit : FileResult × String} {visits : List (FileResult × String)}

theorem Later.refl (table : Table) (store : MemoryStore) : Later table store store :=
  ⟨rfl, rfl, fun _ => .inl rfl⟩

theorem Later.trans (h : Later table store next) (h' : Later table next last) :
    Later table store last := by
  refine ⟨h'.failingReads_eq.trans h.failingReads_eq,
    h'.failingWrites_eq.trans h.failingWrites_eq, fun path => ?_⟩
  -- written twice is written once: the table has nothing to do on its own output
  rcases h.content path with hkept | ⟨hwrite, before, hbefore, hnext⟩
  · rcases h'.content path with hkept' | hmigrated
    · exact .inl (hkept'.trans hkept)
    · rw [h.failingWrites_eq, hkept] at hmigrated
      exact .inr hmigrated
  · refine .inr ⟨hwrite, before, hbefore, ?_⟩
    rcases h'.content path with hkept' | ⟨-, text, htext, hlast⟩
    · exact hkept'.trans hnext
    · obtain rfl : (table.migrate before).text = text := Option.some.inj (hnext.symm.trans htext)
      rw [hlast, table.migrate_migrate]

/-- A file stays missing. -/
theorem Later.get?_eq_none (h : Later table store last) (hget : store.get? path = none) :
    last.get? path = none := by
  rcases h.content path with hkept | ⟨-, before, hbefore, -⟩
  · exact hkept.trans hget
  · rw [hget] at hbefore
    cases hbefore

theorem Later.get?_eq_some (h : Later table store last) {before : String}
    (hget : store.get? path = some before) :
    last.get? path = some before ∨ path.components ∉ store.failingWrites ∧
      last.get? path = some (table.migrate before).text := by
  rcases h.content path with hkept | ⟨hwrite, text, htext, hlast⟩
  · exact .inl (hkept.trans hget)
  · obtain rfl : before = text := Option.some.inj (hget.symm.trans htext)
    exact .inr ⟨hwrite, hlast⟩

/-- A file that the table leaves alone stays as it is. -/
theorem Later.get?_of_unchanged (h : Later table store last) {before : String}
    (hget : store.get? path = some before) (hchanged : (table.migrate before).changed = false) :
    last.get? path = some before := by
  rcases h.get?_eq_some hget with hkept | ⟨-, hmigrated⟩
  · exact hkept
  · rw [hmigrated, Table.migrate_text_of_unchanged hchanged]

theorem Visited.later (h : Visited table false path store visit next) :
    Later table store next := by
  cases h with
  | missing | readFails | kept | writeFails => exact .refl table store
  | @written before hget hread hchanged hreal hwrite =>
      refine ⟨rfl, rfl, fun other => ?_⟩
      have hinsert := store.get?_insert path other (table.migrate before).text
      by_cases hsame : other.components = path.components
      · have hother : store.get? other = some before := by rw [get?, hsame]; exact hget
        rw [if_pos (beq_iff_eq.mpr hsame)] at hinsert
        exact .inr ⟨hsame ▸ hwrite, before, hother, hinsert⟩
      · rw [if_neg (mt beq_iff_eq.mp hsame)] at hinsert
        exact .inl hinsert

theorem VisitedAll.later (h : VisitedAll table false paths store visits last) :
    Later table store last := by
  induction h with
  | nil store => exact .refl table store
  | cons hfirst _ ih => exact hfirst.later.trans ih

/-! ## The second run -/

/-- A file that the table leaves alone is reported as unchanged. -/
theorem visited_unchanged {text : String} (hget : store.get? path = some text)
    (hread : path.components ∉ store.failingReads)
    (hsettled : table.migrate text = ⟨text, false, 0, false⟩) :
    Visited table false path store (.ofStatus path.text .unchanged, "") store := by
  have hvisit : Visited table false path store
      (FileResult.ofMigrated path text (table.migrate text)) store :=
    .kept hget hread (by simp [hsettled])
  rwa [hsettled] at hvisit

theorem Visited.again (h : Visited table false path store visit next)
    (hlater : Later table next last) :
    Visited table false path last (visit.1.repeated, "") last := by
  have hreads := (h.later.trans hlater).failingReads_eq
  have hwrites := (h.later.trans hlater).failingWrites_eq
  cases h with
  | missing hget => exact .missing (hlater.get?_eq_none hget)
  | readFails hget hread =>
      rw [← hreads] at hread
      rcases hlater.get?_eq_some hget with hkept | ⟨-, hmigrated⟩
      · exact .readFails hkept hread
      · exact .readFails hmigrated hread
  | @kept before hget hread hkept =>
      have hchanged : (table.migrate before).changed = false := by simpa using hkept
      have hsettled := table.migrate_migrate before
      rw [Table.migrate_text_of_unchanged hchanged] at hsettled
      rw [FileResult.repeated_ofMigrated]
      exact visited_unchanged (hlater.get?_of_unchanged hget hchanged) (hreads ▸ hread) hsettled
  | writeFails hget hread hchanged hreal hwrite =>
      -- no other spelling of the path can be written either, so the file is as it was
      rcases hlater.get?_eq_some hget with hkept | ⟨hwritable, -⟩
      · exact .writeFails hkept (hreads ▸ hread) hchanged rfl (hwrites ▸ hwrite)
      · exact absurd hwrite hwritable
  | @written before hget hread hchanged hreal hwrite =>
      have hinsert := store.get?_insert path path (table.migrate before).text
      rw [if_pos (beq_self_eq_true _)] at hinsert
      have hsettled := table.migrate_migrate before
      rw [FileResult.repeated_ofMigrated]
      exact visited_unchanged (hlater.get?_of_unchanged hinsert (by rw [hsettled]))
        (hreads ▸ hread) hsettled

theorem VisitedAll.again (h : VisitedAll table false paths store visits last) :
    VisitedAll table false paths last (visits.map fun visit => (visit.1.repeated, "")) last := by
  induction h with
  | nil store => exact .nil store
  | cons hfirst hrest ih => exact .cons (hfirst.again hrest.later) ih

/-- **A second run does nothing.**  Once a batch has run, running it again leaves
the store as it is, files and log of writes included.  The second run updates
nothing and its patch is empty; it reports the failures of the first run again,
each with its message, and everything else as unchanged, file by file; and it
ends with the same exit code. -/
theorem runBatch_again {first second : Clock (StateM MemoryStore)} (hfirst : first.Passive)
    (hsecond : second.Passive) {migration : Migration} (htable : migration.table = .ok table)
    (tool : ToolInfo) (root : Path) (store : MemoryStore) :
    ∃ (outcome again : BatchOutcome) (last : MemoryStore),
      ((source root).runBatch first tool migration false).run store = (.ok outcome, last) ∧
      ((source root).runBatch second tool migration false).run last = (.ok again, last) ∧
      again.run.summary.updated = 0 ∧ again.patch = "" ∧
      outcome.run.results.map FileResult.path = migration.files.map Path.text ∧
      again.run.results = outcome.run.results.map FileResult.repeated ∧
      again.exitCode = outcome.exitCode := by
  obtain ⟨visits, last, hvisits⟩ := exists_visitedAll table false migration.files store
  obtain ⟨outcome, hreports, hrun⟩ := hvisits.runBatch_run hfirst htable root tool
  obtain ⟨again, hreports', hrun'⟩ := hvisits.again.runBatch_run hsecond htable root tool
  refine ⟨outcome, again, last, hrun, hrun', ?_, ?_, ?_, ?_, ?_⟩
  · rw [hreports'.updated_eq, List.count_eq_zero, List.map_map]
    intro hmem
    obtain ⟨visit, -, hupdated⟩ := List.mem_map.mp hmem
    exact visit.1.repeated_ne_updated hupdated
  · apply hreports'.patch_eq_empty
    simp
  · rw [hreports.results_eq, hvisits.paths_eq]
  · simp [hreports'.results_eq, hreports.results_eq]
  · simp only [hreports'.exitCode_eq, hreports.exitCode_eq, List.any_map, Function.comp_def,
      FileResult.isFailure_repeated]

theorem runBatch_again_listed_twice :
    let migration : Migration :=
      ⟨"rounds", "import p;", [⟨"A.B", "C.D"⟩], [⟨"d/a"⟩, ⟨"d//a"⟩, ⟨"b"⟩, ⟨"c"⟩]⟩
    let store := (((empty ⟨"r"⟩).insert ⟨"d/a"⟩ "A.B").insert ⟨"c"⟩ "A.B").failWrite ⟨"c"⟩
    let clock : Clock (StateM MemoryStore) := .fixed ⟨⟨2024, 1, 1, 0, 0, 0, 0⟩, by decide⟩ "run"
    let batch := (source ⟨"r"⟩).runBatch clock ⟨"tool", none⟩ migration false
    ∃ outcome again last, batch.run store = (.ok outcome, last) ∧
      batch.run last = (.ok again, last) ∧
      outcome.run.results.map FileResult.status = [.updated, .unchanged, .missing, .errored] ∧
      again.run.results = outcome.run.results.map FileResult.repeated ∧
      again.run.summary.updated = 0 ∧ again.patch = "" ∧ again.exitCode = outcome.exitCode := by
  intro migration store clock batch
  have hstatuses : (batch.run store).1.toOption.map
      (fun outcome => outcome.run.results.map FileResult.status) =
        some [.updated, .unchanged, .missing, .errored] := by
    decide +kernel
  have hpassive : clock.Passive := Clock.passive_fixed _ _
  have haccepted : migration.table.toOption.map Table.importLine = some "import p;" := by
    decide +kernel
  obtain ⟨table, htable, -⟩ := exists_ok_of_toOption_map haccepted
  obtain ⟨outcome, again, last, hrun, hrun', hupdated, hpatch, -, hresults, hexit⟩ :=
    runBatch_again hpassive hpassive htable ⟨"tool", none⟩ ⟨"r"⟩ store
  rw [hrun] at hstatuses
  exact ⟨outcome, again, last, hrun, hrun', Option.some.inj hstatuses, hresults, hupdated, hpatch,
    hexit⟩

end MemoryStore

end EnumMigration
