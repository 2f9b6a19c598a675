import EnumMigration.Proofs.SecondRun
import EnumMigration.Proofs.Isolation

/-!
# What a batch leaves behind

The store after a batch has a closed form.  A file that is listed, under whatever
spelling, and that can be read and written holds what the table makes of it; every
other file is as it was.  The log of writes grows by the paths of the updated
results.

## Strategy

`Visited.get?_eq` and `Visited.writes_eq` say this of one visit.  Over a list there
are two things to see.  A file that is listed again is migrated again, which changes
nothing (`Table.migratedAt_migratedAt`).  And a file that was updated is settled
from then on, so that no later entry of it is updated (`VisitedAll.not_updated`).
-/

namespace EnumMigration

/-- What a table makes of the text at a path, if there is any. -/
def Table.migratedAt (table : Table) (content : Option String) : Option String :=
  content.map fun before => (table.migrate before).text

theorem Table.migratedAt_migratedAt (table : Table) (content : Option String) :
    table.migratedAt (table.migratedAt content) = table.migratedAt content := by
  cases content with
  | none => rfl
  | some before => simp [migratedAt, table.migrate_migrate]

namespace FileResult

theorem status_ofMigrated (path : Path) (before : String) (migrated : Migrated) :
    (ofMigrated path before migrated).1.status =
      if migrated.changed then .updated else .unchanged := by
  unfold ofMigrated
  split <;> rfl

/-- The paths of the results that report an update, in order. -/
def updatedPaths (results : List FileResult) : List Path :=
  (results.filter fun result => result.status = .updated).map fun result => ⟨result.path⟩

theorem updatedPaths_cons (result : FileResult) (results : List FileResult) :
    updatedPaths (result :: results) =
      (if result.status = .updated then [⟨result.path⟩] else []) ++ updatedPaths results := by
  unfold updatedPaths
  by_cases hupdated : result.status = .updated <;> simp [hupdated]

end FileResult

namespace MemoryStore

/-- A path that can be read and written, if there is a file. -/
def IsOpen (store : MemoryStore) (path : Path) : Prop :=
  path.components ∉ store.failingReads ∧ path.components ∉ store.failingWrites

instance (store : MemoryStore) (path : Path) : Decidable (store.IsOpen path) :=
  inferInstanceAs (Decidable (_ ∧ _))

variable {table : Table} {dryRun : Bool} {path file : Path} {paths : List Path}
  {store next last : MemoryStore} {visit : FileResult × String}
  {visits : List (FileResult × String)}

theorem Later.isOpen_iff (h : Later table store last) : last.IsOpen file ↔ store.IsOpen file := by
  unfold IsOpen
  rw [h.failingReads_eq, h.failingWrites_eq]

/-! ## Contents -/

/-- A dry run leaves the store alone. -/
theorem Visited.eq_of_dryRun (h : Visited table true path store visit next) : next = store := by
  cases h with
  | missing | readFails | kept => rfl
  | writeFails _ _ _ hreal => cases hreal
  | written _ _ _ hreal => cases hreal

theorem VisitedAll.eq_of_dryRun (h : VisitedAll table true paths store visits last) :
    last = store := by
  induction h with
  | nil => rfl
  | cons hfirst _ ih => exact ih.trans hfirst.eq_of_dryRun

theorem Visited.get?_self (h : Visited table false path store visit next) :
    next.get? path =
      if store.IsOpen path then table.migratedAt (store.get? path) else store.get? path := by
  cases h with
  | missing hget => simp [hget, Table.migratedAt]
  | readFails hget hread =>
      have hclosed : ¬ store.IsOpen path := fun hopen => hopen.1 hread
      rw [if_neg hclosed]
  | @kept before hget hread hkept =>
      have hchanged : (table.migrate before).changed = false := by simpa using hkept
      simp [hget, Table.migratedAt, Table.migrate_text_of_unchanged hchanged]
  | writeFails hget hread hchanged hreal hwrite =>
      have hclosed : ¬ store.IsOpen path := fun hopen => hopen.2 hwrite
      rw [if_neg hclosed]
  | @written before hget hread hchanged hreal hwrite =>
      have hopen : store.IsOpen path := ⟨hread, hwrite⟩
      have hinsert := store.get?_insert path path (table.migrate before).text
      rw [if_pos (beq_self_eq_true _)] at hinsert
      rw [if_pos hopen, hget]
      exact hinsert

theorem Visited.get?_eq (h : Visited table false path store visit next) (file : Path) :
    next.get? file = if path.sameAs file ∧ store.IsOpen file then
      table.migratedAt (store.get? file) else store.get? file := by
  by_cases hsame : path.components = file.components
  · have hself := h.get?_self
    simp only [get?_congr next hsame, get?_congr store hsame, IsOpen, hsame] at hself
    simpa [Path.sameAs, hsame, IsOpen] using hself
  · have hother := (h.agreeOn (Ne.symm hsame)).get?_eq
    simp [Path.sameAs, hsame, hother]

theorem VisitedAll.get?_eq (h : VisitedAll table false paths store visits last) (file : Path) :
    last.get? file = if (∃ listed ∈ paths, listed.sameAs file) ∧ store.IsOpen file then
      table.migratedAt (store.get? file) else store.get? file := by
  induction h with
  | nil store => simp
  | @cons path paths store next last visit visits hfirst hrest ih =>
      rw [ih, hfirst.get?_eq file]
      simp only [hfirst.later.isOpen_iff]
      by_cases hopen : store.IsOpen file
      · by_cases hpath : path.sameAs file = true
        · -- listed here, and perhaps again below: once migrated, a text stays
          simp [hopen, hpath, table.migratedAt_migratedAt]
        · simp [hopen, hpath]
      · simp [hopen]

/-! ## The log of writes -/

/-- A real visit writes exactly if it reports an update. -/
theorem Visited.writes_eq (h : Visited table false path store visit next) :
    next.writes = store.writes ++ if visit.1.status = .updated then [path] else [] := by
  cases h with
  | missing | readFails | writeFails => exact (List.append_nil _).symm
  | @kept before hget hread hkept =>
      have hchanged : (table.migrate before).changed = false := by simpa using hkept
      simp [FileResult.status_ofMigrated, hchanged]
  | written hget hread hchanged => simp [FileResult.status_ofMigrated, hchanged]

theorem VisitedAll.writes_eq (h : VisitedAll table false paths store visits last) :
    last.writes = store.writes ++ FileResult.updatedPaths (visits.map Prod.fst) := by
  induction h with
  | nil store => exact (List.append_nil _).symm
  | @cons path paths store next last visit visits hfirst hrest ih =>
      rw [ih, hfirst.writes_eq, List.map_cons, FileResult.updatedPaths_cons, hfirst.path_eq,
        List.append_assoc]

/-- What is updated is settled from then on. -/
theorem Visited.settled (h : Visited table false path store visit next)
    (hupdated : visit.1.status = .updated) :
    ∃ text, next.get? path = some text ∧ (table.migrate text).changed = false := by
  cases h with
  | missing | readFails | writeFails => cases hupdated
  | @kept before hget hread hkept =>
      have hchanged : (table.migrate before).changed = false := by simpa using hkept
      simp [FileResult.status_ofMigrated, hchanged] at hupdated
  | @written before hget hread hchanged hreal hwrite =>
      have hinsert := store.get?_insert path path (table.migrate before).text
      rw [if_pos (beq_self_eq_true _)] at hinsert
      exact ⟨_, hinsert, by rw [table.migrate_migrate]⟩

theorem Visited.not_updated (h : Visited table false path store visit next) {text : String}
    (hget : store.get? path = some text) (hsettled : (table.migrate text).changed = false) :
    visit.1.status ≠ .updated := by
  intro hupdated
  cases h with
  | missing | readFails | writeFails => cases hupdated
  | @kept before hbefore | @written before hbefore =>
      obtain rfl : text = before := Option.some.inj (hget.symm.trans hbefore)
      simp [FileResult.status_ofMigrated, hsettled] at hupdated

theorem VisitedAll.not_updated (h : VisitedAll table false paths store visits last) {text : String}
    (hget : store.get? file = some text) (hsettled : (table.migrate text).changed = false) :
    ∀ path ∈ FileResult.updatedPaths (visits.map Prod.fst), file.components ≠ path.components := by
  induction h with
  | nil store => simp [FileResult.updatedPaths]
  | @cons path paths store next last visit visits hfirst hrest ih =>
      intro updated hmem hsame
      rw [List.map_cons, FileResult.updatedPaths_cons, List.mem_append, hfirst.path_eq] at hmem
      rcases hmem with hhere | hbelow
      · split at hhere
        · rename_i hupdated
          obtain rfl : updated = path := List.mem_singleton.mp hhere
          exact hfirst.not_updated (get?_congr store hsame ▸ hget) hsettled hupdated
        · cases hhere
      · exact ih (hfirst.later.get?_of_unchanged hget hsettled) updated hbelow hsame

/-- No file is updated twice in a run. -/
theorem VisitedAll.pairwise_updatedPaths (h : VisitedAll table false paths store visits last) :
    (FileResult.updatedPaths (visits.map Prod.fst)).Pairwise
      fun path later => path.components ≠ later.components := by
  induction h with
  | nil store => exact .nil
  | @cons path paths store next last visit visits hfirst hrest ih =>
      rw [List.map_cons, FileResult.updatedPaths_cons, hfirst.path_eq]
      split
      · rename_i hupdated
        obtain ⟨text, hget, hsettled⟩ := hfirst.settled hupdated
        exact .cons (hrest.not_updated hget hsettled) ih
      · exact ih

/-! ## The whole batch -/

theorem runBatch_of_rejected {clock : Clock (StateM MemoryStore)} {migration : Migration}
    {cause : TableError} (htable : migration.table = .error cause) (dryRun : Bool)
    (tool : ToolInfo) (root : Path) (store : MemoryStore) :
    ((source root).runBatch clock tool migration dryRun).run store =
      (.error (.invalidMigration migration.name cause), store) := by
  rw [SourceStore.runBatch, htable]
  rfl

/-- **The final state of a batch.**  A migration without a valid table is refused,
and the store stays as it is.  Otherwise there is one result for each entry of the
list, in order.  A dry run leaves the store as it is.  After a real run, a path holds
what the table makes of its text if it is listed under some spelling and can be read
and written, and what it held before in all other cases; the log of writes has grown
by the paths of the updated results, and no two of these are the same path. -/
theorem runBatch_final {clock : Clock (StateM MemoryStore)} (hclock : clock.Passive)
    (migration : Migration) (dryRun : Bool) (tool : ToolInfo) (root : Path)
    (store : MemoryStore) :
    (∀ cause, migration.table = .error cause →
      ((source root).runBatch clock tool migration dryRun).run store =
        (.error (.invalidMigration migration.name cause), store)) ∧
    ∀ table, migration.table = .ok table → ∃ (outcome : BatchOutcome) (last : MemoryStore),
      ((source root).runBatch clock tool migration dryRun).run store = (.ok outcome, last) ∧
      outcome.run.results.map FileResult.path = migration.files.map Path.text ∧
      (dryRun = true → last = store) ∧
      (dryRun = false →
        (∀ path : Path, last.get? path =
          if (∃ listed ∈ migration.files, listed.sameAs path) ∧
              path.components ∉ store.failingReads ∧ path.components ∉ store.failingWrites then
            (store.get? path).map fun before => (table.migrate before).text
          else store.get? path) ∧
        last.writes = store.writes ++ FileResult.updatedPaths outcome.run.results ∧
        (FileResult.updatedPaths outcome.run.results).Pairwise
          fun path later => path.components ≠ later.components) := by
  refine ⟨fun cause htable => runBatch_of_rejected htable dryRun tool root store, ?_⟩
  intro table htable
  obtain ⟨visits, last, hvisits⟩ := exists_visitedAll table dryRun migration.files store
  obtain ⟨outcome, hreports, hrun⟩ := hvisits.runBatch_run hclock htable root tool
  refine ⟨outcome, last, hrun, ?_, ?_, ?_⟩
  · rw [hreports.results_eq, hvisits.paths_eq]
  · rintro rfl
    exact hvisits.eq_of_dryRun
  · rintro rfl
    rw [hreports.results_eq]
    exact ⟨hvisits.get?_eq, hvisits.writes_eq, hvisits.pairwise_updatedPaths⟩

theorem runBatch_final_mixed :
    let migration : Migration :=
      ⟨"rounds", "import p;", [⟨"A.B", "C.D"⟩], [⟨"b"⟩, ⟨"d/a"⟩, ⟨"c"⟩, ⟨"d//a"⟩]⟩
    let store := (((empty ⟨"r"⟩).insert ⟨"d/a"⟩ "A.B").insert ⟨"c"⟩ "A.B").failWrite ⟨"c"⟩
    let clock : Clock (StateM MemoryStore) := .fixed ⟨⟨2024, 1, 1, 0, 0, 0, 0⟩, by decide⟩ "run"
    let batch := (source ⟨"r"⟩).runBatch clock ⟨"tool", none⟩
    (batch { migration with patterns := [] } false).run store =
      (.error (.invalidMigration "rounds" .noEntries), store) ∧
    ∃ (outcome : BatchOutcome) (last : MemoryStore),
      (batch migration false).run store = (.ok outcome, last) ∧
      outcome.run.results.map FileResult.status = [.missing, .updated, .errored, .unchanged] ∧
      last.get? ⟨"d///a"⟩ = some "C.D" ∧ last.get? ⟨"c"⟩ = some "A.B" ∧ last.get? ⟨"b"⟩ = none ∧
      last.writes = FileResult.updatedPaths outcome.run.results := by
  intro migration store clock batch
  have hpassive : clock.Passive := Clock.passive_fixed _ _
  have hrejected : ({ migration with patterns := [] } : Migration).table = .error .noEntries := by
    rw [Migration.table, Table.ofEntries, dif_neg (by decide +kernel)]
    rfl
  have hstatuses : ((batch migration false).run store).1.toOption.map
      (fun outcome => outcome.run.results.map FileResult.status) =
        some [.missing, .updated, .errored, .unchanged] := by
    decide +kernel
  have haccepted : migration.table.toOption.map (fun table => (table.migrate "A.B").text) =
      some "C.D" := by
    decide +kernel
  obtain ⟨table, htable, hmigrated⟩ := exists_ok_of_toOption_map haccepted
  obtain ⟨outcome, last, hrun, -, -, hreal⟩ :=
    (runBatch_final hpassive migration false ⟨"tool", none⟩ ⟨"r"⟩ store).2 table htable
  obtain ⟨hget, hwrites, -⟩ := hreal rfl
  rw [hrun] at hstatuses
  refine ⟨?_, outcome, last, hrun, Option.some.inj hstatuses, ?_, ?_, ?_, hwrites⟩
  · exact (runBatch_final hpassive _ false ⟨"tool", none⟩ ⟨"r"⟩ store).1 _ hrejected
  · have hbefore : store.get? ⟨"d///a"⟩ = some "A.B" := by decide +kernel
    rw [hget, if_pos (by decide +kernel), hbefore, Option.map_some, hmigrated]
  · rw [hget, if_neg (by decide +kernel)]
    decide +kernel
  · have hbefore : store.get? ⟨"b"⟩ = none := by decide +kernel
    rw [hget, hbefore]
    rfl

end MemoryStore

end EnumMigration
