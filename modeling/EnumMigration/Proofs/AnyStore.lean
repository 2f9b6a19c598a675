import EnumMigration.Proofs.Visits

/-!
# Batches over any store

Some things hold of a batch whatever its store does.  A migration with a valid table is always
carried through: there is one result for each listed file, in order, and the exit code tells whether
one of them is a failure.  A dry run never writes, so it leaves a store alone whose reads do.
-/

namespace EnumMigration

/-- The part of a run record that is fixed before the first file. -/
structure RunRecord.Headed (run : RunRecord) (tool : ToolInfo) (root : Path) (migration : Migration)
    (dryRun : Bool) : Prop where
  schema_eq : run.schema = schemaName
  tool_eq : run.tool = tool
  root_eq : run.root = root.text
  migration_eq : run.migration = migration.name
  dryRun_eq : run.dryRun = dryRun

theorem FileResult.path_ofMigrated (path : Path) (before : String) (migrated : Migrated) :
    (ofMigrated path before migrated).1.path = path.text := by
  unfold ofMigrated
  split <;> rfl

theorem BatchOutcome.Reports.ended {outcome : BatchOutcome} {visits : List (FileResult × String)}
    (h : outcome.Reports visits) (time : Timestamp) :
    BatchOutcome.Reports { outcome with run := { outcome.run with endedAt := some time } } visits :=
  ⟨h.results_eq, h.summary_eq, h.patch_eq⟩

namespace SourceStore

variable {σ : Type}

/-- Looking into the store leaves the state alone. -/
structure Quiet (store : SourceStore (StateM σ)) : Prop where
  holds_run : ∀ path state, ((store.holds path).run state).2 = state
  read_run : ∀ path state, ((store.read path).run state).2 = state

/-- How a listed file ends on any store: what was looked up, read and written, one after
the other, and what is reported. -/
inductive Processed (store : SourceStore (StateM σ)) (table : Table) (dryRun : Bool) (path : Path)
    (state : σ) : FileResult × String → σ → Prop
  | missing {next : σ} (hholds : (store.holds path).run state = (false, next)) :
      Processed store table dryRun path state (.missing path.text, "") next
  | unread {looked next : σ} {e : StoreError}
      (hholds : (store.holds path).run state = (true, looked))
      (hread : (store.read path).run looked = (.error e, next)) :
      Processed store table dryRun path state (.errored path.text e.message, "") next
  | kept {looked next : σ} {before : String}
      (hholds : (store.holds path).run state = (true, looked))
      (hread : (store.read path).run looked = (.ok before, next))
      (hkept : (table.migrate before).changed = true → dryRun = true) :
      Processed store table dryRun path state
        (FileResult.ofMigrated path before (table.migrate before)) next
  | unwritten {looked opened next : σ} {before : String} {e : StoreError}
      (hholds : (store.holds path).run state = (true, looked))
      (hread : (store.read path).run looked = (.ok before, opened)) (hreal : dryRun = false)
      (hwrite : (store.write path (table.migrate before).text).run opened = (.error e, next)) :
      Processed store table dryRun path state (.errored path.text e.message, "") next
  | written {looked opened next : σ} {before : String}
      (hholds : (store.holds path).run state = (true, looked))
      (hread : (store.read path).run looked = (.ok before, opened)) (hreal : dryRun = false)
      (hwrite : (store.write path (table.migrate before).text).run opened = (.ok (), next)) :
      Processed store table dryRun path state
        (FileResult.ofMigrated path before (table.migrate before)) next

/-- How a list of files ends on any store, one after the other. -/
inductive ProcessedAll (store : SourceStore (StateM σ)) (table : Table) (dryRun : Bool) :
    List Path → σ → List (FileResult × String) → σ → Prop
  | nil (state : σ) : ProcessedAll store table dryRun [] state [] state
  | cons {path : Path} {paths : List Path} {state next last : σ} {visit : FileResult × String}
      {visits : List (FileResult × String)}
      (hfirst : store.Processed table dryRun path state visit next)
      (hrest : ProcessedAll store table dryRun paths next visits last) :
      ProcessedAll store table dryRun (path :: paths) state (visit :: visits) last

section Files

variable {store : SourceStore (StateM σ)} {table : Table} {dryRun : Bool} {path : Path}
  {paths : List Path} {state next last : σ} {visit : FileResult × String}
  {visits : List (FileResult × String)}

/-! ## One file -/

theorem Quiet.looked_eq (hquiet : store.Quiet) {found : Bool}
    (h : (store.holds path).run state = (found, next)) : next = state := by
  have hsame := hquiet.holds_run path state
  rwa [h] at hsame

theorem Quiet.opened_eq (hquiet : store.Quiet) {text : Except StoreError String}
    (h : (store.read path).run state = (text, next)) : next = state := by
  have hsame := hquiet.read_run path state
  rwa [h] at hsame

theorem processed_of_run
    (h : (store.processFile table dryRun path).run state = (visit, next)) :
    store.Processed table dryRun path state visit next := by
  unfold processFile at h
  obtain ⟨found, looked, hholds⟩ : ∃ found next, (store.holds path).run state = (found, next) :=
    ⟨_, _, rfl⟩
  rw [run_bind_of_run_eq hholds] at h
  cases found with
  | false =>
      cases h
      exact .missing hholds
  | true =>
      obtain ⟨text, opened, hread⟩ : ∃ text next, (store.read path).run looked = (text, next) :=
        ⟨_, _, rfl⟩
      rw [if_pos rfl, run_bind_of_run_eq hread] at h
      cases text with
      | error e =>
          cases h
          exact .unread hholds hread
      | ok before =>
          dsimp only at h
          split at h
          · rename_i hwrites
            have hreal : dryRun = false := by simp_all
            obtain ⟨written, last, hwrite⟩ : ∃ written next,
                (store.write path (table.migrate before).text).run opened = (written, next) :=
              ⟨_, _, rfl⟩
            rw [run_bind_of_run_eq hwrite] at h
            cases written with
            | error e =>
                cases h
                exact .unwritten hholds hread hreal hwrite
            | ok _ =>
                cases h
                exact .written hholds hread hreal hwrite
          · rename_i hskips
            cases h
            exact .kept hholds hread (by simpa using hskips)

theorem Processed.path_eq (h : store.Processed table dryRun path state visit next) :
    visit.1.path = path.text := by
  cases h with
  | missing | unread | unwritten => rfl
  | kept | written => exact FileResult.path_ofMigrated path _ _

/-- In a dry run a file is looked up and read at most. -/
theorem Processed.eq_of_dryRun (h : store.Processed table true path state visit next)
    (hquiet : store.Quiet) : next = state := by
  cases h with
  | missing hholds => exact hquiet.looked_eq hholds
  | unread hholds hread => exact (hquiet.opened_eq hread).trans (hquiet.looked_eq hholds)
  | kept hholds hread => exact (hquiet.opened_eq hread).trans (hquiet.looked_eq hholds)
  | unwritten _ _ hreal => cases hreal
  | written _ _ hreal => cases hreal

/-! ## A list of files -/

theorem ProcessedAll.paths_eq (h : store.ProcessedAll table dryRun paths state visits last) :
    (visits.map Prod.fst).map FileResult.path = paths.map Path.text := by
  induction h with
  | nil => rfl
  | cons hfirst _ ih => simp only [List.map_cons, hfirst.path_eq, ih]

theorem ProcessedAll.eq_of_dryRun (h : store.ProcessedAll table true paths state visits last)
    (hquiet : store.Quiet) : last = state := by
  induction h with
  | nil => rfl
  | cons hfirst _ ih => exact ih.trans (hfirst.eq_of_dryRun hquiet)

end Files

variable (store : SourceStore (StateM σ)) (table : Table) (dryRun : Bool)

theorem processFiles_run (paths : List Path) {outcome : BatchOutcome}
    {earlier : List (FileResult × String)} (reports : outcome.Reports earlier) {tool : ToolInfo}
    {root : Path} {migration : Migration} (headed : outcome.run.Headed tool root migration dryRun)
    (state : σ) :
    ∃ (final : BatchOutcome) (visits : List (FileResult × String)) (last : σ),
      (store.processFiles table dryRun paths outcome).run state = (final, last) ∧
      store.ProcessedAll table dryRun paths state visits last ∧
      final.Reports (earlier ++ visits) ∧ final.run.Headed tool root migration dryRun := by
  induction paths generalizing outcome earlier state with
  | nil => exact ⟨outcome, [], state, rfl, .nil state, by simpa using reports, headed⟩
  | cons path paths ih =>
      obtain ⟨visit, next, hvisit⟩ : ∃ visit next,
          (store.processFile table dryRun path).run state = (visit, next) := ⟨_, _, rfl⟩
      have hheaded : (outcome.run.record visit.1).Headed tool root migration dryRun :=
        ⟨headed.schema_eq, headed.tool_eq, headed.root_eq, headed.migration_eq, headed.dryRun_eq⟩
      obtain ⟨final, visits, last, hrun, hrest, hreports, hfinal⟩ :=
        ih (reports.record visit) hheaded next
      refine ⟨final, visit :: visits, last, ?_, .cons (processed_of_run hvisit) hrest, ?_, hfinal⟩
      · exact (run_bind_of_run_eq hvisit).trans hrun
      · simpa using hreports

/-! ## A whole batch -/

/-- A batch with a valid table goes through its files, between two looks at the clock. -/
theorem runBatch_run (clock : Clock (StateM σ)) (tool : ToolInfo) {migration : Migration}
    (htable : migration.table = .ok table) (state : σ) :
    ∃ (started : RunRecord) (begun : σ), started.Headed tool store.root migration dryRun ∧
      BatchOutcome.Reports ⟨started, ""⟩ [] ∧ (clock.Passive → begun = state) ∧
      ∀ final ran,
        (store.processFiles table dryRun migration.files ⟨started, ""⟩).run begun = (final, ran) →
        ∃ time last, (store.runBatch clock tool migration dryRun).run state =
          (.ok { final with run := { final.run with endedAt := some time } }, last) ∧
          (clock.Passive → last = ran) := by
  obtain ⟨runId, named, hid⟩ : ∃ runId next, clock.freshId.run state = (runId, next) :=
    ⟨_, _, rfl⟩
  obtain ⟨now, begun, hnow⟩ : ∃ now next, clock.now.run named = (now, next) := ⟨_, _, rfl⟩
  let started := RunRecord.start runId now tool store.root.text migration.name
  refine ⟨{ started with dryRun }, begun, ⟨rfl, rfl, rfl, rfl, rfl⟩, ⟨rfl, rfl, rfl⟩, ?_, ?_⟩
  · intro hclock
    have hnamed := hclock.freshId_run state
    have hbegun := hclock.now_run named
    rw [hid] at hnamed
    rw [hnow] at hbegun
    exact hbegun.trans hnamed
  · intro final ran hrun
    obtain ⟨time, last, hended⟩ : ∃ time next, clock.now.run ran = (time, next) := ⟨_, _, rfl⟩
    refine ⟨time, last, ?_, ?_⟩
    · rw [SourceStore.runBatch, htable]
      calc
        _ = _ := run_bind_of_run_eq hid
        _ = _ := run_bind_of_run_eq hnow
        _ = _ := run_bind_of_run_eq hrun
        _ = _ := run_bind_of_run_eq hended
    · intro hclock
      have hlast := hclock.now_run ran
      rwa [hended] at hlast

/-- A migration with a valid table is carried through on every store. -/
theorem runBatch_carries {clock : Clock (StateM σ)} (hclock : clock.Passive) (tool : ToolInfo)
    {migration : Migration} (htable : migration.table = .ok table) (state : σ) :
    ∃ (outcome : BatchOutcome) (visits : List (FileResult × String)) (last : σ),
      (store.runBatch clock tool migration dryRun).run state = (.ok outcome, last) ∧
      store.ProcessedAll table dryRun migration.files state visits last ∧
      outcome.Reports visits ∧ outcome.run.Headed tool store.root migration dryRun := by
  obtain ⟨started, begun, hstarted, hempty, hbegun, hbatch⟩ :=
    store.runBatch_run table dryRun clock tool htable state
  obtain rfl := hbegun hclock
  obtain ⟨final, visits, ran, hrun, hprocessed, hreports, hheaded⟩ :=
    store.processFiles_run table dryRun migration.files hempty hstarted begun
  obtain ⟨time, last, hlast, hsame⟩ := hbatch final ran hrun
  obtain rfl := hsame hclock
  exact ⟨_, visits, last, hlast, hprocessed, hreports.ended time, hheaded.schema_eq,
    hheaded.tool_eq, hheaded.root_eq, hheaded.migration_eq, hheaded.dryRun_eq⟩

end SourceStore

end EnumMigration
