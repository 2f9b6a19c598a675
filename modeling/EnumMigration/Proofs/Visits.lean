import EnumMigration.Batch
import EnumMigration.Store.Memory
import EnumMigration.Proofs.Computations

/-!
# What a batch does to a store in memory

A batch is written for any store, in any monad.  Over a store in memory a file
that is listed ends in one of five ways, and only one of them changes the store.
`Visited` lists the five with everything that has to hold for them,
`VisitedAll` follows a list of files, and `runBatch_run` says that a batch
visits its files in order and reports the results of the visits.  What is proved
about batches in memory is proved by cases on `Visited` and by induction on
`VisitedAll`.  `contributions` names the results and patches of a list without
reference to the visits.
-/

namespace EnumMigration

/-- Reading the clock leaves the state alone. -/
structure Clock.Passive {σ : Type} (clock : Clock (StateM σ)) : Prop where
  now_run : ∀ state, (clock.now.run state).2 = state
  freshId_run : ∀ state, (clock.freshId.run state).2 = state

theorem Clock.passive_fixed {σ : Type} (time : Timestamp) (runId : String) :
    (Clock.fixed time runId : Clock (StateM σ)).Passive :=
  ⟨fun _ => rfl, fun _ => rfl⟩

/-! ## Summaries -/

theorem FileStatus.isFailure_iff {status : FileStatus} :
    status.isFailure = true ↔ status = .missing ∨ status = .errored := by
  cases status <;> decide

namespace RunSummary

/-- The number of results with a given status. -/
def tally (summary : RunSummary) : FileStatus → Nat
  | .updated => summary.updated
  | .unchanged => summary.unchanged
  | .missing => summary.missing
  | .errored => summary.errored

theorem tally_record (summary : RunSummary) (recorded status : FileStatus) :
    (summary.record recorded).tally status =
      summary.tally status + if recorded = status then 1 else 0 := by
  cases recorded <;> cases status <;> rfl

theorem tally_foldl_record (statuses : List FileStatus) (summary : RunSummary)
    (status : FileStatus) :
    (statuses.foldl record summary).tally status =
      summary.tally status + statuses.count status := by
  induction statuses generalizing summary with
  | nil => rfl
  | cons first rest ih =>
      rw [List.foldl_cons, ih, tally_record, List.count_cons, Nat.add_assoc,
        Nat.add_comm (List.count status rest)]
      simp only [beq_iff_eq]

theorem hasFailures_record (summary : RunSummary) (status : FileStatus) :
    (summary.record status).hasFailures = (summary.hasFailures || status.isFailure) := by
  cases status with
  | updated | unchanged => exact (Bool.or_false _).symm
  | missing | errored => simp [hasFailures, record, FileStatus.isFailure]

theorem hasFailures_foldl_record (statuses : List FileStatus) (summary : RunSummary) :
    (statuses.foldl record summary).hasFailures =
      (summary.hasFailures || statuses.any FileStatus.isFailure) := by
  induction statuses generalizing summary with
  | nil => simp
  | cons first rest ih =>
      rw [List.foldl_cons, ih, hasFailures_record, List.any_cons, Bool.or_assoc]

end RunSummary

/-- An outcome that reports the results of some visits, and their patches behind
each other. -/
structure BatchOutcome.Reports (outcome : BatchOutcome) (visits : List (FileResult × String)) :
    Prop where
  results_eq : outcome.run.results = visits.map Prod.fst
  summary_eq : outcome.run.summary =
    (visits.map fun visit => visit.1.status).foldl RunSummary.record .empty
  patch_eq : outcome.patch = String.join (visits.map Prod.snd)

namespace BatchOutcome.Reports

theorem record {outcome : BatchOutcome} {visits : List (FileResult × String)}
    (h : outcome.Reports visits) (visit : FileResult × String) :
    BatchOutcome.Reports ⟨outcome.run.record visit.1, outcome.patch ++ visit.2⟩
      (visits ++ [visit]) where
  results_eq := by simp [RunRecord.record, h.results_eq]
  summary_eq := by simp [RunRecord.record, h.summary_eq]
  patch_eq := by simp [h.patch_eq]

theorem updated_eq {outcome : BatchOutcome} {visits : List (FileResult × String)}
    (h : outcome.Reports visits) :
    outcome.run.summary.updated = (visits.map fun visit => visit.1.status).count .updated := by
  have htally := RunSummary.tally_foldl_record (visits.map fun visit => visit.1.status) .empty
    .updated
  rw [← h.summary_eq] at htally
  exact htally.trans (Nat.zero_add _)

theorem patch_eq_empty {outcome : BatchOutcome} {visits : List (FileResult × String)}
    (h : outcome.Reports visits) (hempty : ∀ visit ∈ visits, visit.2 = "") :
    outcome.patch = "" := by
  rw [h.patch_eq]
  clear h
  induction visits with
  | nil => rfl
  | cons visit visits ih =>
      obtain ⟨hfirst, hrest⟩ := List.forall_mem_cons.mp hempty
      simpa [hfirst] using ih hrest

theorem exitCode_eq {outcome : BatchOutcome} {visits : List (FileResult × String)}
    (h : outcome.Reports visits) :
    outcome.exitCode = if visits.any fun visit => visit.1.status.isFailure then 2 else 0 := by
  rw [BatchOutcome.exitCode, h.summary_eq, RunSummary.hasFailures_foldl_record, List.any_map]
  rfl

end BatchOutcome.Reports

/-! ## Visits -/

namespace MemoryStore

/-- How a listed file ends: its result, its patch, and the store after it. -/
inductive Visited (table : Table) (dryRun : Bool) (path : Path) (store : MemoryStore) :
    FileResult × String → MemoryStore → Prop
  | missing (hget : store.get? path = none) :
      Visited table dryRun path store (.missing path.text, "") store
  | readFails {before : String} (hget : store.get? path = some before)
      (hread : path.components ∈ store.failingReads) :
      Visited table dryRun path store
        (.errored path.text (StoreError.readFails path).message, "") store
  | kept {before : String} (hget : store.get? path = some before)
      (hread : path.components ∉ store.failingReads)
      (hkept : (table.migrate before).changed = true → dryRun = true) :
      Visited table dryRun path store
        (FileResult.ofMigrated path before (table.migrate before)) store
  | writeFails {before : String} (hget : store.get? path = some before)
      (hread : path.components ∉ store.failingReads)
      (hchanged : (table.migrate before).changed = true) (hreal : dryRun = false)
      (hwrite : path.components ∈ store.failingWrites) :
      Visited table dryRun path store
        (.errored path.text (StoreError.writeFails path).message, "") store
  | written {before : String} (hget : store.get? path = some before)
      (hread : path.components ∉ store.failingReads)
      (hchanged : (table.migrate before).changed = true) (hreal : dryRun = false)
      (hwrite : path.components ∉ store.failingWrites) :
      Visited table dryRun path store
        (FileResult.ofMigrated path before (table.migrate before))
        { store.insert path (table.migrate before).text with writes := store.writes ++ [path] }

/-- How a list of files ends, one after the other. -/
inductive VisitedAll (table : Table) (dryRun : Bool) :
    List Path → MemoryStore → List (FileResult × String) → MemoryStore → Prop
  | nil (store : MemoryStore) : VisitedAll table dryRun [] store [] store
  | cons {path : Path} {paths : List Path} {store next last : MemoryStore}
      {visit : FileResult × String} {visits : List (FileResult × String)}
      (hfirst : Visited table dryRun path store visit next)
      (hrest : VisitedAll table dryRun paths next visits last) :
      VisitedAll table dryRun (path :: paths) store (visit :: visits) last

variable {table : Table} {dryRun : Bool}

theorem exists_visited (table : Table) (dryRun : Bool) (path : Path) (store : MemoryStore) :
    ∃ visit next, Visited table dryRun path store visit next := by
  cases hget : store.get? path with
  | none => exact ⟨_, _, .missing hget⟩
  | some before =>
      by_cases hread : path.components ∈ store.failingReads
      · exact ⟨_, _, .readFails hget hread⟩
      · by_cases hkept : (table.migrate before).changed = true → dryRun = true
        · exact ⟨_, _, .kept hget hread hkept⟩
        · obtain ⟨hchanged, hdry⟩ := Classical.not_imp.mp hkept
          have hreal : dryRun = false := Bool.not_eq_true dryRun ▸ hdry
          by_cases hwrite : path.components ∈ store.failingWrites
          · exact ⟨_, _, .writeFails hget hread hchanged hreal hwrite⟩
          · exact ⟨_, _, .written hget hread hchanged hreal hwrite⟩

theorem exists_visitedAll (table : Table) (dryRun : Bool) (paths : List Path)
    (store : MemoryStore) : ∃ visits last, VisitedAll table dryRun paths store visits last := by
  induction paths generalizing store with
  | nil => exact ⟨_, _, .nil store⟩
  | cons path paths ih =>
      obtain ⟨visit, next, hfirst⟩ := exists_visited table dryRun path store
      obtain ⟨visits, last, hrest⟩ := ih next
      exact ⟨_, _, .cons hfirst hrest⟩

theorem Visited.path_eq {path : Path} {store next : MemoryStore} {visit : FileResult × String}
    (h : Visited table dryRun path store visit next) : visit.1.path = path.text := by
  have hmigrated (before : String) (migrated : Migrated) :
      (FileResult.ofMigrated path before migrated).1.path = path.text := by
    unfold FileResult.ofMigrated
    split <;> rfl
  cases h with
  | missing | readFails | writeFails => rfl
  | kept | written => exact hmigrated _ _

theorem VisitedAll.paths_eq {paths : List Path} {store last : MemoryStore}
    {visits : List (FileResult × String)} (h : VisitedAll table dryRun paths store visits last) :
    (visits.map Prod.fst).map FileResult.path = paths.map Path.text := by
  induction h with
  | nil => rfl
  | cons hfirst _ ih => simp only [List.map_cons, hfirst.path_eq, ih]

/-! ## A batch is its visits -/

theorem Visited.processFile_run {path : Path} {store next : MemoryStore}
    {visit : FileResult × String} (h : Visited table dryRun path store visit next) (root : Path) :
    ((source root).processFile table dryRun path).run store = (visit, next) := by
  cases h with
  | missing hget =>
      simp [SourceStore.processFile, source, holds, hget]
      rfl
  | readFails hget hread =>
      simp [SourceStore.processFile, source, holds, read, hget, hread]
      rfl
  | @kept before hget hread hkept =>
      have hskip : ¬ ((table.migrate before).changed = true ∧ dryRun = false) := by grind
      simp [SourceStore.processFile, source, holds, read, hget, hread, hskip]
      rfl
  | writeFails hget hread hchanged hreal hwrite =>
      simp [SourceStore.processFile, source, holds, read, write, hget, hread, hchanged, hreal,
        hwrite]
      rfl
  | written hget hread hchanged hreal hwrite =>
      simp [SourceStore.processFile, source, holds, read, write, hget, hread, hchanged, hreal,
        hwrite]
      rfl

theorem VisitedAll.processFiles_run {paths : List Path} {store last : MemoryStore}
    {visits : List (FileResult × String)} (h : VisitedAll table dryRun paths store visits last)
    {outcome : BatchOutcome} {earlier : List (FileResult × String)}
    (reports : outcome.Reports earlier) (root : Path) :
    ∃ final : BatchOutcome, final.Reports (earlier ++ visits) ∧
      ((source root).processFiles table dryRun paths outcome).run store = (final, last) := by
  induction h generalizing outcome earlier with
  | nil store => exact ⟨outcome, by simpa using reports, rfl⟩
  | @cons _ _ _ _ _ visit _ hfirst _ ih =>
      obtain ⟨final, hreports, hrun⟩ := ih (reports.record visit)
      refine ⟨final, by simpa using hreports, ?_⟩
      exact (run_bind_of_run_eq (hfirst.processFile_run root)).trans hrun

theorem VisitedAll.runBatch_run {clock : Clock (StateM MemoryStore)} (passive : clock.Passive)
    {migration : Migration} (htable : migration.table = .ok table) {store last : MemoryStore}
    {visits : List (FileResult × String)}
    (h : VisitedAll table dryRun migration.files store visits last) (root : Path)
    (tool : ToolInfo) :
    ∃ outcome : BatchOutcome, outcome.Reports visits ∧
      ((source root).runBatch clock tool migration dryRun).run store = (.ok outcome, last) := by
  obtain ⟨runId, hid⟩ : ∃ runId, clock.freshId.run store = (runId, store) :=
    ⟨_, Prod.ext rfl (passive.freshId_run store)⟩
  obtain ⟨started, hstarted⟩ : ∃ started, clock.now.run store = (started, store) :=
    ⟨_, Prod.ext rfl (passive.now_run store)⟩
  obtain ⟨ended, hended⟩ : ∃ ended, clock.now.run last = (ended, last) :=
    ⟨_, Prod.ext rfl (passive.now_run last)⟩
  let record := RunRecord.start runId started tool root.text migration.name
  have hempty : BatchOutcome.Reports ⟨{ record with dryRun }, ""⟩ [] := ⟨rfl, rfl, rfl⟩
  obtain ⟨outcome, hreports, hrun⟩ := h.processFiles_run hempty root
  refine ⟨{ outcome with run := { outcome.run with endedAt := some ended } },
    ⟨hreports.results_eq, hreports.summary_eq, hreports.patch_eq⟩, ?_⟩
  rw [SourceStore.runBatch, htable]
  calc
    _ = _ := run_bind_of_run_eq hid
    _ = _ := run_bind_of_run_eq hstarted
    _ = _ := run_bind_of_run_eq hrun
    _ = _ := run_bind_of_run_eq hended

/-! ## What each file contributes -/

/-- The result of each file of a list and the patch that goes with it, the files
taken one after the other. -/
def contributions (root : Path) (table : Table) (dryRun : Bool) (paths : List Path)
    (store : MemoryStore) : List (FileResult × String) :=
  ((paths.mapM ((source root).processFile table dryRun)).run store).1

theorem VisitedAll.mapM_run {paths : List Path} {store last : MemoryStore}
    {visits : List (FileResult × String)} (h : VisitedAll table dryRun paths store visits last)
    (root : Path) :
    (paths.mapM ((source root).processFile table dryRun)).run store = (visits, last) := by
  induction h with
  | nil store => rfl
  | @cons path paths store next last visit visits hfirst hrest ih =>
      rw [List.mapM_cons]
      calc
        _ = _ := run_bind_of_run_eq (hfirst.processFile_run root)
        _ = _ := run_bind_of_run_eq ih

theorem VisitedAll.contributions_eq {paths : List Path} {store last : MemoryStore}
    {visits : List (FileResult × String)} (h : VisitedAll table dryRun paths store visits last)
    (root : Path) : contributions root table dryRun paths store = visits := by
  rw [contributions, h.mapM_run root]

/-- A list of files ends in one way only. -/
theorem VisitedAll.unique {paths : List Path} {store last last' : MemoryStore}
    {visits visits' : List (FileResult × String)}
    (h : VisitedAll table dryRun paths store visits last)
    (h' : VisitedAll table dryRun paths store visits' last') : visits = visits' ∧ last = last' := by
  -- nothing depends on the root
  have hruns := (h.mapM_run ⟨""⟩).symm.trans (h'.mapM_run ⟨""⟩)
  exact Prod.ext_iff.mp hruns

/-- The visit at one place of a list, with what was visited before it and after it. -/
theorem VisitedAll.at_index {paths : List Path} {store last : MemoryStore}
    {visits : List (FileResult × String)} (h : VisitedAll table dryRun paths store visits last)
    {i : Nat} {path : Path} (hpath : paths[i]? = some path) :
    ∃ (before after : MemoryStore) (visit : FileResult × String), visits[i]? = some visit ∧
      VisitedAll table dryRun (paths.take i) store (visits.take i) before ∧
      Visited table dryRun path before visit after ∧
      VisitedAll table dryRun (paths.drop (i + 1)) after (visits.drop (i + 1)) last := by
  induction h generalizing i with
  | nil store => simp at hpath
  | @cons _ paths store next last visit visits hfirst hrest ih =>
      cases i with
      | zero =>
          obtain rfl := Option.some.inj hpath
          exact ⟨store, next, visit, rfl, .nil store, hfirst, hrest⟩
      | succ i =>
          obtain ⟨before, after, found, hfound, hearlier, hvisit, hlater⟩ := ih hpath
          exact ⟨before, after, found, hfound, .cons hfirst hearlier, hvisit, hlater⟩

end MemoryStore

end EnumMigration
