import EnumMigration.Proofs.AnyStore
import EnumMigration.Proofs.DryRun

/-!
# The totals of a batch

The summary of a run counts its results by status, whatever the store of the run
does.  Over a store in memory the totals depend on which files are listed and how
often, but not on the order of the list.

The single results do depend on the order: of several entries of one file only the
first one can be updated.

## Strategy

For the summary it is enough that every record adds to one counter
(`BatchOutcome.accounted_of_summary`, `SourceStore.accounted_of_runBatch`).

Two lists with the same entries are compared by swapping neighbours.  Visits of
different files commute (`Visited.congr`).  Two visits of one file end alike, whichever
spelling comes first, since the second status follows from the first one
(`Visited.status_again`).  The stores that are reached need not be equal, as their logs
differ, but they hold the same texts (`VisitedAll.agrees_of_perm`), and the rest of the
list cannot tell them apart (`VisitedAll.congr`).
-/

namespace EnumMigration

/-! ## Summaries count results -/

namespace RunSummary

theorem examined_foldl_record (statuses : List FileStatus) (summary : RunSummary) :
    (statuses.foldl record summary).examined = summary.examined + statuses.length := by
  induction statuses generalizing summary with
  | nil => rfl
  | cons first rest ih =>
      have hrecord : (summary.record first).examined = summary.examined + 1 := by
        cases first <;> rfl
      rw [List.foldl_cons, ih, hrecord, List.length_cons]
      omega

/-- The number of results, added up from the four counters. -/
def total (summary : RunSummary) : Nat :=
  summary.updated + summary.unchanged + summary.missing + summary.errored

theorem total_foldl_record (statuses : List FileStatus) (summary : RunSummary) :
    (statuses.foldl record summary).total = summary.total + statuses.length := by
  induction statuses generalizing summary with
  | nil => rfl
  | cons first rest ih =>
      have hrecord : (summary.record first).total = summary.total + 1 := by
        cases first <;> simp only [total, record] <;> omega
      rw [List.foldl_cons, ih, hrecord, List.length_cons]
      omega

theorem foldl_record_perm {statuses others : List FileStatus} (hperm : statuses.Perm others)
    (summary : RunSummary) : statuses.foldl record summary = others.foldl record summary := by
  apply hperm.foldl_eq'
  intro first _ second _ counted
  cases first <;> cases second <;> rfl

end RunSummary

/-- An outcome whose summary counts its results, and whose exit code is 2 exactly if
one of them is a failure. -/
structure BatchOutcome.Accounted (outcome : BatchOutcome) : Prop where
  examined_eq : outcome.run.summary.examined = outcome.run.results.length
  tally_eq : ∀ status, outcome.run.summary.tally status =
    (outcome.run.results.map FileResult.status).count status
  total_eq : outcome.run.summary.total = outcome.run.summary.examined
  exitCode_iff : outcome.exitCode = 2 ↔
    ∃ result ∈ outcome.run.results, result.status = .missing ∨ result.status = .errored

theorem BatchOutcome.accounted_of_summary {outcome : BatchOutcome}
    (h : outcome.run.summary =
      (outcome.run.results.map FileResult.status).foldl RunSummary.record .empty) :
    outcome.Accounted := by
  generalize hstatuses : outcome.run.results.map FileResult.status = statuses at h
  have hexamined : outcome.run.summary.examined = statuses.length := by
    rw [h, RunSummary.examined_foldl_record]
    exact Nat.zero_add _
  have htotal : outcome.run.summary.total = statuses.length := by
    rw [h, RunSummary.total_foldl_record]
    exact Nat.zero_add _
  have hfailures : outcome.run.summary.hasFailures = statuses.any FileStatus.isFailure := by
    rw [h, RunSummary.hasFailures_foldl_record]
    rfl
  refine ⟨by simp [hexamined, ← hstatuses], ?_, htotal.trans hexamined.symm, ?_⟩
  · intro status
    rw [h, hstatuses, RunSummary.tally_foldl_record]
    cases status <;> exact Nat.zero_add _
  · have hany : statuses.any FileStatus.isFailure = true ↔
        ∃ result ∈ outcome.run.results, result.status = .missing ∨ result.status = .errored := by
      rw [← hstatuses, List.any_map, List.any_eq_true]
      simp only [Function.comp_apply, FileStatus.isFailure_iff]
    rw [exitCode, hfailures, ← hany]
    split <;> simp_all

/-- A new run has no results yet, and counts those that are recorded. -/
theorem RunRecord.results_foldl_record (results : List FileResult) (run : RunRecord) :
    (results.foldl record run).results = run.results ++ results ∧
      (results.foldl record run).summary =
        (results.map FileResult.status).foldl RunSummary.record run.summary := by
  induction results generalizing run with
  | nil => simp
  | cons result results ih =>
      obtain ⟨hresults, hsummary⟩ := ih (run.record result)
      refine ⟨?_, hsummary⟩
      rw [List.foldl_cons, hresults]
      simp [record]

/-- Whatever a store and a clock do, the outcome of a batch is accounted for. -/
theorem SourceStore.accounted_of_runBatch {σ : Type} {store : SourceStore (StateM σ)}
    {clock : Clock (StateM σ)} {tool : ToolInfo} {migration : Migration} {dryRun : Bool}
    {state last : σ} {outcome : BatchOutcome}
    (h : (store.runBatch clock tool migration dryRun).run state = (.ok outcome, last)) :
    outcome.Accounted := by
  cases htable : migration.table with
  | error cause =>
      -- the batch would not have begun
      rw [runBatch, htable] at h
      cases h
  | ok table =>
      obtain ⟨started, begun, hstarted, hempty, -, hbatch⟩ :=
        store.runBatch_run table dryRun clock tool htable state
      obtain ⟨final, visits, ran, hrun, -, hreports, -⟩ :=
        store.processFiles_run table dryRun migration.files hempty hstarted begun
      obtain ⟨time, ended, hended, -⟩ := hbatch final ran hrun
      cases h.symm.trans hended
      have hfinal := hreports.ended time
      apply BatchOutcome.accounted_of_summary
      rw [hfinal.summary_eq, hfinal.results_eq, List.map_map]
      rfl

namespace MemoryStore

variable {table : Table} {dryRun : Bool} {path other : Path} {paths others : List Path}
  {store store' next next' last last' : MemoryStore} {visit visit' : FileResult × String}
  {visits visits' : List (FileResult × String)}

/-! ## Stores with the same files -/

/-- Two stores that every file looks the same in. -/
def Agrees (store store' : MemoryStore) : Prop := ∀ path, AgreeOn path store store'

theorem Visited.congr_all (h : Visited table dryRun path store visit next)
    (hagree : store.Agrees store') :
    ∃ next', Visited table dryRun path store' visit next' ∧ next.Agrees next' := by
  obtain ⟨next', hvisit, hself⟩ := h.congr (hagree path)
  refine ⟨next', hvisit, fun file => ?_⟩
  by_cases hsame : file.components = path.components
  · exact hself.respell hsame
  · exact ((h.agreeOn hsame).symm.trans (hagree file)).trans (hvisit.agreeOn hsame)

/-- Stores with the same files cannot be told apart by the results of a list. -/
theorem VisitedAll.congr (h : VisitedAll table dryRun paths store visits last)
    (hagree : store.Agrees store') :
    ∃ last', VisitedAll table dryRun paths store' visits last' := by
  induction h generalizing store' with
  | nil store => exact ⟨store', .nil store'⟩
  | cons hfirst _ ih =>
      obtain ⟨next', hvisit, hnext⟩ := hfirst.congr_all hagree
      obtain ⟨last', hvisits⟩ := ih hnext
      exact ⟨last', .cons hvisit hvisits⟩

/-- What a list leaves in the files does not depend on its order. -/
theorem VisitedAll.agrees_of_perm (hperm : paths.Perm others)
    (h : VisitedAll table dryRun paths store visits last)
    (h' : VisitedAll table dryRun others store visits' last') : last.Agrees last' := by
  cases dryRun with
  | true =>
      rw [h.eq_of_dryRun, h'.eq_of_dryRun]
      exact fun path => .refl path store
  | false =>
      intro file
      refine ⟨?_, ?_, ?_⟩
      · rw [h.get?_eq file, h'.get?_eq file]
        simp only [hperm.mem_iff]
      · rw [h.later.failingReads_eq, h'.later.failingReads_eq]
      · rw [h.later.failingWrites_eq, h'.later.failingWrites_eq]

/-! ## Two neighbours -/

/-- The status of a file that was visited just before, under any spelling: in a real
run it is not updated again. -/
theorem Visited.status_again (h : Visited table dryRun path store visit next)
    (h' : Visited table dryRun other next visit' next')
    (hsame : path.components = other.components) :
    visit'.1.status =
      if dryRun = false ∧ visit.1.status = .updated then .unchanged else visit.1.status := by
  cases dryRun with
  | true =>
      obtain rfl := h.eq_of_dryRun
      obtain ⟨respelled, _, hvisit, hrespelled⟩ := h.respell hsame
      obtain ⟨rfl, -⟩ := h'.unique hvisit
      rw [if_neg (by simp), hrespelled.status_eq]
  | false =>
      obtain ⟨hupdated, hother⟩ := h.again_respelled (.refl table next) hsame h'
      by_cases hstatus : visit.1.status = .updated
      · rw [if_pos ⟨rfl, hstatus⟩, hupdated hstatus]
        rfl
      · rw [if_neg (fun hboth => hstatus hboth.2), hother hstatus]

/-- Two visits end with the same two statuses, whichever comes first. -/
theorem Visited.statuses_swap {mid mid' : MemoryStore}
    {first second first' second' : FileResult × String}
    (h : Visited table dryRun path store first mid)
    (hnext : Visited table dryRun other mid second last)
    (h' : Visited table dryRun other store first' mid')
    (hnext' : Visited table dryRun path mid' second' last') :
    [first.1.status, second.1.status].Perm [first'.1.status, second'.1.status] := by
  by_cases hsame : path.components = other.components
  · -- one file: the first status is the same, and the second one follows from it
    obtain ⟨respelled, _, hvisit, hrespelled⟩ := h.respell hsame
    obtain ⟨rfl, -⟩ := h'.unique hvisit
    rw [h.status_again hnext hsame, h'.status_again hnext' hsame.symm, hrespelled.status_eq]
  · -- two files: neither visit sees the other
    obtain ⟨_, hvisit, -⟩ := hnext.congr (h.agreeOn (Ne.symm hsame)).symm
    obtain ⟨rfl, -⟩ := h'.unique hvisit
    obtain ⟨_, hvisit', -⟩ := h.congr (h'.agreeOn hsame)
    obtain ⟨rfl, -⟩ := hnext'.unique hvisit'
    exact .swap _ _ _

/-! ## Whole lists -/

theorem VisitedAll.statuses_perm (hperm : paths.Perm others)
    (h : VisitedAll table dryRun paths store visits last)
    (h' : VisitedAll table dryRun others store visits' last') :
    (visits.map fun visit => visit.1.status).Perm (visits'.map fun visit => visit.1.status) := by
  induction hperm generalizing store visits last visits' last' with
  | nil =>
      cases h
      cases h'
      exact .nil
  | cons path _ ih =>
      cases h with
      | cons hfirst hrest =>
      cases h' with
      | cons hfirst' hrest' =>
      obtain ⟨rfl, rfl⟩ := hfirst.unique hfirst'
      exact (ih hrest hrest').cons _
  | swap path other rest =>
      cases h with
      | cons hfirst hrest =>
      cases hrest with
      | cons hsecond hrest =>
      cases h' with
      | cons hfirst' hrest' =>
      cases hrest' with
      | cons hsecond' hrest' =>
      have hagree := VisitedAll.agrees_of_perm (.swap path other [])
        (.cons hfirst (.cons hsecond (.nil _))) (.cons hfirst' (.cons hsecond' (.nil _)))
      obtain ⟨_, hsame⟩ := hrest.congr hagree
      obtain ⟨rfl, -⟩ := hrest'.unique hsame
      exact (hfirst.statuses_swap hsecond hfirst' hsecond').append_right _
  | @trans paths between others _ _ ih ih' =>
      obtain ⟨_, _, hbetween⟩ := exists_visitedAll table dryRun between store
      exact (ih h hbetween).trans (ih' hbetween h')

/-- Two lists with the same entries lead to the same totals and the same texts. -/
theorem runBatch_perm {first second : Clock (StateM MemoryStore)} (hfirst : first.Passive)
    (hsecond : second.Passive) {migration : Migration} (htable : migration.table = .ok table)
    {reordered : List Path} (hperm : reordered.Perm migration.files) (dryRun : Bool)
    (tool : ToolInfo) (root : Path) (store : MemoryStore) :
    ∃ (outcome outcome' : BatchOutcome) (last last' : MemoryStore),
      ((source root).runBatch first tool migration dryRun).run store = (.ok outcome, last) ∧
      ((source root).runBatch second tool { migration with files := reordered } dryRun).run store =
        (.ok outcome', last') ∧
      outcome'.run.summary = outcome.run.summary ∧ outcome'.exitCode = outcome.exitCode ∧
      ∀ path, last'.get? path = last.get? path := by
  obtain ⟨visits, last, hvisits⟩ := exists_visitedAll table dryRun migration.files store
  obtain ⟨visits', last', hvisits'⟩ := exists_visitedAll table dryRun reordered store
  obtain ⟨outcome, hreports, hrun⟩ := hvisits.runBatch_run hfirst htable root tool
  obtain ⟨outcome', hreports', hrun'⟩ := VisitedAll.runBatch_run hsecond
    (show { migration with files := reordered }.table = .ok table from htable) hvisits' root tool
  have hsummary : outcome'.run.summary = outcome.run.summary := by
    rw [hreports'.summary_eq, hreports.summary_eq]
    exact RunSummary.foldl_record_perm (hvisits'.statuses_perm hperm hvisits) .empty
  refine ⟨outcome, outcome', last, last', hrun, hrun', hsummary, ?_, ?_⟩
  · rw [BatchOutcome.exitCode, BatchOutcome.exitCode, hsummary]
  · intro path
    exact (hvisits'.agrees_of_perm hperm hvisits path).get?_eq

end MemoryStore

/-! ## Main result -/

/-- **The totals of a batch.**  Whatever is recorded in a new run, and in every outcome
of a batch over any store, the summary counts the results, all of them and by status;
the four counters add up to the number of results, and the exit code is 2 exactly if
some file is missing or has an error.  Over a store in memory, a list and any
permutation of it lead from the same store to the same summary, the same exit code and
the same text at every path. -/
theorem batch_totals :
    (∀ (runId : String) (now : Timestamp) (tool : ToolInfo) (root migration patch : String)
      (results : List FileResult),
      let run := results.foldl RunRecord.record (RunRecord.start runId now tool root migration)
      run.results = results ∧ BatchOutcome.Accounted ⟨run, patch⟩) ∧
    (∀ (σ : Type) (store : SourceStore (StateM σ)) (clock : Clock (StateM σ)) (tool : ToolInfo)
      (migration : Migration) (dryRun : Bool) (state last : σ) (outcome : BatchOutcome),
      (store.runBatch clock tool migration dryRun).run state = (.ok outcome, last) →
        outcome.Accounted) ∧
    ∀ (first second : Clock (StateM MemoryStore)) (migration : Migration) (table : Table)
      (reordered : List Path) (dryRun : Bool) (tool : ToolInfo) (root : Path)
      (store : MemoryStore), first.Passive → second.Passive → migration.table = .ok table →
      reordered.Perm migration.files →
      ∃ (outcome outcome' : BatchOutcome) (last last' : MemoryStore),
        ((MemoryStore.source root).runBatch first tool migration dryRun).run store =
          (.ok outcome, last) ∧
        ((MemoryStore.source root).runBatch second tool { migration with files := reordered }
          dryRun).run store = (.ok outcome', last') ∧
        outcome'.run.summary = outcome.run.summary ∧ outcome'.exitCode = outcome.exitCode ∧
        ∀ path, last'.get? path = last.get? path := by
  refine ⟨?_, ?_, ?_⟩
  · intro runId now tool root migration patch results run
    obtain ⟨hresults, hsummary⟩ := RunRecord.results_foldl_record results
      (RunRecord.start runId now tool root migration)
    have hall : run.results = results := hresults
    exact ⟨hall, BatchOutcome.accounted_of_summary (by rw [hall]; exact hsummary)⟩
  · intro σ store clock tool migration dryRun state last outcome hrun
    exact SourceStore.accounted_of_runBatch hrun
  · intro first second migration table reordered dryRun tool root store hfirst hsecond htable hperm
    exact MemoryStore.runBatch_perm hfirst hsecond htable hperm dryRun tool root store

-- one file is listed under two spellings, and which of them is updated depends on the order
theorem batch_totals_reordered :
    let migration : Migration :=
      ⟨"rounds", "import p;", [⟨"A.B", "C.D"⟩], [⟨"d/a"⟩, ⟨"c"⟩, ⟨"d//a"⟩, ⟨"b"⟩]⟩
    let reordered : List Path := [⟨"b"⟩, ⟨"d//a"⟩, ⟨"c"⟩, ⟨"d/a"⟩]
    let alone := (MemoryStore.empty ⟨"r"⟩).insert ⟨"d/a"⟩ "A.B"
    let store := (alone.insert ⟨"c"⟩ "A.B").failWrite ⟨"c"⟩
    let clock : Clock (StateM MemoryStore) := .fixed ⟨⟨2024, 1, 1, 0, 0, 0, 0⟩, by decide⟩ "run"
    let batch := fun files =>
      ((MemoryStore.source ⟨"r"⟩).runBatch clock ⟨"tool", none⟩ { migration with files } false).run
        store
    reordered.Perm migration.files ∧
    ∃ (outcome outcome' : BatchOutcome) (last last' : MemoryStore),
      batch migration.files = (.ok outcome, last) ∧ batch reordered = (.ok outcome', last') ∧
      outcome.run.results.map FileResult.status = [.updated, .errored, .unchanged, .missing] ∧
      outcome'.run.results.map FileResult.status = [.missing, .updated, .errored, .unchanged] ∧
      outcome.Accounted ∧ outcome.exitCode = 2 ∧ outcome'.exitCode = 2 ∧
      outcome'.run.summary = outcome.run.summary ∧
      last'.get? ⟨"d/a"⟩ = last.get? ⟨"d/a"⟩ := by
  intro migration reordered alone store clock batch
  have hperm : reordered.Perm migration.files := by decide +kernel
  have hpassive : clock.Passive := Clock.passive_fixed _ _
  have haccepted : migration.table.toOption.map Table.importLine = some "import p;" := by
    decide +kernel
  obtain ⟨table, htable, -⟩ := exists_ok_of_toOption_map haccepted
  obtain ⟨-, hany, horder⟩ := batch_totals
  obtain ⟨outcome, outcome', last, last', hrun, hrun', hsummary, hcode, hget⟩ :=
    horder clock clock migration table reordered false ⟨"tool", none⟩ ⟨"r"⟩ store hpassive hpassive
      htable hperm
  have haccounted : outcome.Accounted := hany _ _ _ _ _ _ _ _ _ hrun
  have hstatuses : (batch migration.files).1.toOption.map
      (fun outcome => outcome.run.results.map FileResult.status) =
        some [.updated, .errored, .unchanged, .missing] := by
    decide +kernel
  have hstatuses' : (batch reordered).1.toOption.map
      (fun outcome => outcome.run.results.map FileResult.status) =
        some [.missing, .updated, .errored, .unchanged] := by
    decide +kernel
  rw [show batch migration.files = _ from hrun] at hstatuses
  rw [show batch reordered = _ from hrun'] at hstatuses'
  replace hstatuses : outcome.run.results.map FileResult.status =
      [.updated, .errored, .unchanged, .missing] := Option.some.inj hstatuses
  have hfailure : outcome.exitCode = 2 := by
    rw [haccounted.exitCode_iff]
    have hmem : FileStatus.missing ∈ outcome.run.results.map FileResult.status := by
      rw [hstatuses]
      decide
    obtain ⟨result, hresult, hmissing⟩ := List.mem_map.mp hmem
    exact ⟨result, hresult, .inl hmissing⟩
  exact ⟨hperm, outcome, outcome', last, last', hrun, hrun', hstatuses,
    Option.some.inj hstatuses', haccounted, hfailure, hcode.trans hfailure, hsummary, hget _⟩

end EnumMigration
