import EnumMigration.Proofs.Acceptance
import EnumMigration.Proofs.Visits

/-!
# Files of a batch do not influence each other

Two runs may start from different stores and go through different lists.  If they
agree on what concerns one file, they agree on everything they do to it: its
results, its patches and the text it ends with.

## Strategy

`AgreeOn` compares two stores at one path only.  A visit of this path, under any
of its spellings, reads nothing else (`Visited.congr`), and a visit of any other
path leaves it alone (`Visited.agreeOn`).  Together they give
`VisitedAll.restrict`: a run restricted to the entries of one file is itself a
run, from any store that agrees on the file.  Two runs are then compared through
the one run that both restrict to.
-/

namespace EnumMigration

/-- Whether a result is about a path, however it is spelled. -/
def FileResult.isFor (path : Path) (result : FileResult) : Bool := path.sameAs ⟨result.path⟩

namespace MemoryStore

/-- Two stores that a file looks the same in: its text, and whether it can be read
and written. -/
structure AgreeOn (path : Path) (store other : MemoryStore) : Prop where
  get?_eq : store.get? path = other.get? path
  failingReads_iff : path.components ∈ store.failingReads ↔ path.components ∈ other.failingReads
  failingWrites_iff : path.components ∈ store.failingWrites ↔ path.components ∈ other.failingWrites

variable {table : Table} {dryRun : Bool} {path file : Path} {paths : List Path}
  {store other next last : MemoryStore} {visit : FileResult × String}
  {visits : List (FileResult × String)}

theorem AgreeOn.refl (path : Path) (store : MemoryStore) : AgreeOn path store store :=
  ⟨rfl, .rfl, .rfl⟩

theorem AgreeOn.symm (h : AgreeOn path store other) : AgreeOn path other store :=
  ⟨h.get?_eq.symm, h.failingReads_iff.symm, h.failingWrites_iff.symm⟩

theorem AgreeOn.trans (h : AgreeOn path store next) (h' : AgreeOn path next last) :
    AgreeOn path store last :=
  ⟨h.get?_eq.trans h'.get?_eq, h.failingReads_iff.trans h'.failingReads_iff,
    h.failingWrites_iff.trans h'.failingWrites_iff⟩

theorem get?_congr (store : MemoryStore) (hsame : path.components = file.components) :
    store.get? path = store.get? file := by
  rw [get?, get?, hsame]

/-- Agreement on a path is agreement on every spelling of it. -/
theorem AgreeOn.respell (h : AgreeOn file store other)
    (hsame : path.components = file.components) : AgreeOn path store other := by
  refine ⟨?_, ?_, ?_⟩
  · rw [get?_congr store hsame, get?_congr other hsame]
    exact h.get?_eq
  · rw [hsame]
    exact h.failingReads_iff
  · rw [hsame]
    exact h.failingWrites_iff

/-! ## One visit -/

/-- Writing a file in two stores that agree on it gives stores that agree on it. -/
theorem AgreeOn.write (h : AgreeOn path store other) (text : String) :
    AgreeOn path { store.insert path text with writes := store.writes ++ [path] }
      { other.insert path text with writes := other.writes ++ [path] } := by
  refine ⟨?_, h.failingReads_iff, h.failingWrites_iff⟩
  have hstore := store.get?_insert path path text
  have hother := other.get?_insert path path text
  rw [if_pos (beq_self_eq_true _)] at hstore hother
  exact hstore.trans hother.symm

theorem Visited.congr (h : Visited table dryRun path store visit next)
    (hagree : AgreeOn path store other) :
    ∃ next', Visited table dryRun path other visit next' ∧ AgreeOn path next next' := by
  have hget := hagree.get?_eq
  have hreads := hagree.failingReads_iff
  have hwrites := hagree.failingWrites_iff
  cases h with
  | missing hnone => exact ⟨other, .missing (hget ▸ hnone), hagree⟩
  | readFails hsome hread => exact ⟨other, .readFails (hget ▸ hsome) (hreads.mp hread), hagree⟩
  | kept hsome hread hkept =>
      exact ⟨other, .kept (hget ▸ hsome) (mt hreads.mpr hread) hkept, hagree⟩
  | writeFails hsome hread hchanged hreal hwrite =>
      exact ⟨other, .writeFails (hget ▸ hsome) (mt hreads.mpr hread) hchanged hreal
        (hwrites.mp hwrite), hagree⟩
  | written hsome hread hchanged hreal hwrite =>
      exact ⟨_, .written (hget ▸ hsome) (mt hreads.mpr hread) hchanged hreal
        (mt hwrites.mpr hwrite), hagree.write _⟩

/-- A visit leaves every other file as it is. -/
theorem Visited.agreeOn (h : Visited table dryRun path store visit next)
    (hother : file.components ≠ path.components) : AgreeOn file store next := by
  cases h with
  | missing | readFails | kept | writeFails => exact .refl file store
  | @written before hget hread hchanged hreal hwrite =>
      refine ⟨?_, .rfl, .rfl⟩
      have hinsert := store.get?_insert path file (table.migrate before).text
      rw [if_neg (mt beq_iff_eq.mp hother)] at hinsert
      exact hinsert.symm

/-! ## A whole run -/

theorem VisitedAll.agreeOn (h : VisitedAll table dryRun paths store visits last)
    (hother : ∀ path ∈ paths, file.components ≠ path.components) : AgreeOn file store last := by
  induction h with
  | nil store => exact .refl file store
  | cons hfirst _ ih =>
      obtain ⟨hne, hrest⟩ := List.forall_mem_cons.mp hother
      exact (hfirst.agreeOn hne).trans (ih hrest)

/-- The entries of one file, taken alone, make a run with the same results. -/
theorem VisitedAll.restrict (h : VisitedAll table dryRun paths store visits last)
    (hagree : AgreeOn file store other) :
    ∃ last', VisitedAll table dryRun (paths.filter file.sameAs) other
        (visits.filter fun visit => visit.1.isFor file) last' ∧ AgreeOn file last last' := by
  induction h generalizing other with
  | nil store => exact ⟨other, .nil other, hagree⟩
  | @cons path paths store next last visit visits hfirst hrest ih =>
      have hfor : visit.1.isFor file = file.sameAs path := by
        rw [FileResult.isFor, hfirst.path_eq]
      cases hsame : file.sameAs path with
      | true =>
          have hcomponents : file.components = path.components := beq_iff_eq.mp hsame
          obtain ⟨next', hvisit, hnext⟩ := hfirst.congr (hagree.respell hcomponents.symm)
          obtain ⟨last', hvisits, hlast⟩ := ih (hnext.respell hcomponents)
          refine ⟨last', ?_, hlast⟩
          simp only [List.filter_cons, hfor, hsame, if_true]
          exact .cons hvisit hvisits
      | false =>
          have hcomponents : file.components ≠ path.components := by
            simpa [Path.sameAs] using hsame
          have hnext : AgreeOn file next other := (hfirst.agreeOn hcomponents).symm.trans hagree
          obtain ⟨last', hvisits, hlast⟩ := ih hnext
          refine ⟨last', ?_, hlast⟩
          simp only [List.filter_cons, hfor, hsame, Bool.false_eq_true, if_false]
          exact hvisits

/-- **Files are isolated from each other.**  Two batches use one table and the same
dry-run flag.  Their stores agree on a file, and their lists have the same entries
of this file, in the same order; everything else may differ.  Then both report the
same results for the file, with the same patches, and leave the same text in it. -/
theorem runBatch_isolated {first second : Clock (StateM MemoryStore)} (hfirst : first.Passive)
    (hsecond : second.Passive) {migration migration' : Migration}
    (htable : migration.table = .ok table) (htable' : migration'.table = .ok table)
    (dryRun : Bool) (tool tool' : ToolInfo) (root root' : Path) {store store' : MemoryStore}
    (hagree : AgreeOn file store store')
    (hfiles : migration.files.filter file.sameAs = migration'.files.filter file.sameAs) :
    ∃ (outcome outcome' : BatchOutcome) (last last' : MemoryStore),
      ((source root).runBatch first tool migration dryRun).run store = (.ok outcome, last) ∧
      ((source root').runBatch second tool' migration' dryRun).run store' =
        (.ok outcome', last') ∧
      let visits := contributions root table dryRun migration.files store
      let visits' := contributions root' table dryRun migration'.files store'
      outcome.Reports visits ∧ outcome'.Reports visits' ∧
      outcome.run.results.map FileResult.path = migration.files.map Path.text ∧
      outcome'.run.results.map FileResult.path = migration'.files.map Path.text ∧
      outcome.run.results.filter (FileResult.isFor file) =
        outcome'.run.results.filter (FileResult.isFor file) ∧
      (visits.filter fun visit => visit.1.isFor file) =
        (visits'.filter fun visit => visit.1.isFor file) ∧
      last.get? file = last'.get? file := by
  obtain ⟨visits, last, hvisits⟩ := exists_visitedAll table dryRun migration.files store
  obtain ⟨visits', last', hvisits'⟩ := exists_visitedAll table dryRun migration'.files store'
  obtain ⟨outcome, hreports, hrun⟩ := hvisits.runBatch_run hfirst htable root tool
  obtain ⟨outcome', hreports', hrun'⟩ := hvisits'.runBatch_run hsecond htable' root' tool'
  -- both restrict to the run of the shared entries from the second store
  obtain ⟨shared, hshared, hlast⟩ := hvisits.restrict hagree
  obtain ⟨shared', hshared', hlast'⟩ := hvisits'.restrict (AgreeOn.refl file store')
  rw [hfiles] at hshared
  obtain ⟨hsame, rfl⟩ := hshared.unique hshared'
  refine ⟨outcome, outcome', last, last', hrun, hrun', ?_⟩
  rw [hvisits.contributions_eq root, hvisits'.contributions_eq root']
  refine ⟨hreports, hreports', ?_, ?_, ?_, hsame, ?_⟩
  · rw [hreports.results_eq, hvisits.paths_eq]
  · rw [hreports'.results_eq, hvisits'.paths_eq]
  · rw [hreports.results_eq, hreports'.results_eq, List.filter_map, List.filter_map]
    exact congrArg (List.map Prod.fst) hsame
  · exact hlast.get?_eq.trans hlast'.get?_eq.symm

theorem runBatch_isolated_two_spellings :
    let file : Path := ⟨"d/a"⟩
    let migration : Migration :=
      ⟨"rounds", "import p;", [⟨"A.B", "C.D"⟩], [⟨"b"⟩, ⟨"d/a"⟩, ⟨"d//a"⟩]⟩
    let migration' := { migration with files := [⟨"d/a"⟩, ⟨"x"⟩, ⟨"c"⟩, ⟨"d//a"⟩] }
    let alone := (empty ⟨"r"⟩).insert file "A.B"
    let store := (alone.insert ⟨"b"⟩ "A.B").failWrite ⟨"b"⟩
    let store' := (alone.insert ⟨"c"⟩ "A.B").failRead ⟨"c"⟩
    let clock : Clock (StateM MemoryStore) := .fixed ⟨⟨2024, 1, 1, 0, 0, 0, 0⟩, by decide⟩ "run"
    AgreeOn file store store' ∧
    migration.files.filter file.sameAs = migration'.files.filter file.sameAs ∧
    ∃ (outcome outcome' : BatchOutcome) (last last' : MemoryStore),
      ((source ⟨"r"⟩).runBatch clock ⟨"tool", none⟩ migration false).run store =
        (.ok outcome, last) ∧
      ((source ⟨"r"⟩).runBatch clock ⟨"tool", none⟩ migration' false).run store' =
        (.ok outcome', last') ∧
      outcome.run.results.map FileResult.status = [.errored, .updated, .unchanged] ∧
      outcome.run.results.filter (FileResult.isFor file) =
        outcome'.run.results.filter (FileResult.isFor file) ∧
      last.get? file = last'.get? file := by
  intro file migration migration' alone store store' clock
  have hagree : AgreeOn file store store' :=
    ⟨by decide +kernel, by decide +kernel, by decide +kernel⟩
  have hfiles : migration.files.filter file.sameAs = migration'.files.filter file.sameAs := by
    decide +kernel
  have hstatuses : (((source ⟨"r"⟩).runBatch clock ⟨"tool", none⟩ migration false).run
      store).1.toOption.map (fun outcome => outcome.run.results.map FileResult.status) =
        some [.errored, .updated, .unchanged] := by
    decide +kernel
  have haccepted : migration.table.toOption.map Table.importLine = some "import p;" := by
    decide +kernel
  obtain ⟨table, htable, -⟩ := exists_ok_of_toOption_map haccepted
  have htable' : migration'.table = .ok table := htable
  have hpassive : clock.Passive := Clock.passive_fixed _ _
  obtain ⟨outcome, outcome', last, last', hrun, hrun', -, -, -, -, hresults, -, hget⟩ :=
    runBatch_isolated hpassive hpassive htable htable' false
      ⟨"tool", none⟩ ⟨"tool", none⟩ ⟨"r"⟩ ⟨"r"⟩ hagree hfiles
  rw [hrun] at hstatuses
  exact ⟨hagree, hfiles, outcome, outcome', last, last', hrun, hrun', Option.some.inj hstatuses,
    hresults, hget⟩

end MemoryStore

end EnumMigration
