import EnumMigration.Proofs.DryRun
import EnumMigration.Proofs.PathSpelling
import EnumMigration.Proofs.SessionInvariants
import Mathlib.Data.List.Forall2

/-!
# Spelling does not matter to a store in memory

Two sessions whose paths have the same components, place by place, get the same answers.  The
spelling shows only where a path is given back as it was handed over: in results, in error messages,
in the headers of patches and in the log of writes.

## Strategy

The two sessions are run side by side.  A `Respelling` is any relation between paths with the same
components, and `Alike` is what it makes of two stores: the same files and failures, and logs that
are related entry by entry.  `Visited.alike` is the step for one listed file, `Answered.alike` the
step for one use of the store, and `AnsweredAll.alike` the run.  As the relation is arbitrary, it
may be the one that pairs up just the paths of the two sessions.
-/

namespace EnumMigration

/-! ## Respelled paths and steps -/

/-- Paths that differ in repeated slashes, slashes at the end and single dots behind a slash. -/
inductive Path.Respells : Path → Path → Prop
  | repeatedSlash (before after : String) :
      Respells ⟨before ++ "//" ++ after⟩ ⟨before ++ "/" ++ after⟩
  | innerDot (before after : String) :
      Respells ⟨before ++ "/./" ++ after⟩ ⟨before ++ "/" ++ after⟩
  | trailingSlash {text : String} (hne : text ≠ "") : Respells ⟨text ++ "/"⟩ ⟨text⟩
  | trailingDot {text : String} (hne : text ≠ "") : Respells ⟨text ++ "/."⟩ ⟨text⟩
  | refl (path : Path) : Respells path path
  | symm {path other : Path} (h : Respells path other) : Respells other path
  | trans {path other third : Path} (h : Respells path other) (h' : Respells other third) :
      Respells path third

theorem Path.Respells.components_eq {path other : Path} (h : path.Respells other) :
    path.components = other.components := by
  induction h with
  | repeatedSlash before after => exact components_repeated_slash before after
  | innerDot before after => exact components_inner_dot before after
  | trailingSlash hne => exact (components_trailing hne).1
  | trailingDot hne => exact (components_trailing hne).2
  | refl => rfl
  | symm _ ih => exact ih.symm
  | trans _ _ ih ih' => exact ih.trans ih'

/-- A way to respell paths: it relates paths with the same components only. -/
structure Respelling where
  relates : Path → Path → Prop
  components_eq : ∀ {path other}, relates path other → path.components = other.components

/-- What a store is set up with. -/
structure StoreSetup where
  root : Path
  files : List (Path × String)
  failingReads : List Path
  failingWrites : List Path

/-- The files of a setup.  Of two files at one path the later one counts. -/
def StoreSetup.stocked (setup : StoreSetup) : MemoryStore :=
  setup.files.foldl (fun store file => store.insert file.1 file.2) (.empty setup.root)

/-- The store of a setup. -/
def StoreSetup.store (setup : StoreSetup) : MemoryStore :=
  setup.failingWrites.foldl .failWrite (setup.failingReads.foldl .failRead setup.stocked)

/-- Reports about two lists of files, entry by entry under the two spellings. -/
inductive RespelledAll : List Path → List Path → List (FileResult × String) →
    List (FileResult × String) → Prop
  | nil : RespelledAll [] [] [] []
  | cons {path other : Path} {paths others : List Path} {visit visit' : FileResult × String}
      {visits visits' : List (FileResult × String)} (hfirst : Respelled path other visit visit')
      (hrest : RespelledAll paths others visits visits') :
      RespelledAll (path :: paths) (other :: others) (visit :: visits) (visit' :: visits')

/-- The outcomes of two batches that list the same files under two spellings.  The records agree
except for the root, the results and what the clock tells. -/
structure BatchOutcome.Echoes (root root' : Path) (paths others : List Path)
    (outcome outcome' : BatchOutcome) : Prop where
  reports : ∃ visits visits', outcome.Reports visits ∧ outcome'.Reports visits' ∧
    RespelledAll paths others visits visits'
  root_eq : outcome.run.root = root.text ∧ outcome'.run.root = root'.text
  run_eq : outcome'.run = { outcome.run with
    runId := outcome'.run.runId
    root := outcome'.run.root
    startedAt := outcome'.run.startedAt
    endedAt := outcome'.run.endedAt
    results := outcome'.run.results }
  exitCode_eq : outcome'.exitCode = outcome.exitCode

/-- The answers to two steps that differ in their spelling, in stores with the given roots.  A path
is given back in the errors of reads and writes, and in the reports of runs; all else is the same.
-/
inductive StoreStep.Echoes (root root' : Path) :
    StoreStep → StoreStep → StoreAnswer → StoreAnswer → Prop
  | holds {path other : Path} (found : Bool) :
      Echoes root root' (.holds path) (.holds other) (.held found) (.held found)
  | read {path other : Path} (text : String) :
      Echoes root root' (.read path) (.read other) (.text (.ok text)) (.text (.ok text))
  | unread {path other : Path} {error : Path → StoreError}
      (herror : error = .readFails ∨ error = .noSuchFile) :
      Echoes root root' (.read path) (.read other) (.text (.error (error path)))
        (.text (.error (error other)))
  | contents {path other : Path} (text : Option String) :
      Echoes root root' (.contents path) (.contents other) (.contents text) (.contents text)
  | written {path other : Path} (text : String) :
      Echoes root root' (.write path text) (.write other text) (.done (.ok ())) (.done (.ok ()))
  | refused {path other : Path} (text : String) :
      Echoes root root' (.write path text) (.write other text) (.done (.error (.writeFails path)))
        (.done (.error (.writeFails other)))
  | rejected {clock clock' : Clock (StateM MemoryStore)} {tool : ToolInfo}
      {migration migration' : Migration} {dryRun : Bool} (e : BatchError) :
      Echoes root root' (.run clock tool migration dryRun) (.run clock' tool migration' dryRun)
        (.batch (.error e)) (.batch (.error e))
  | ran {clock clock' : Clock (StateM MemoryStore)} {tool : ToolInfo}
      {migration migration' : Migration} {dryRun : Bool} {outcome outcome' : BatchOutcome}
      (h : outcome.Echoes root root' migration.files migration'.files outcome') :
      Echoes root root' (.run clock tool migration dryRun) (.run clock' tool migration' dryRun)
        (.batch (.ok outcome)) (.batch (.ok outcome'))

namespace Respelling

/-- Two setups whose paths are related, place by place. -/
structure Setup (r : Respelling) (setup other : StoreSetup) : Prop where
  root : r.relates setup.root other.root
  files : List.Forall₂ (fun file file' => r.relates file.1 file'.1 ∧ file.2 = file'.2) setup.files
    other.files
  failingReads : List.Forall₂ r.relates setup.failingReads other.failingReads
  failingWrites : List.Forall₂ r.relates setup.failingWrites other.failingWrites

/-- Two steps whose paths are related, place by place.  The clocks of two runs may differ. -/
inductive Step (r : Respelling) : StoreStep → StoreStep → Prop
  | holds {path other : Path} (h : r.relates path other) : Step r (.holds path) (.holds other)
  | read {path other : Path} (h : r.relates path other) : Step r (.read path) (.read other)
  | contents {path other : Path} (h : r.relates path other) :
      Step r (.contents path) (.contents other)
  | write {path other : Path} (h : r.relates path other) (text : String) :
      Step r (.write path text) (.write other text)
  | run {migration : Migration} {files : List Path}
      (h : List.Forall₂ r.relates migration.files files) (clock clock' : Clock (StateM MemoryStore))
      (tool : ToolInfo) (dryRun : Bool) :
      Step r (.run clock tool migration dryRun) (.run clock' tool { migration with files } dryRun)

/-- Two stores that a respelling cannot tell apart except by the paths in their logs. -/
structure Alike (r : Respelling) (store other : MemoryStore) : Prop where
  root : r.relates store.root other.root
  files_eq : other.files = store.files
  failingReads_eq : other.failingReads = store.failingReads
  failingWrites_eq : other.failingWrites = store.failingWrites
  writes : List.Forall₂ r.relates store.writes other.writes

variable {r : Respelling} {store store' : MemoryStore} {path other : Path}

theorem Alike.get?_eq (h : r.Alike store store') (hsame : path.components = other.components) :
    store'.get? other = store.get? path := by
  unfold MemoryStore.get?
  rw [h.files_eq, hsame]

theorem Alike.agreeOn (h : r.Alike store store') (path : Path) :
    MemoryStore.AgreeOn path store store' :=
  ⟨(h.get?_eq rfl).symm, by rw [h.failingReads_eq], by rw [h.failingWrites_eq]⟩

theorem Alike.insert (h : r.Alike store store') (hpath : r.relates path other) (text : String) :
    r.Alike (store.insert path text) (store'.insert other text) := by
  refine ⟨h.root, ?_, h.failingReads_eq, h.failingWrites_eq, h.writes⟩
  unfold MemoryStore.insert
  rw [h.files_eq, r.components_eq hpath]

theorem Alike.written (h : r.Alike store store') (hpath : r.relates path other) (text : String) :
    r.Alike (store.written path text) (store'.written other text) := by
  have hinsert := h.insert hpath text
  refine ⟨hinsert.root, hinsert.files_eq, hinsert.failingReads_eq, hinsert.failingWrites_eq, ?_⟩
  exact List.rel_append h.writes (.cons hpath .nil)

/-! ## Setups -/

theorem Alike.foldl {α : Type} {relates : α → α → Prop} {act : MemoryStore → α → MemoryStore}
    (hact : ∀ {store store' item item'}, r.Alike store store' → relates item item' →
      r.Alike (act store item) (act store' item'))
    {items items' : List α} (hitems : List.Forall₂ relates items items')
    (h : r.Alike store store') : r.Alike (items.foldl act store) (items'.foldl act store') := by
  induction hitems generalizing store store' with
  | nil => exact h
  | cons hitem _ ih => exact ih (hact h hitem)

theorem Setup.alike {setup other : StoreSetup} (h : r.Setup setup other) :
    r.Alike setup.store other.store := by
  have hempty : r.Alike (.empty setup.root) (.empty other.root) := ⟨h.root, rfl, rfl, rfl, .nil⟩
  unfold StoreSetup.store StoreSetup.stocked
  apply Alike.foldl _ h.failingWrites
  · apply Alike.foldl _ h.failingReads
    · apply Alike.foldl _ h.files hempty
      intro store store' file file' hstore hfile
      rw [← hfile.2]
      exact hstore.insert hfile.1 file.2
    · intro store store' path path' hstore hpath
      refine ⟨hstore.root, hstore.files_eq, ?_, hstore.failingWrites_eq, hstore.writes⟩
      unfold MemoryStore.failRead
      rw [hstore.failingReads_eq, r.components_eq hpath]
  · intro store store' path path' hstore hpath
    refine ⟨hstore.root, hstore.files_eq, hstore.failingReads_eq, ?_, hstore.writes⟩
    unfold MemoryStore.failWrite
    rw [hstore.failingWrites_eq, r.components_eq hpath]

end Respelling

/-! ## Reports -/

theorem RespelledAll.statuses_eq {paths others : List Path}
    {visits visits' : List (FileResult × String)} (h : RespelledAll paths others visits visits') :
    visits'.map (fun visit => visit.1.status) = visits.map fun visit => visit.1.status := by
  induction h with
  | nil => rfl
  | cons hfirst _ ih => rw [List.map_cons, List.map_cons, hfirst.status_eq, ih]

theorem RespelledAll.summary_eq {paths others : List Path}
    {visits visits' : List (FileResult × String)} (h : RespelledAll paths others visits visits')
    {outcome outcome' : BatchOutcome} (hreports : outcome.Reports visits)
    (hreports' : outcome'.Reports visits') : outcome'.run.summary = outcome.run.summary := by
  rw [hreports'.summary_eq, hreports.summary_eq, h.statuses_eq]

theorem RunRecord.Headed.eq_of_summary {run run' : RunRecord} {tool : ToolInfo} {root root' : Path}
    {migration migration' : Migration} {dryRun : Bool}
    (h : run.Headed tool root migration dryRun) (h' : run'.Headed tool root' migration' dryRun)
    (hname : migration'.name = migration.name) (hsummary : run'.summary = run.summary) :
    run' = { run with
      runId := run'.runId
      root := run'.root
      startedAt := run'.startedAt
      endedAt := run'.endedAt
      results := run'.results } := by
  obtain ⟨hschema, htool, -, hmigration, hdry⟩ := h
  obtain ⟨hschema', htool', -, hmigration', hdry'⟩ := h'
  cases run
  cases run'
  simp_all

namespace MemoryStore

variable {r : Respelling} {table : Table} {dryRun : Bool} {path other : Path}
  {paths others : List Path} {store store' next next' last last' : MemoryStore}
  {visit : FileResult × String} {visits : List (FileResult × String)} {step step' : StoreStep}
  {steps steps' : List StoreStep} {answer answer' : StoreAnswer}
  {answers answers' : List StoreAnswer}

/-! ## Runs -/

/-- A visit writes exactly if it is real and reports an update. -/
theorem Visited.next_eq (h : Visited table dryRun path store visit next) :
    next = if dryRun = false ∧ visit.1.status = .updated then
      store.written path (table.migrate ((store.get? path).getD "")).text else store := by
  cases h with
  | missing | readFails | writeFails => exact (if_neg nofun).symm
  | @kept before hget hread hkept =>
      rw [FileResult.status_ofMigrated]
      by_cases hchanged : (table.migrate before).changed = true
      · simp [hkept hchanged]
      · simp [hchanged]
  | written hget hread hchanged hreal hwrite =>
      rw [FileResult.status_ofMigrated, if_pos hchanged, if_pos ⟨hreal, rfl⟩, hget]
      rfl

theorem Visited.alike (h : Visited table dryRun path store visit next)
    (hpath : r.relates path other) (hstore : r.Alike store store') :
    ∃ visit' next', Visited table dryRun other store' visit' next' ∧
      Respelled path other visit visit' ∧ r.Alike next next' := by
  have hsame := r.components_eq hpath
  obtain ⟨_, hvisit, -⟩ := h.congr (hstore.agreeOn path)
  obtain ⟨visit', next', hvisit', hrespelled⟩ := hvisit.respell hsame
  refine ⟨visit', next', hvisit', hrespelled, ?_⟩
  rw [h.next_eq, hvisit'.next_eq, hrespelled.status_eq, hstore.get?_eq hsame]
  split
  · exact hstore.written hpath _
  · exact hstore

theorem VisitedAll.alike (h : VisitedAll table dryRun paths store visits last)
    (hpaths : List.Forall₂ r.relates paths others) (hstore : r.Alike store store') :
    ∃ visits' last', VisitedAll table dryRun others store' visits' last' ∧
      RespelledAll paths others visits visits' ∧ r.Alike last last' := by
  induction h generalizing others store' with
  | nil store =>
      cases hpaths
      exact ⟨[], store', .nil store', .nil, hstore⟩
  | cons hfirst _ ih =>
      cases hpaths with
      | cons hpath hrest =>
          obtain ⟨visit', next', hvisit', hrespelled, hnext⟩ := hfirst.alike hpath hstore
          obtain ⟨visits', last', hvisits', hall, hlast⟩ := ih hrest hnext
          exact ⟨visit' :: visits', last', .cons hvisit' hvisits', .cons hrespelled hall, hlast⟩

/-! ## Steps and sessions -/

theorem echoes_read (hsame : path.components = other.components) (hstore : r.Alike store store') :
    StoreStep.Echoes store.root store'.root (.read path) (.read other) (.text (store.read path))
      (.text (store'.read other)) := by
  unfold MemoryStore.read
  rw [hstore.failingReads_eq, hstore.get?_eq hsame, hsame]
  split
  · exact .unread (.inl rfl)
  · cases store.get? path with
    | none => exact .unread (.inr rfl)
    | some text => exact .read text

theorem Answered.alike (h : Answered store step answer next)
    (h' : Answered store' step' answer' next') (hstep : r.Step step step')
    (hstore : r.Alike store store') :
    step.Echoes store.root store'.root step' answer answer' ∧ r.Alike next next' := by
  cases hstep with
  | holds hpath =>
      cases h
      cases h'
      refine ⟨?_, hstore⟩
      rw [MemoryStore.holds, MemoryStore.holds, hstore.get?_eq (r.components_eq hpath)]
      exact .holds _
  | read hpath =>
      cases h
      cases h'
      exact ⟨echoes_read (r.components_eq hpath) hstore, hstore⟩
  | contents hpath =>
      cases h
      cases h'
      refine ⟨?_, hstore⟩
      rw [hstore.get?_eq (r.components_eq hpath)]
      exact .contents _
  | write hpath text =>
      have hfailing := hstore.failingWrites_eq
      have hsame := r.components_eq hpath
      cases h with
      | refused hwrite =>
          rw [hsame, ← hfailing] at hwrite
          cases h' with
          | refused => exact ⟨.refused text, hstore⟩
          | written hwrite' => exact absurd hwrite hwrite'
      | written hwrite =>
          rw [hsame, ← hfailing] at hwrite
          cases h' with
          | refused hwrite' => exact absurd hwrite' hwrite
          | written => exact ⟨.written text, hstore.written hpath text⟩
  | @run migration files hfiles clock clock' tool dryRun =>
      -- which files are listed has no part in whether the table is valid
      cases h with
      | rejected htable =>
          cases h' with
          | rejected htable' =>
              obtain rfl := Except.error.inj (htable.symm.trans htable')
              exact ⟨.rejected _, hstore⟩
          | ran htable' => cases htable.symm.trans htable'
      | ran htable hvisits hreports hheaded =>
          cases h' with
          | rejected htable' => cases htable.symm.trans htable'
          | ran htable' hvisits' hreports' hheaded' =>
              obtain rfl := Except.ok.inj (htable.symm.trans htable')
              obtain ⟨visits, last, hfound, hall, hlast⟩ := hvisits.alike hfiles hstore
              obtain ⟨rfl, rfl⟩ := hfound.unique hvisits'
              have hsummary := hall.summary_eq hreports hreports'
              have hroots := And.intro hheaded.root_eq hheaded'.root_eq
              refine ⟨.ran ⟨⟨_, _, hreports, hreports', hall⟩, hroots, ?_, ?_⟩, hlast⟩
              · exact hheaded.eq_of_summary hheaded' rfl hsummary
              · rw [BatchOutcome.exitCode, BatchOutcome.exitCode, hsummary]

theorem VisitedAll.root_eq (h : VisitedAll table dryRun paths store visits last) :
    last.root = store.root := by
  induction h with
  | nil => rfl
  | cons hfirst _ ih =>
      rw [ih, hfirst.next_eq]
      split <;> rfl

theorem Answered.root_eq (h : Answered store step answer next) : next.root = store.root := by
  cases h with
  | holds | read | contents | refused | written | rejected => rfl
  | ran htable hvisits => exact hvisits.root_eq

theorem AnsweredAll.alike (h : AnsweredAll store steps answers last)
    (h' : AnsweredAll store' steps' answers' last') (hsteps : List.Forall₂ r.Step steps steps')
    (hstore : r.Alike store store') :
    List.Forall₂ (fun played played' =>
        played.1.Echoes store.root store'.root played'.1 played.2 played'.2)
      (steps.zip answers) (steps'.zip answers') ∧ r.Alike last last' := by
  induction hsteps generalizing store store' answers answers' with
  | nil =>
      cases h
      cases h'
      exact ⟨.nil, hstore⟩
  | cons hstep _ ih =>
      cases h with
      | cons hfirst hrest =>
          cases h' with
          | cons hfirst' hrest' =>
              obtain ⟨hecho, hnext⟩ := hfirst.alike hfirst' hstep hstore
              obtain ⟨hechoes, hlast⟩ := ih hrest hrest' hnext
              rw [hfirst.root_eq, hfirst'.root_eq] at hechoes
              exact ⟨.cons hecho hechoes, hlast⟩

/-! ## Paths with different components -/

/-- A step leaves every path alone that is none of its own. -/
theorem Answered.agreeOn (h : Answered store step answer next)
    (hother : ∀ touched ∈ step.paths, path.components ≠ touched.components) :
    AgreeOn path store next := by
  cases h with
  | holds | read | contents | refused | rejected => exact .refl path store
  | @written target text hwrite =>
      have hne := hother target (List.mem_singleton_self target)
      refine ⟨?_, .rfl, .rfl⟩
      rw [get?_written, if_neg (mt beq_iff_eq.mp hne)]
  | ran htable hvisits => exact hvisits.agreeOn hother

theorem AnsweredAll.agreeOn (h : AnsweredAll store steps answers last)
    (hother : ∀ step ∈ steps, ∀ touched ∈ step.paths, path.components ≠ touched.components) :
    AgreeOn path store last := by
  induction h with
  | nil store => exact .refl path store
  | cons hfirst _ ih =>
      obtain ⟨hstep, hsteps⟩ := List.forall_mem_cons.mp hother
      exact (hfirst.agreeOn hstep).trans (ih hsteps)

theorem foldl_failRead (paths : List Path) (store : MemoryStore) :
    paths.foldl failRead store =
      { store with failingReads := (paths.map Path.components).reverse ++ store.failingReads } := by
  induction paths generalizing store with
  | nil => rfl
  | cons path paths ih => simp [ih, failRead]

theorem foldl_failWrite (paths : List Path) (store : MemoryStore) :
    paths.foldl failWrite store = { store with
      failingWrites := (paths.map Path.components).reverse ++ store.failingWrites } := by
  induction paths generalizing store with
  | nil => rfl
  | cons path paths ih => simp [ih, failWrite]

theorem foldl_insert (files : List (Path × String)) (store : MemoryStore) :
    let stocked := files.foldl (fun store file => store.insert file.1 file.2) store
    stocked.root = store.root ∧ stocked.failingReads = store.failingReads ∧
      stocked.failingWrites = store.failingWrites ∧ ∀ path, stocked.holds path = true ↔
        store.holds path = true ∨ ∃ file ∈ files, file.1.sameAs path := by
  induction files generalizing store with
  | nil => simp
  | cons file files ih =>
      obtain ⟨hroot, hreads, hwrites, hholds⟩ := ih (store.insert file.1 file.2)
      refine ⟨hroot, hreads, hwrites, ?_⟩
      intro path
      have hfirst : (store.insert file.1 file.2).holds path = true ↔
          store.holds path = true ∨ file.1.sameAs path = true := by
        unfold holds
        rw [get?_insert]
        by_cases hsame : path.components = file.1.components
        · simp [Path.sameAs, hsame]
        · simp [Path.sameAs, hsame, Ne.symm hsame]
      rw [List.foldl_cons, hholds, hfirst, or_assoc]
      simp only [List.mem_cons, exists_eq_or_imp]

end MemoryStore

theorem StoreSetup.store_root (setup : StoreSetup) : setup.store.root = setup.root := by
  rw [store, MemoryStore.foldl_failWrite, MemoryStore.foldl_failRead]
  exact (MemoryStore.foldl_insert setup.files (.empty setup.root)).1

/-- A setup is about a path exactly if it names the path under some spelling. -/
structure StoreSetup.NamesExactly (setup : StoreSetup) (path : Path) : Prop where
  holds_iff : setup.store.holds path = true ↔ ∃ file ∈ setup.files, file.1.sameAs path
  failingReads_iff : path.components ∈ setup.store.failingReads ↔
    ∃ failing ∈ setup.failingReads, failing.sameAs path
  failingWrites_iff : path.components ∈ setup.store.failingWrites ↔
    ∃ failing ∈ setup.failingWrites, failing.sameAs path

theorem StoreSetup.namesExactly (setup : StoreSetup) (path : Path) : setup.NamesExactly path := by
  obtain ⟨-, hreads, hwrites, hholds⟩ :=
    MemoryStore.foldl_insert setup.files (.empty setup.root)
  have hnone : ¬ (MemoryStore.empty setup.root).holds path = true := nofun
  refine ⟨?_, ?_, ?_⟩
  · rw [store, MemoryStore.foldl_failWrite, MemoryStore.foldl_failRead]
    exact (hholds path).trans (or_iff_right hnone)
  · rw [store, MemoryStore.foldl_failWrite, MemoryStore.foldl_failRead, stocked, hreads]
    simp [MemoryStore.empty, Path.sameAs]
  · rw [store, MemoryStore.foldl_failWrite, MemoryStore.foldl_failRead, stocked, hwrites]
    simp [MemoryStore.empty, Path.sameAs]

/-- **Spelling does not matter to a store in memory.**  Repeated slashes, slashes at the end and
single dots behind a slash leave the components of a path as they are; a beginning at the root or
with a dot does not.  Two sessions whose paths have the same components, place by place, get the
same answers up to the paths that are given back, and leave the same files; their logs differ in the
spelling of the paths only.  Paths with different components are never taken for each other: a setup
is about the paths that it names, and what no step names stays as it was set up. -/
theorem session_respelled (r : Respelling) {setup setup' : StoreSetup}
    (hsetup : r.Setup setup setup') {steps steps' : List StoreStep}
    (hsteps : List.Forall₂ r.Step steps steps')
    (hpassive : ∀ step ∈ steps ++ steps', step.Passive) :
    (∀ path other : Path, path.Respells other → path.components = other.components) ∧
    (∀ text : String, Path.IsPlain text.toList →
      (Path.mk ("./" ++ text)).components ≠ (Path.mk text).components ∧
      (Path.mk ("/" ++ text)).components ≠ (Path.mk text).components ∧
      (Path.mk ("./" ++ text)).components ≠ (Path.mk ("/" ++ text)).components) ∧
    ∃ (answers answers' : List StoreAnswer) (last last' : MemoryStore),
      (MemoryStore.session steps).run setup.store = (answers, last) ∧
      (MemoryStore.session steps').run setup'.store = (answers', last') ∧
      answers.length = steps.length ∧ answers'.length = steps'.length ∧
      List.Forall₂ (fun played played' =>
          played.1.Echoes setup.root setup'.root played'.1 played.2 played'.2)
        (steps.zip answers) (steps'.zip answers') ∧
      (∀ path other : Path, path.components = other.components →
        last'.get? other = last.get? path) ∧
      List.Forall₂ r.relates last.writes last'.writes ∧
      ∀ path : Path, setup.NamesExactly path ∧
        ((∀ step ∈ steps, ∀ named ∈ step.paths, path.components ≠ named.components) →
          MemoryStore.AgreeOn path setup.store last) := by
  refine ⟨fun _ _ h => h.components_eq, fun _ => Path.components_beginnings, ?_⟩
  obtain ⟨hfirst, hsecond⟩ := List.forall_mem_append.mp hpassive
  obtain ⟨answers, last, hrun, hall⟩ := MemoryStore.exists_answeredAll setup.store hfirst
  obtain ⟨answers', last', hrun', hall'⟩ := MemoryStore.exists_answeredAll setup'.store hsecond
  obtain ⟨hechoes, hlast⟩ := hall.alike hall' hsteps hsetup.alike
  rw [setup.store_root, setup'.store_root] at hechoes
  refine ⟨answers, answers', last, last', hrun, hrun', hall.length_eq, hall'.length_eq, hechoes,
    fun _ _ => hlast.get?_eq, hlast.writes, ?_⟩
  intro path
  exact ⟨setup.namesExactly path, hall.agreeOn⟩

theorem session_respelled_everywhere :
    let r : Respelling := ⟨fun path other => path.components = other.components, id⟩
    let clock : Clock (StateM MemoryStore) := .fixed ⟨⟨2024, 1, 1, 0, 0, 0, 0⟩, by decide⟩ "run"
    let migration : Migration :=
      ⟨"rounds", "import p;", [⟨"A.B", "C.D"⟩], [⟨"c"⟩, ⟨"d/a"⟩, ⟨"x"⟩]⟩
    let setup : StoreSetup := ⟨⟨"r"⟩, [(⟨"d/a"⟩, "A.B"), (⟨"c"⟩, "A.B")], [], [⟨"c"⟩]⟩
    let setup' : StoreSetup := ⟨⟨"r/"⟩, [(⟨"d//a"⟩, "A.B"), (⟨"c/"⟩, "A.B")], [], [⟨"c/."⟩]⟩
    let steps : List StoreStep :=
      [.write ⟨"x"⟩ "A.B", .run clock ⟨"tool", none⟩ migration false, .read ⟨"y"⟩]
    let steps' : List StoreStep :=
      [.write ⟨"x/"⟩ "A.B",
        .run clock ⟨"tool", none⟩ { migration with files := [⟨"c//"⟩, ⟨"d/./a"⟩, ⟨"x/."⟩] } false,
        .read ⟨"y/"⟩]
    r.Setup setup setup' ∧ List.Forall₂ r.Step steps steps' ∧
    (∀ step ∈ steps ++ steps', step.Passive) ∧
    ∃ (answers answers' : List StoreAnswer) (last last' : MemoryStore),
      (MemoryStore.session steps).run setup.store = (answers, last) ∧
      (MemoryStore.session steps').run setup'.store = (answers', last') ∧
      last.writes = [⟨"x"⟩, ⟨"d/a"⟩, ⟨"x"⟩] ∧ last'.writes = [⟨"x/"⟩, ⟨"d/./a"⟩, ⟨"x/."⟩] ∧
      last'.get? ⟨"d///a"⟩ = last.get? ⟨"d/a"⟩ ∧
      MemoryStore.AgreeOn ⟨"./c"⟩ setup.store last := by
  intro r clock migration setup setup' steps steps'
  have hsetup : r.Setup setup setup' := by
    refine ⟨by decide +kernel, .cons ⟨by decide +kernel, rfl⟩ (.cons ⟨by decide +kernel, rfl⟩ .nil),
      .nil, .cons (by decide +kernel) .nil⟩
  have hfiles : List.Forall₂ r.relates migration.files [⟨"c//"⟩, ⟨"d/./a"⟩, ⟨"x/."⟩] :=
    .cons (by decide +kernel) (.cons (by decide +kernel) (.cons (by decide +kernel) .nil))
  have hsteps : List.Forall₂ r.Step steps steps' :=
    .cons (.write (by decide +kernel) _) (.cons (.run hfiles _ _ _ _)
      (.cons (.read (by decide +kernel)) .nil))
  have hclock : clock.Passive := Clock.passive_fixed _ _
  have hpassive : ∀ step ∈ steps ++ steps', step.Passive := by
    simp [steps, steps', StoreStep.Passive, hclock]
  have hlog : ((MemoryStore.session steps).run setup.store).2.writes =
      [⟨"x"⟩, ⟨"d/a"⟩, ⟨"x"⟩] := by
    decide +kernel
  have hlog' : ((MemoryStore.session steps').run setup'.store).2.writes =
      [⟨"x/"⟩, ⟨"d/./a"⟩, ⟨"x/."⟩] := by
    decide +kernel
  obtain ⟨-, -, answers, answers', last, last', hrun, hrun', -, -, -, hget, -, hpaths⟩ :=
    session_respelled r hsetup hsteps hpassive
  rw [hrun] at hlog
  rw [hrun'] at hlog'
  refine ⟨hsetup, hsteps, hpassive, answers, answers', last, last', hrun, hrun', hlog, hlog',
    hget _ _ (by decide +kernel), (hpaths ⟨"./c"⟩).2 (by decide +kernel)⟩

end EnumMigration
