import EnumMigration.Command
import EnumMigration.Proofs.AnyStore
import EnumMigration.Proofs.TreeFrame

/-!
# How a run ends

The command `run` loads and resolves a configuration, takes the migration through its files, and
writes the artifacts.  Its exit code tells whether one of the stages failed, or some file, or
nothing.  A stage that fails before the batch leaves the disk untouched, and so does a dry run up to
its artifacts.

## Strategy

The disk is any one that acts on file trees and may refuse what it is asked (`Disk.OnTrees`).
`Refuses` and `Unpublished` say for each stage what it means that it fails, without reference to the
command.  A run is refused or its batch comes to an end (`refuses_or_carries`), and each of the two
is followed to its reply (`Refuses.ending`, `Carries.ending`).
-/

namespace EnumMigration

/-- A disk that acts on file trees.  It may refuse any write, and then leaves the tree as it is;
where it refuses to make a directory, some of those above it may have been made.  What it answers to
reads is left open. -/
structure Disk.OnTrees (disk : Disk (StateM FileTree)) : Prop where
  holds_run : ∀ path tree, ((disk.holds path).run tree).2 = tree
  read_run : ∀ path tree, ((disk.read path).run tree).2 = tree
  write_run : ∀ path bytes tree,
    (∃ next, tree.write path bytes = .ok next ∧ (disk.write path bytes).run tree = (.ok (), next)) ∨
      ∃ e, (disk.write path bytes).run tree = (.error e, tree)
  makeDirs_run : ∀ path tree, (disk.makeDirs path).run tree = tree.makeDirs path ∨
    ∃ e made, (disk.makeDirs path).run tree = (.error e, made) ∧ (made = tree ∨
      ∃ above : Path, above.components <+: path.components ∧ made = (tree.makeDirs above).2)

theorem FileTree.onTrees_disk : FileTree.disk.OnTrees where
  holds_run _ _ := rfl
  read_run _ _ := rfl
  write_run path bytes tree := by
    cases hwrite : tree.write path bytes with
    | ok next =>
        refine .inl ⟨next, rfl, ?_⟩
        simp [disk, hwrite]
        rfl
    | error e =>
        refine .inr ⟨e, ?_⟩
        simp [disk, hwrite]
        rfl
  makeDirs_run _ _ := .inl rfl

namespace Disk.OnTrees

variable {disk : Disk (StateM FileTree)} (h : disk.OnTrees)

include h

/-! ## Reading -/

theorem quiet_source (root : Path) : (disk.source root).Quiet where
  holds_run path tree := h.holds_run (root.resolve path) tree
  read_run path tree := by
    obtain ⟨text, htext⟩ : ∃ text, (disk.read (root.resolve path)).run tree = (text, tree) :=
      ⟨_, Prod.ext rfl (h.read_run _ tree)⟩
    exact congrArg Prod.snd (run_bind_of_run_eq htext)

theorem loadConfig_run (path : Path) (tree : FileTree) :
    ∃ loaded, (disk.loadConfig path).run tree = (loaded, tree) := by
  obtain ⟨text, htext⟩ : ∃ text, (disk.read path).run tree = (text, tree) :=
    ⟨_, Prod.ext rfl (h.read_run path tree)⟩
  unfold Disk.loadConfig
  rw [run_bind_of_run_eq htext]
  cases text with
  | error cause => exact ⟨_, rfl⟩
  | ok text => exact ⟨_, rfl⟩

/-- Loading a configuration leaves the disk alone. -/
theorem loadConfigOrDefault_run (root : Path) (named : Option Path) (tree : FileTree) :
    ∃ loaded, (disk.loadConfigOrDefault root named).run tree = (loaded, tree) := by
  unfold Disk.loadConfigOrDefault
  cases named with
  | some path => exact h.loadConfig_run path tree
  | none =>
      obtain ⟨found, hfound⟩ : ∃ found, (disk.discoverConfig root).run tree = (found, tree) := by
        obtain ⟨holds, hholds⟩ : ∃ holds,
            (disk.holds (root.join Config.fileName)).run tree = (holds, tree) :=
          ⟨_, Prod.ext rfl (h.holds_run _ tree)⟩
        unfold Disk.discoverConfig
        rw [run_bind_of_run_eq hholds]
        cases holds with
        | true => exact ⟨_, rfl⟩
        | false => exact ⟨_, rfl⟩
      dsimp only
      rw [run_bind_of_run_eq hfound]
      cases found with
      | none => exact ⟨_, rfl⟩
      | some path => exact h.loadConfig_run path tree

/-! ## Writing artifacts -/

variable {directory : Path} {before tree : FileTree}

theorem published_makeDirs {above : Path} (hpublished : FileTree.Published directory before tree)
    (habove : above.components <+: directory.components) :
    FileTree.Published directory before ((disk.makeDirs above).run tree).2 := by
  rcases h.makeDirs_run above tree with hmade | ⟨e, made, hrefused, rfl | ⟨higher, hhigher, rfl⟩⟩
  · rw [hmade]
    exact hpublished.makeDirs habove
  · rw [hrefused]
    exact hpublished
  · rw [hrefused]
    exact hpublished.makeDirs (hhigher.trans habove)

theorem published_write {name : String} (hpublished : FileTree.Published directory before tree)
    (hname : name ∈ FileTree.artifactNames) (bytes : ByteArray) :
    FileTree.Published directory before
      ((disk.write (directory.join ⟨name⟩) bytes).run tree).2 := by
  rcases h.write_run (directory.join ⟨name⟩) bytes tree with ⟨next, hwrite, hrun⟩ | ⟨e, hrefused⟩
  · rw [hrun]
    exact hpublished.write hname hwrite
  · rw [hrefused]
    exact hpublished

theorem published_publish {name : String} (hpublished : FileTree.Published directory before tree)
    (hname : name ∈ FileTree.artifactNames) (bytes : ByteArray) :
    FileTree.Published directory before
      ((disk.publish (directory.join ⟨name⟩) bytes).run tree).2 := by
  unfold Disk.publish
  cases hparent : (directory.join ⟨name⟩).parent? with
  | none => exact h.published_write hpublished hname bytes
  | some parent =>
      -- an artifact stands in the directory itself, so the parent is on the way to it
      obtain ⟨hplain, hnamed⟩ := FileTree.plain_of_artifact hname
      have habove : parent.components <+: directory.components :=
        Path.prefix_of_parent?_join hplain hnamed hparent
      have hmade := h.published_makeDirs hpublished habove
      obtain ⟨result, made, hrun⟩ : ∃ result made,
          (disk.makeDirs parent).run tree = (result, made) := ⟨_, _, rfl⟩
      rw [hrun] at hmade
      dsimp only
      rw [run_bind_of_run_eq hrun]
      cases result with
      | error e => exact hmade
      | ok _ => exact h.published_write hmade hname bytes

/-- Steps that write artifacts into a directory, as far as they get. -/
theorem published_performAll {steps : List ArtifactStep}
    (hsteps : ∀ step ∈ steps, step = .makeDirs directory ∨
      ∃ name ∈ FileTree.artifactNames, ∃ text, step = .write (directory.join ⟨name⟩) text)
    (hpublished : FileTree.Published directory before tree) :
    FileTree.Published directory before ((performAll disk.perform steps).run tree).2 := by
  induction steps generalizing tree with
  | nil => exact hpublished
  | cons step steps ih =>
      obtain ⟨hstep, hrest⟩ := List.forall_mem_cons.mp hsteps
      have hnext : FileTree.Published directory before ((disk.perform step).run tree).2 := by
        rcases hstep with rfl | ⟨name, hname, text, rfl⟩
        · exact h.published_makeDirs hpublished (List.prefix_refl _)
        · exact h.published_publish hpublished hname text.toUTF8
      obtain ⟨result, next, hrun⟩ : ∃ result next,
          (disk.perform step).run tree = (result, next) := ⟨_, _, rfl⟩
      rw [hrun] at hnext
      unfold performAll
      rw [run_bind_of_run_eq hrun]
      cases result with
      | error e => exact hnext
      | ok _ => exact ih hrest hnext

theorem published_writeArtifacts (outcome : BatchOutcome) (directory : Path) (tree : FileTree) :
    FileTree.Published directory tree ((disk.writeArtifacts outcome directory).run tree).2 := by
  apply h.published_performAll _ (.refl directory tree)
  intro step hstep
  simp only [BatchOutcome.artifacts, List.mem_cons, List.not_mem_nil, or_false] at hstep
  rcases hstep with rfl | rfl | rfl | rfl
  · exact .inl rfl
  · exact .inr ⟨"run.json", by decide, _, rfl⟩
  · exact .inr ⟨"run.md", by decide, _, rfl⟩
  · exact .inr ⟨"patch.diff", by decide, _, rfl⟩

end Disk.OnTrees

/-! ## The stages of a run -/

theorem CommandError.failure_alone (e : CommandError) :
    Reply.failure "" "" e = .output 1 "" e.line := by
  simp [Reply.failure]

namespace Host

section Stages

variable (host : Host (StateM FileTree)) (arguments : RunArguments) (before : FileTree)

/-- The configuration of a run, loaded from a tree. -/
def Loads (loaded : Except LoadError Config) : Prop :=
  (host.disk.loadConfigOrDefault arguments.source.root arguments.source.config).run before =
    (loaded, before)

/-- The configuration of a run and the settings that it resolves to. -/
structure Prepares (config : Config) (settings : Config.Resolved) : Prop where
  loads : host.Loads arguments before (.ok config)
  resolves : config.resolve arguments.override = .ok settings

/-- The batch of a run with its settings. -/
def batch (settings : Config.Resolved) : StateM FileTree (Except BatchError BatchOutcome) :=
  (host.disk.source arguments.source.root).runBatch host.clock thisTool settings.migration
    settings.dryRun

/-- A run that comes to the end of its batch. -/
structure Carries (config : Config) (settings : Config.Resolved) (outcome : BatchOutcome)
    (ran : FileTree) : Prop extends host.Prepares arguments before config settings where
  batch_run : (host.batch arguments settings).run before = (.ok outcome, ran)

/-- A run that fails before its batch: there is no configuration, it does not resolve, or the table
of the migration is not valid. -/
inductive Refuses : CommandError → Prop
  | load {cause : LoadError} (hload : host.Loads arguments before (.error cause)) :
      Refuses (.load cause)
  | config {config : Config} {cause : ConfigError}
      (hload : host.Loads arguments before (.ok config))
      (hresolve : config.resolve arguments.override = .error cause) : Refuses (.config cause)
  | table {config : Config} {settings : Config.Resolved} {cause : TableError}
      (hprepares : host.Prepares arguments before config settings)
      (htable : settings.migration.table = .error cause) :
      Refuses (.batch (.invalidMigration settings.migration.name cause))

/-- A run that fails behind its batch: the artifacts cannot be written. -/
inductive Unpublished : Prop
  | intro {config : Config} {settings : Config.Resolved} {outcome : BatchOutcome}
      {ran after : FileTree} {directory : Path} {cause : DiskError}
      (hcarries : host.Carries arguments before config settings outcome ran)
      (hdirectory : settings.outDir = some directory)
      (hwrite : (host.disk.writeArtifacts outcome directory).run ran = (.error cause, after))

end Stages

variable {host : Host (StateM FileTree)} {arguments : RunArguments} {before ran after : FileTree}
  {config : Config} {settings : Config.Resolved} {outcome : BatchOutcome} {e : CommandError}
  {directory : Path}

/-! ## Evaluating the stages -/

theorem Loads.resolveRun_run {loaded : Except LoadError Config}
    (h : host.Loads arguments before loaded) :
    (host.resolveRun arguments).run before =
      ((loaded.mapError CommandError.load).bind fun config =>
        (config.resolve arguments.override).mapError .config, before) := by
  have hload : (host.loadConfig arguments.source).run before =
      (loaded.mapError CommandError.load, before) := run_bind_of_run_eq h
  unfold resolveRun
  rw [run_bind_of_run_eq hload]
  cases loaded with
  | error cause => rfl
  | ok config => rfl

theorem Prepares.resolveRun_run (h : host.Prepares arguments before config settings) :
    (host.resolveRun arguments).run before = (.ok settings, before) := by
  rw [h.loads.resolveRun_run]
  simp only [Except.mapError, Except.bind, h.resolves]

theorem processRun_run {result : Except BatchError BatchOutcome}
    (h : (host.batch arguments settings).run before = (result, ran)) :
    (host.processRun arguments.source.root settings).run before =
      (result.mapError CommandError.batch, ran) :=
  run_bind_of_run_eq h

/-- Without a valid table the batch does not begin. -/
theorem batch_of_table_error {cause : TableError} (h : settings.migration.table = .error cause) :
    (host.batch arguments settings).run before =
      (.error (.invalidMigration settings.migration.name cause), before) := by
  rw [batch, SourceStore.runBatch, h]
  rfl

theorem run_of_resolveRun_error (h : (host.resolveRun arguments).run before = (.error e, before)) :
    (host.run arguments).run before = (.failure "" "" e, before) := by
  unfold Host.run
  rw [run_bind_of_run_eq h]
  rfl

/-- A run that is refused says why, and that is all it does. -/
theorem Refuses.run (h : host.Refuses arguments before e) :
    (host.run arguments).run before = (.failure "" "" e, before) := by
  cases h with
  | load hload => exact run_of_resolveRun_error hload.resolveRun_run
  | config hload hresolve =>
      apply run_of_resolveRun_error
      rw [hload.resolveRun_run]
      simp only [Except.mapError, Except.bind, hresolve]
  | table hprepares htable =>
      unfold Host.run
      rw [run_bind_of_run_eq hprepares.resolveRun_run]
      dsimp only
      rw [run_bind_of_run_eq (processRun_run (batch_of_table_error htable))]
      rfl

/-- What remains to be done behind the batch. -/
theorem Carries.run (h : host.Carries arguments before config settings outcome ran) :
    (host.run arguments).run before = (host.finishRun settings outcome).run ran := by
  unfold Host.run
  rw [run_bind_of_run_eq h.resolveRun_run]
  dsimp only
  rw [run_bind_of_run_eq (processRun_run h.batch_run)]
  rfl

theorem finishRun_none (h : settings.outDir = none) :
    (host.finishRun settings outcome).run ran =
      (.output outcome.exitCode (outcome.stdout ++ outcome.printedPatch) outcome.stderr, ran) := by
  rw [finishRun, h]
  rfl

theorem finishRun_error {cause : DiskError} (h : settings.outDir = some directory)
    (hwrite : (host.disk.writeArtifacts outcome directory).run ran = (.error cause, after)) :
    (host.finishRun settings outcome).run ran =
      (.failure outcome.stdout outcome.stderr (.artifacts directory cause), after) := by
  rw [finishRun, h]
  dsimp only
  rw [run_bind_of_run_eq hwrite]
  rfl

theorem finishRun_ok (h : settings.outDir = some directory)
    (hwrite : (host.disk.writeArtifacts outcome directory).run ran = (.ok (), after)) :
    (host.finishRun settings outcome).run ran =
      (.output outcome.exitCode outcome.stdout outcome.stderr, after) := by
  rw [finishRun, h]
  dsimp only
  rw [run_bind_of_run_eq hwrite]
  rfl

/-! ## How a run comes to its end -/

theorem exists_loads (hdisk : host.disk.OnTrees) (arguments : RunArguments) (before : FileTree) :
    ∃ loaded, host.Loads arguments before loaded :=
  hdisk.loadConfigOrDefault_run arguments.source.root arguments.source.config before

/-- A configuration leads to the same settings every time. -/
theorem Prepares.unique {config' : Config} {settings' : Config.Resolved}
    (h : host.Prepares arguments before config settings)
    (h' : host.Prepares arguments before config' settings') :
    config = config' ∧ settings = settings' := by
  have hconfig : config = config' :=
    Except.ok.inj (congrArg Prod.fst (h.loads.symm.trans h'.loads))
  subst hconfig
  exact ⟨rfl, Except.ok.inj (h.resolves.symm.trans h'.resolves)⟩

/-- A run is a dry run if its arguments or its configuration say so. -/
theorem Prepares.dryRun_of (h : host.Prepares arguments before config settings)
    (hdry : arguments.dryRun = true ∨ config.dryRun = true) : settings.dryRun = true := by
  have hresolve := h.resolves
  unfold Config.resolve at hresolve
  cases hmigration : config.migration with
  | error cause =>
      rw [hmigration] at hresolve
      cases hresolve
  | ok migration =>
      rw [hmigration] at hresolve
      cases hresolve
      exact Bool.or_eq_true_iff.mpr hdry

/-- A run is refused, or its batch comes to an end. -/
theorem refuses_or_carries (hdisk : host.disk.OnTrees) (hclock : host.clock.Passive)
    (arguments : RunArguments) (before : FileTree) :
    (∃ e, host.Refuses arguments before e) ∨ ∃ config settings outcome ran,
      host.Carries arguments before config settings outcome ran := by
  obtain ⟨loaded, hload⟩ := exists_loads hdisk arguments before
  cases loaded with
  | error cause => exact .inl ⟨_, .load hload⟩
  | ok config =>
      cases hresolve : config.resolve arguments.override with
      | error cause => exact .inl ⟨_, .config hload hresolve⟩
      | ok settings =>
          have hprepares : host.Prepares arguments before config settings := ⟨hload, hresolve⟩
          cases htable : settings.migration.table with
          | error cause => exact .inl ⟨_, .table hprepares htable⟩
          | ok table =>
              obtain ⟨outcome, visits, ran, hrun, -⟩ :=
                (host.disk.source arguments.source.root).runBatch_carries table settings.dryRun
                  hclock thisTool htable before
              exact .inr ⟨config, settings, outcome, ran, hprepares, hrun⟩

theorem Carries.unique {config' : Config} {settings' : Config.Resolved} {outcome' : BatchOutcome}
    {ran' : FileTree} (h : host.Carries arguments before config settings outcome ran)
    (h' : host.Carries arguments before config' settings' outcome' ran') :
    settings = settings' ∧ outcome = outcome' ∧ ran = ran' := by
  obtain ⟨-, rfl⟩ := h.toPrepares.unique h'.toPrepares
  have hsame := h.batch_run.symm.trans h'.batch_run
  exact ⟨rfl, Except.ok.inj (congrArg Prod.fst hsame), congrArg Prod.snd hsame⟩

/-- The batch of a dry run leaves the disk alone. -/
theorem Prepares.batch_dry (h : host.Prepares arguments before config settings)
    (hdry : arguments.dryRun = true ∨ config.dryRun = true) (hdisk : host.disk.OnTrees)
    (hclock : host.clock.Passive) : ((host.batch arguments settings).run before).2 = before := by
  cases htable : settings.migration.table with
  | error cause => rw [batch_of_table_error htable]
  | ok table =>
      obtain ⟨outcome, visits, ran, hrun, hprocessed, -⟩ :=
        (host.disk.source arguments.source.root).runBatch_carries table settings.dryRun hclock
          thisTool htable before
      rw [h.dryRun_of hdry] at hprocessed
      rw [batch, hrun]
      exact hprocessed.eq_of_dryRun (hdisk.quiet_source _)

/-- The batch of a run has a result for each file, and its exit code tells of failures. -/
theorem Carries.batch_spec (h : host.Carries arguments before config settings outcome ran)
    (hclock : host.clock.Passive) :
    outcome.run.results.map FileResult.path = settings.migration.files.map Path.text ∧
      outcome.exitCode =
        (if outcome.run.results.any fun result => result.status.isFailure then 2 else 0) := by
  cases htable : settings.migration.table with
  | error cause =>
      -- the batch would not have begun
      have hrun := h.batch_run.symm.trans (batch_of_table_error htable)
      cases congrArg Prod.fst hrun
  | ok table =>
      obtain ⟨outcome', visits, ran', hrun, hprocessed, hreports, -⟩ :=
        (host.disk.source arguments.source.root).runBatch_carries table settings.dryRun hclock
          thisTool htable before
      obtain rfl : outcome = outcome' :=
        Except.ok.inj (congrArg Prod.fst (h.batch_run.symm.trans hrun))
      rw [hreports.exitCode_eq, hreports.results_eq, List.any_map]
      exact ⟨hprocessed.paths_eq, rfl⟩

/-- A batch that is carried through ends with 2 if a file is missing or has an error, and otherwise
with 0. -/
theorem Carries.exitCode_spec (h : host.Carries arguments before config settings outcome ran)
    (hclock : host.clock.Passive) :
    (outcome.exitCode = 2 ∧ ∃ result ∈ outcome.run.results,
        result.status = .missing ∨ result.status = .errored) ∨
      (outcome.exitCode = 0 ∧ ¬ ∃ result ∈ outcome.run.results,
        result.status = .missing ∨ result.status = .errored) := by
  obtain ⟨-, hcode⟩ := h.batch_spec hclock
  have hany : (outcome.run.results.any fun result => result.status.isFailure) = true ↔
      ∃ result ∈ outcome.run.results, result.status = .missing ∨ result.status = .errored := by
    simp only [List.any_eq_true, FileStatus.isFailure_iff]
  rw [← hany, hcode]
  split
  · next hfailure => exact .inl ⟨rfl, hfailure⟩
  · next hfailure => exact .inr ⟨rfl, hfailure⟩

/-! ## Endings

The reply and the tree at the end of a run, for each way that it takes. -/

section Endings

variable {reply : Reply} (hrun : (host.run arguments).run before = (reply, after))

include hrun

theorem Refuses.ending (h : host.Refuses arguments before e) :
    reply = .output 1 "" e.line ∧ after = before := by
  have hsame := hrun.symm.trans h.run
  exact ⟨(congrArg Prod.fst hsame).trans e.failure_alone, congrArg Prod.snd hsame⟩

/-- Behind the batch there are only the artifacts. -/
theorem Carries.ending (h : host.Carries arguments before config settings outcome ran)
    (hdisk : host.disk.OnTrees) :
    (reply.code = 1 ∧ host.Unpublished arguments before ∨
        reply.code = outcome.exitCode ∧ ¬ host.Unpublished arguments before) ∧
      (settings.outDir = none → after = ran) ∧
      ∀ directory, settings.outDir = some directory → FileTree.Published directory ran after := by
  rw [h.run] at hrun
  cases hdirectory : settings.outDir with
  | none =>
      rw [finishRun_none hdirectory] at hrun
      cases hrun
      refine ⟨.inr ⟨rfl, ?_⟩, fun _ => rfl, nofun⟩
      -- artifacts that fail belong to the same settings, which have no directory for them
      rintro ⟨hcarries, hsome, -⟩
      obtain ⟨rfl, -⟩ := h.unique hcarries
      rw [hdirectory] at hsome
      cases hsome
  | some directory =>
      have hpublished := hdisk.published_writeArtifacts outcome directory ran
      obtain ⟨result, last, hwrite⟩ : ∃ result last,
          (host.disk.writeArtifacts outcome directory).run ran = (result, last) := ⟨_, _, rfl⟩
      rw [hwrite] at hpublished
      cases result with
      | error cause =>
          rw [finishRun_error hdirectory hwrite] at hrun
          cases hrun
          refine ⟨.inl ⟨rfl, h, hdirectory, hwrite⟩, nofun, ?_⟩
          rintro _ ⟨⟩
          exact hpublished
      | ok _ =>
          rw [finishRun_ok hdirectory hwrite] at hrun
          cases hrun
          refine ⟨.inr ⟨rfl, ?_⟩, nofun, ?_⟩
          · -- artifacts that fail were written from the same tree, where they did not fail
            rintro ⟨hcarries, hsome, hfailed⟩
            obtain ⟨rfl, rfl, rfl⟩ := h.unique hcarries
            rw [hdirectory] at hsome
            cases hsome
            cases congrArg Prod.fst (hwrite.symm.trans hfailed)
          · rintro _ ⟨⟩
            exact hpublished

theorem code_eq_one_iff (hdisk : host.disk.OnTrees) (hclock : host.clock.Passive) :
    reply.code = 1 ↔
      (∃ e, host.Refuses arguments before e) ∨ host.Unpublished arguments before := by
  rcases refuses_or_carries hdisk hclock arguments before with
    ⟨e, hrefuses⟩ | ⟨config, settings, outcome, ran, hcarries⟩
  · obtain ⟨rfl, -⟩ := hrefuses.ending hrun
    exact ⟨fun _ => .inl ⟨e, hrefuses⟩, fun _ => rfl⟩
  · obtain ⟨hcode, -⟩ := hcarries.ending hrun hdisk
    have hexit := hcarries.exitCode_spec hclock
    constructor
    · intro hone
      rcases hcode with ⟨-, hunpublished⟩ | ⟨hsame, -⟩
      · exact .inr hunpublished
      · -- the exit code of a batch is never 1
        omega
    · rintro (⟨e, hrefuses⟩ | hunpublished)
      · obtain ⟨rfl, -⟩ := hrefuses.ending hrun
        rfl
      · rcases hcode with ⟨hone, -⟩ | ⟨-, hpublished⟩
        · exact hone
        · exact (hpublished hunpublished).elim

/-- A run without a failure of its own came to the end of its batch and tells how it went. -/
theorem exists_carries_of_code (hdisk : host.disk.OnTrees) (hclock : host.clock.Passive)
    (hcode : reply.code ≠ 1) :
    ∃ config settings outcome ran, host.Carries arguments before config settings outcome ran ∧
      reply.code = outcome.exitCode := by
  rcases refuses_or_carries hdisk hclock arguments before with
    ⟨e, hrefuses⟩ | ⟨config, settings, outcome, ran, hcarries⟩
  · obtain ⟨rfl, -⟩ := hrefuses.ending hrun
    exact (hcode rfl).elim
  · obtain ⟨⟨hone, -⟩ | ⟨hsame, -⟩, -⟩ := hcarries.ending hrun hdisk
    · exact (hcode hone).elim
    · exact ⟨config, settings, outcome, ran, hcarries, hsame⟩

/-- Only artifacts and their directories appear in a dry run. -/
theorem Prepares.dry_ending (h : host.Prepares arguments before config settings)
    (hdry : arguments.dryRun = true ∨ config.dryRun = true) (hdisk : host.disk.OnTrees)
    (hclock : host.clock.Passive) :
    (settings.outDir = none → after = before) ∧
      ∀ directory, settings.outDir = some directory →
        FileTree.Published directory before after := by
  rcases refuses_or_carries hdisk hclock arguments before with
    ⟨e, hrefuses⟩ | ⟨config', settings', outcome, ran, hcarries⟩
  · obtain ⟨-, rfl⟩ := hrefuses.ending hrun
    exact ⟨fun _ => rfl, fun directory _ => .refl directory after⟩
  · obtain ⟨-, rfl⟩ := h.unique hcarries.toPrepares
    have hran : ran = before := by
      rw [← h.batch_dry hdry hdisk hclock, hcarries.batch_run]
    subst hran
    exact (hcarries.ending hrun hdisk).2

end Endings

/-! ## Main result -/

/-- How a command line ends that asks for a run.  The exit code is 1 if the run is refused or its
artifacts cannot be written.  Otherwise it is 2 if a listed file is missing or has an error, and 0
if there is none.  A run that is refused only reports why, and changes nothing.  The batch of a dry
run changes nothing either, and behind it only artifacts and their directories appear. -/
theorem commandLine_exits (hdisk : host.disk.OnTrees) (hclock : host.clock.Passive)
    {line : List String} (hread : Command.read line = .ok (.run arguments)) (before : FileTree) :
    ∃ reply after, (host.commandLine line).run before = (reply, after) ∧
      (reply.code = 1 ↔
        (∃ e, host.Refuses arguments before e) ∨ host.Unpublished arguments before) ∧
      (reply.code ≠ 1 → ∃ config settings outcome ran,
        host.Carries arguments before config settings outcome ran ∧
        outcome.run.results.map FileResult.path = settings.migration.files.map Path.text ∧
        (reply.code = 2 ↔ ∃ result ∈ outcome.run.results,
          result.status = .missing ∨ result.status = .errored) ∧
        (reply.code = 0 ↔ ¬ ∃ result ∈ outcome.run.results,
          result.status = .missing ∨ result.status = .errored)) ∧
      (∀ e, host.Refuses arguments before e → reply = .output 1 "" e.line ∧ after = before) ∧
      ∀ config settings, host.Prepares arguments before config settings →
        arguments.dryRun = true ∨ config.dryRun = true →
          ((host.batch arguments settings).run before).2 = before ∧
          (settings.outDir = none → after = before) ∧
          ∀ directory, settings.outDir = some directory →
            FileTree.Published directory before after := by
  obtain ⟨reply, after, hrun⟩ : ∃ reply after,
      (host.run arguments).run before = (reply, after) := ⟨_, _, rfl⟩
  have hline : (host.commandLine line).run before = (reply, after) := by
    rw [commandLine, hread]
    exact hrun
  refine ⟨reply, after, hline, code_eq_one_iff hrun hdisk hclock, ?_, ?_, ?_⟩
  · intro hcode
    obtain ⟨config, settings, outcome, ran, hcarries, hsame⟩ :=
      exists_carries_of_code hrun hdisk hclock hcode
    obtain ⟨hpaths, -⟩ := hcarries.batch_spec hclock
    refine ⟨config, settings, outcome, ran, hcarries, hpaths, ?_⟩
    rw [hsame]
    rcases hcarries.exitCode_spec hclock with ⟨htwo, hfailure⟩ | ⟨hzero, hfine⟩
    · simp [htwo, hfailure]
    · simp [hzero, hfine]
  · intro e hrefuses
    exact hrefuses.ending hrun
  · intro config settings hprepares hdry
    exact ⟨hprepares.batch_dry hdry hdisk hclock, hprepares.dry_ending hrun hdry hdisk hclock⟩

-- the configuration asks for a dry run, the arguments do not, and one of the files is missing
theorem commandLine_exits_dry_by_config :
    let host : Host (StateM FileTree) :=
      ⟨FileTree.disk, .fixed ⟨⟨2024, 1, 1, 0, 0, 0, 0⟩, by decide⟩ "run"⟩
    let text := "output.dry_run = true\n[migration]\nimport_line = 'i'\n" ++
      "[[migration.patterns]]\nlegacy = 'A'\nreplacement = 'B'"
    let before : FileTree :=
      ⟨["w"], [(["w", "enumfix.toml"], .file text.toUTF8), (["w", "a"], .file "A".toUTF8)]⟩
    let line := ["run", "--file", "a", "--file", "b", "--out-dir", "out/run"]
    let arguments : RunArguments := ⟨⟨⟨"."⟩, none⟩, [⟨"a"⟩, ⟨"b"⟩], false, some ⟨"out/run"⟩⟩
    let config : Config := ⟨none, some "i", none, [⟨"A", "B"⟩], none, true⟩
    let settings : Config.Resolved :=
      ⟨⟨"custom", "i", config.patterns, arguments.files⟩, true, arguments.outDir⟩
    Command.read line = .ok (.run arguments) ∧ host.Prepares arguments before config settings ∧
      ∃ reply after, (host.commandLine line).run before = (reply, after) ∧ reply.code = 2 ∧
        after.entries.map Prod.fst = [["w", "out", "run", "patch.diff"],
          ["w", "out", "run", "run.md"], ["w", "out", "run", "run.json"], ["w", "out", "run"],
          ["w", "out"], ["w", "enumfix.toml"], ["w", "a"]] ∧
        FileTree.Published ⟨"out/run"⟩ before after := by
  intro host text before line arguments config settings
  have hdisk : host.disk.OnTrees := FileTree.onTrees_disk
  have hclock : host.clock.Passive := Clock.passive_fixed _ _
  have hread : Command.read line = .ok (.run arguments) := by decide +kernel
  have hprepares : host.Prepares arguments before config settings := by
    obtain ⟨loaded, hload⟩ := exists_loads hdisk arguments before
    have hconfig : ((host.disk.loadConfigOrDefault ⟨"."⟩ none).run before).1 = .ok config := by
      decide +kernel
    obtain rfl : loaded = .ok config := (congrArg Prod.fst hload).symm.trans hconfig
    exact ⟨hload, by decide +kernel⟩
  have hends : (((host.commandLine line).run before).1.code,
      ((host.commandLine line).run before).2.entries.map Prod.fst) =
        (2, [["w", "out", "run", "patch.diff"], ["w", "out", "run", "run.md"],
          ["w", "out", "run", "run.json"], ["w", "out", "run"], ["w", "out"],
          ["w", "enumfix.toml"], ["w", "a"]]) := by
    decide +kernel
  obtain ⟨reply, after, hrun, -, -, -, hdry⟩ := commandLine_exits hdisk hclock hread before
  rw [hrun] at hends
  obtain ⟨-, -, hpublished⟩ := hdry config settings hprepares (.inr rfl)
  exact ⟨hread, hprepares, reply, after, hrun, congrArg Prod.fst hends, congrArg Prod.snd hends,
    hpublished ⟨"out/run"⟩ rfl⟩

end Host

end EnumMigration
