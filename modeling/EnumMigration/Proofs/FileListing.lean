import Mathlib.Data.List.Forall2
import EnumMigration.Proofs.RunCommand
import EnumMigration.Proofs.Totals

/-!
# The listing and a run agree on what is missing

The command `list-files` looks for all files of a migration at once.  A run looks for
each of them when its turn comes, on a disk that it is rewriting, and it finds them
through a store that resolves paths by a rule of its own.  The two name the same files
as missing.

## Strategy

The disk is any one on which writing a file that is there, whether or not it succeeds,
leaves open no new path and closes none (`Disk.Steady`); a file tree is such a disk
(`FileTree.steady_disk`).  A run writes no other files.  So at every entry of its list
the same paths lead to something as at the beginning (`SourceStore.Processed.heldAt_eq`),
and by induction the missing files are those that were not there before the run
(`SourceStore.ProcessedAll.missing_iff`).

What the listing shows is text.  The mark of a missing file can be read off its line
(`ListedFile.line_eq_marked_iff`), so the lines mark what the results do
(`marksMissing_lines`), and the number behind them is the run's (`fileTable_eq`).
-/

namespace EnumMigration

/-! ## Disks that files stay on -/

/-- Whether there is anything at a path. -/
def Disk.heldAt {σ : Type} (disk : Disk (StateM σ)) (state : σ) (path : Path) : Bool :=
  ((disk.holds path).run state).1

/-- A disk that looking and reading leave alone, and on which writing a file that is there
changes nothing about which paths lead to something. -/
structure Disk.Steady {σ : Type} (disk : Disk (StateM σ)) : Prop where
  holds_run : ∀ path state, ((disk.holds path).run state).2 = state
  read_run : ∀ path state, ((disk.read path).run state).2 = state
  write_run : ∀ path bytes state, disk.heldAt state path = true →
    ∀ other, disk.heldAt ((disk.write path bytes).run state).2 other = disk.heldAt state other

namespace FileTree

variable {tree later next : FileTree} {path : Path} {bytes : ByteArray}

theorem holds_iff : tree.holds path = true ↔
    ∃ names entry, tree.target path = .ok names ∧ tree.get? names = some entry := by
  unfold holds find
  cases htarget : tree.target path with
  | error fault => simp [bind, Except.bind, Except.isOk, Except.toBool]
  | ok names =>
      cases hentry : tree.get? names with
      | none => simp [bind, Except.bind, Except.isOk, Except.toBool, hentry]
      | some entry => simp [bind, Except.bind, Except.isOk, Except.toBool, hentry]

/-- What a path leads to stays, if directories and entries do. -/
theorem Grows.holds (h : tree.Grows later)
    (hstays : ∀ names entry, tree.get? names = some entry → ∃ entry', later.get? names = some entry')
    (hholds : tree.holds path = true) : later.holds path = true := by
  obtain ⟨names, entry, htarget, hentry⟩ := holds_iff.mp hholds
  obtain ⟨entry', hentry'⟩ := hstays names entry hentry
  exact holds_iff.mpr ⟨names, entry', h.target htarget, hentry'⟩

/-- A file that is there is only replaced, so the same paths lead to something. -/
theorem holds_of_write (hholds : tree.holds path = true) (hwrite : tree.write path bytes = .ok next)
    (other : Path) : next.holds other = tree.holds other := by
  unfold FileTree.write at hwrite
  split at hwrite
  · cases hwrite
  · rename_i names hsite
    cases hwrite
    obtain ⟨hfree, htarget⟩ := target_of_fileSite hsite
    obtain ⟨found, entry, hfound, hentry⟩ := holds_iff.mp hholds
    obtain rfl : names = found := Except.ok.inj ((htarget tree (.refl tree)).symm.trans hfound)
    have hself : (tree.put names (.file bytes)).get? names = some (.file bytes) := get?_put_self hfree
    have hback : (tree.put names (.file bytes)).Grows tree := by
      refine ⟨rfl, fun place hdirectory => ?_⟩
      by_cases hplace : place = names
      · rw [hplace, hself] at hdirectory
        cases hdirectory
      · rwa [get?_put_other hplace] at hdirectory
    rw [Bool.eq_iff_iff]
    constructor
    · apply hback.holds
      intro place found hplace
      by_cases hsame : place = names
      · exact ⟨entry, hsame ▸ hentry⟩
      · exact ⟨found, by rwa [get?_put_other hsame] at hplace⟩
    · apply (grows_put hfree).holds
      intro place found hplace
      by_cases hsame : place = names
      · exact ⟨.file bytes, hsame ▸ hself⟩
      · exact ⟨found, by rwa [get?_put_other hsame]⟩

theorem steady_disk : FileTree.disk.Steady where
  holds_run _ _ := rfl
  read_run _ _ := rfl
  write_run path bytes tree hholds other := by
    have hboth := onTrees_disk.write_run path bytes tree
    rcases hboth with ⟨next, hwrite, hrun⟩ | ⟨e, hrun⟩
    · rw [hrun]
      exact holds_of_write hholds hwrite other
    · rw [hrun]

end FileTree

/-! ## Stores that files stay in -/

/-- Both ways to find a path below a root lead to the same place. -/
theorem Path.resolve_eq_join (root path : Path) : root.resolve path = root.join path := by
  unfold resolve join
  cases path.isAbsolute with
  | true => rfl
  | false => rfl

namespace SourceStore

variable {σ : Type} {store : SourceStore (StateM σ)}

/-- Whether a store holds anything at a path. -/
def heldAt (store : SourceStore (StateM σ)) (state : σ) (path : Path) : Bool :=
  ((store.holds path).run state).1

/-- A store that looking and reading leave alone, and in which writing a file that is there
changes nothing about which paths lead to something. -/
structure Steady (store : SourceStore (StateM σ)) : Prop extends store.Quiet where
  write_run : ∀ path text state, store.heldAt state path = true →
    ∀ other, store.heldAt ((store.write path text).run state).2 other = store.heldAt state other

variable {table : Table} {dryRun : Bool} {path : Path} {paths : List Path} {state next last : σ}
  {visit : FileResult × String} {visits : List (FileResult × String)}

theorem Steady.heldAt_of_write (h : store.Steady) {text : String} {result : Except StoreError Unit}
    (hheld : store.heldAt state path = true)
    (hwrite : (store.write path text).run state = (result, next)) (other : Path) :
    store.heldAt next other = store.heldAt state other := by
  have hkept := h.write_run path text state hheld other
  rwa [hwrite] at hkept

/-- Only a file that is there is written, so every path is held as before. -/
theorem Processed.heldAt_eq (h : store.Processed table dryRun path state visit next)
    (hsteady : store.Steady) (other : Path) :
    store.heldAt next other = store.heldAt state other := by
  have hquiet := hsteady.toQuiet
  cases h with
  | missing hholds => rw [hquiet.looked_eq hholds]
  | unread hholds hread | kept hholds hread =>
      rw [hquiet.opened_eq hread, hquiet.looked_eq hholds]
  | unwritten hholds hread hreal hwrite | written hholds hread hreal hwrite =>
      have hheld : store.heldAt state path = true := congrArg Prod.fst hholds
      obtain rfl := hquiet.opened_eq hread
      obtain rfl := hquiet.looked_eq hholds
      exact hsteady.heldAt_of_write hheld hwrite other

/-- A file is missing exactly if it is not held when its turn comes. -/
theorem Processed.missing_iff (h : store.Processed table dryRun path state visit next) :
    visit.1.status = .missing ↔ store.heldAt state path = false := by
  unfold heldAt
  cases h with
  | missing hholds => simp [hholds, FileResult.missing, FileResult.ofStatus]
  | unread hholds | unwritten hholds =>
      simp [hholds, FileResult.errored, FileResult.ofStatus]
  | kept hholds | written hholds =>
      rw [FileResult.status_ofMigrated, hholds]
      split <;> simp

theorem ProcessedAll.missing_iff (h : store.ProcessedAll table dryRun paths state visits last)
    (hsteady : store.Steady) :
    List.Forall₂ (fun path visit => visit.1.status = .missing ↔ store.heldAt state path = false)
      paths visits := by
  induction h with
  | nil => exact .nil
  | cons hfirst _ ih =>
      refine .cons hfirst.missing_iff ?_
      simpa only [hfirst.heldAt_eq hsteady] using ih

end SourceStore

theorem Disk.Steady.source {σ : Type} {disk : Disk (StateM σ)} (h : disk.Steady) (root : Path) :
    (disk.source root).Steady where
  holds_run path state := h.holds_run (root.resolve path) state
  read_run path state := by
    obtain ⟨text, next, htext⟩ : ∃ text next,
        (disk.read (root.resolve path)).run state = (text, next) := ⟨_, _, rfl⟩
    have hsame := h.read_run (root.resolve path) state
    rw [htext] at hsame
    exact (congrArg Prod.snd (run_bind_of_run_eq htext)).trans hsame
  write_run path text state hheld other := by
    obtain ⟨result, next, hwrite⟩ : ∃ result next,
        (disk.write (root.resolve path) text.toUTF8).run state = (result, next) := ⟨_, _, rfl⟩
    have hrun : ((disk.source root).write path text).run state =
        (result.mapError .disk, next) := run_bind_of_run_eq hwrite
    have hkept := h.write_run (root.resolve path) text.toUTF8 state hheld (root.resolve other)
    rw [hwrite] at hkept
    rw [hrun]
    exact hkept

/-! ## The listing -/

/-- The migration of a configuration is that of a run without files of its own. -/
theorem Config.resolve_of_no_files {config : Config} {migration : Migration}
    (h : config.migration = .ok migration) (override : Config.Override)
    (hfiles : override.files = []) :
    ∃ settings, config.resolve override = .ok settings ∧ settings.migration = migration := by
  refine ⟨_, by rw [Config.resolve, h]; rfl, ?_⟩
  simp [hfiles]

/-! ## What the listing prints -/

/-- A path looks different with the mark of a missing file and without it. -/
theorem marked_ne_plain (path : Path) : s!"✗ {path.text} (missing)\n" ≠ s!"  {path.text}\n" := by
  intro h
  have hfirst := congrArg (fun line : String => line.toList.head?) h
  simp [toString] at hfirst

theorem ListedFile.line_eq_marked_iff (file : ListedFile) :
    file.line = s!"✗ {file.path.text} (missing)\n" ↔ file.isThere = false := by
  unfold line
  cases file.isThere with
  | true => exact iff_of_false (marked_ne_plain file.path).symm (by simp)
  | false => exact iff_of_true rfl rfl

theorem ListedFile.line_eq_plain_iff (file : ListedFile) :
    file.line = s!"  {file.path.text}\n" ↔ file.isThere = true := by
  unfold line
  cases file.isThere with
  | true => exact iff_of_true rfl rfl
  | false => exact iff_of_false (marked_ne_plain file.path) (by simp)

/-- Lines that show paths in order, and mark as missing those whose result is, and no
others. -/
structure MarksMissing (lines : List String) (paths : List Path) (results : List FileResult) :
    Prop where
  length_lines : lines.length = paths.length
  length_results : results.length = paths.length
  marked_iff : ∀ (i : Nat) path result, paths[i]? = some path → results[i]? = some result →
    (lines[i]? = some s!"✗ {path.text} (missing)\n" ↔ result.status = .missing)
  plain_iff : ∀ (i : Nat) path result, paths[i]? = some path → results[i]? = some result →
    (lines[i]? = some s!"  {path.text}\n" ↔ result.status ≠ .missing)

section Printed

variable {listed : List ListedFile} {results : List FileResult}
  (h : List.Forall₂ (fun file result => file.isThere = false ↔ result.status = .missing) listed
    results)

include h

/-- The lines of a listing mark what some results do, if its files agree with them. -/
theorem marksMissing_lines :
    MarksMissing (listed.map ListedFile.line) (listed.map ListedFile.path) results := by
  have hagree : ∀ {i : Nat} {path : Path} {result : FileResult},
      (listed.map ListedFile.path)[i]? = some path → results[i]? = some result →
      ∃ file : ListedFile, listed[i]? = some file ∧ file.path = path ∧
        (file.isThere = false ↔ result.status = .missing) := by
    intro i path result hpath hresult
    rw [List.getElem?_map] at hpath
    obtain ⟨file, hfile, rfl⟩ := Option.map_eq_some_iff.mp hpath
    obtain ⟨hi, rfl⟩ := List.getElem?_eq_some_iff.mp hfile
    obtain ⟨hi', rfl⟩ := List.getElem?_eq_some_iff.mp hresult
    exact ⟨_, hfile, rfl, (List.forall₂_iff_get.mp h).2 i hi hi'⟩
  refine ⟨by simp, by simp [h.length_eq], ?_, ?_⟩
  · intro i path result hpath hresult
    obtain ⟨file, hfile, rfl, hmissing⟩ := hagree hpath hresult
    rw [List.getElem?_map, hfile, Option.map_some, Option.some.injEq, file.line_eq_marked_iff,
      hmissing]
  · intro i path result hpath hresult
    obtain ⟨file, hfile, rfl, hmissing⟩ := hagree hpath hresult
    rw [List.getElem?_map, hfile, Option.map_some, Option.some.injEq, file.line_eq_plain_iff,
      Ne, ← hmissing, Bool.not_eq_false]

/-- If a list and some results mark the same files as missing, they count as many. -/
theorem countMissing_eq :
    countMissing listed = (results.map FileResult.status).count .missing := by
  unfold countMissing
  induction h with
  | nil => rfl
  | @cons file result listed results hfirst _ ih =>
      rw [List.countP_cons, ih, List.map_cons, List.count_cons]
      congr 1
      simp [hfirst]

/-- What is printed behind the lines of the files is how many results are missing. -/
theorem fileTable_eq {missing : Nat}
    (hmissing : (results.map FileResult.status).count .missing = missing) :
    fileTable listed = String.join (listed.map ListedFile.line) ++
      s!"\n{listed.length} files listed, {missing} missing\n" := by
  rw [← hmissing, ← countMissing_eq h]
  rfl

end Printed

namespace Host

/-- The files of a migration below a root, and which of them a disk holds. -/
def listedAt {σ : Type} (host : Host (StateM σ)) (state : σ) (root : Path) (files : List Path) :
    List ListedFile :=
  files.map fun path => ⟨path, host.disk.heldAt state (root.join path)⟩

theorem map_path_listedAt {σ : Type} (host : Host (StateM σ)) (state : σ) (root : Path)
    (files : List Path) : (host.listedAt state root files).map ListedFile.path = files := by
  simp [listedAt, Function.comp_def]

theorem length_listedAt {σ : Type} (host : Host (StateM σ)) (state : σ) (root : Path)
    (files : List Path) : (host.listedAt state root files).length = files.length :=
  List.length_map _

theorem findFiles_run {σ : Type} {host : Host (StateM σ)} (hdisk : host.disk.Steady) (root : Path)
    (files : List Path) (state : σ) :
    (host.findFiles root files).run state = (host.listedAt state root files, state) := by
  unfold findFiles
  induction files with
  | nil => rfl
  | cons path files ih =>
      have hholds : (host.disk.holds (root.join path)).run state =
          (host.disk.heldAt state (root.join path), state) :=
        Prod.ext rfl (hdisk.holds_run _ state)
      have hfile : (do return ⟨path, ← host.disk.holds (root.join path)⟩ :
          StateM σ ListedFile).run state =
            (⟨path, host.disk.heldAt state (root.join path)⟩, state) := run_bind_of_run_eq hholds
      rw [List.mapM_cons]
      calc
        _ = _ := run_bind_of_run_eq hfile
        _ = _ := run_bind_of_run_eq ih

variable {host : Host (StateM FileTree)} {arguments : RunArguments} {before : FileTree}
  {config : Config} {migration : Migration}

theorem Loads.loadMigration_run (h : host.Loads arguments before (.ok config))
    (hmigration : config.migration = .ok migration) :
    (host.loadMigration arguments.source).run before = (.ok migration, before) := by
  have hload : (host.loadConfig arguments.source).run before = (.ok config, before) :=
    run_bind_of_run_eq h
  unfold loadMigration
  rw [run_bind_of_run_eq hload]
  simp only [hmigration]
  rfl

theorem Loads.listFiles_run (h : host.Loads arguments before (.ok config))
    (hmigration : config.migration = .ok migration) (hdisk : host.disk.Steady) :
    (host.listFiles arguments.source).run before =
      (.output 0 (fileTable (host.listedAt before arguments.source.root migration.files)) "",
        before) := by
  unfold listFiles
  rw [run_bind_of_run_eq (h.loadMigration_run hmigration)]
  dsimp only
  rw [run_bind_of_run_eq (findFiles_run hdisk arguments.source.root migration.files before)]
  rfl

/-! ## Main result -/

/-- **The listing and a run agree on what is missing.**  Two command lines ask for the
listing of files and for a run, dry or real, with the same root and configuration, and
the run names no files of its own.  The configuration resolves to a migration with a
valid table, and the disk is one that files stay on.  Then the run comes to the end of
its batch with a result for each file of the migration.  The listing prints a line for
each of them, with the mark of a missing file exactly if its result is missing, and
behind these lines the number of missing files that the run has counted. -/
theorem listing_agrees (hdisk : host.disk.Steady) (hclock : host.clock.Passive)
    {listing running : List String}
    (hlisting : Command.read listing = .ok (.listFiles arguments.source))
    (hrunning : Command.read running = .ok (.run arguments)) (hfiles : arguments.files = [])
    (hloads : host.Loads arguments before (.ok config))
    (hmigration : config.migration = .ok migration) {table : Table}
    (htable : migration.table = .ok table) :
    ∃ (lines : List String) (settings : Config.Resolved) (outcome : BatchOutcome) (ran : FileTree),
      (host.commandLine listing).run before =
        (.output 0 (String.join lines ++ s!"\n{migration.files.length} files listed, " ++
          s!"{outcome.run.summary.missing} missing\n") "", before) ∧
      MarksMissing lines migration.files outcome.run.results ∧
      host.Carries arguments before config settings outcome ran ∧
      (host.commandLine running).run before = (host.finishRun settings outcome).run ran ∧
      settings.migration = migration ∧
      outcome.run.results.map FileResult.path = migration.files.map Path.text := by
  obtain ⟨settings, hresolve, rfl⟩ :=
    Config.resolve_of_no_files hmigration arguments.override hfiles
  have hsteady := hdisk.source arguments.source.root
  obtain ⟨outcome, visits, ran, hrun, hprocessed, hreports, -⟩ :=
    (host.disk.source arguments.source.root).runBatch_carries table settings.dryRun hclock thisTool
      htable before
  have hcarries : host.Carries arguments before config settings outcome ran :=
    ⟨⟨hloads, hresolve⟩, hrun⟩
  have hmissing : List.Forall₂ (fun file result => file.isThere = false ↔ result.status = .missing)
      (host.listedAt before arguments.source.root settings.migration.files) outcome.run.results := by
    rw [hreports.results_eq, listedAt, List.forall₂_map_left_iff, List.forall₂_map_right_iff]
    apply (hprocessed.missing_iff hsteady).imp
    intro path visit hvisit
    rw [hvisit, ← Path.resolve_eq_join]
    rfl
  have hcount : (outcome.run.results.map FileResult.status).count .missing =
      outcome.run.summary.missing :=
    ((SourceStore.accounted_of_runBatch hrun).tally_eq .missing).symm
  have hmarks := marksMissing_lines hmissing
  rw [map_path_listedAt] at hmarks
  refine ⟨_, settings, outcome, ran, ?_, hmarks, hcarries, ?_, rfl, ?_⟩
  · rw [commandLine, hlisting]
    refine (hloads.listFiles_run hmigration hdisk).trans ?_
    rw [fileTable_eq hmissing hcount, length_listedAt]
    simp only [String.append_assoc]
  · rw [commandLine, hrunning]
    exact hcarries.run
  · rw [hreports.results_eq, hprocessed.paths_eq]

-- the run rewrites `a` and reads it again under its absolute path; the empty path is the root
theorem listing_agrees_all_kinds :
    let host : Host (StateM FileTree) :=
      ⟨FileTree.disk, .fixed ⟨⟨2024, 1, 1, 0, 0, 0, 0⟩, by decide⟩ "run"⟩
    let text := "[migration]\nimport_line = 'i'\nfiles = ['a', 'b', '/w/a', '', 'b', '/x']\n" ++
      "[[migration.patterns]]\nlegacy = 'A'\nreplacement = 'B'"
    let before : FileTree :=
      ⟨["w"], [(["w", "enumfix.toml"], .file text.toUTF8), (["w", "a"], .file "A".toUTF8)]⟩
    let arguments : RunArguments := ⟨⟨⟨"."⟩, none⟩, [], false, none⟩
    let files : List Path := [⟨"a"⟩, ⟨"b"⟩, ⟨"/w/a"⟩, ⟨""⟩, ⟨"b"⟩, ⟨"/x"⟩]
    let config : Config := ⟨none, some "i", some files, [⟨"A", "B"⟩], none, false⟩
    let settings : Config.Resolved := ⟨⟨"custom", "i", config.patterns, files⟩, false, none⟩
    host.Loads arguments before (.ok config) ∧
    ∃ (lines : List String) (outcome : BatchOutcome) (ran : FileTree),
      (host.commandLine ["list-files"]).run before =
        (.output 0 ("  a\n✗ b (missing)\n  /w/a\n  \n✗ b (missing)\n✗ /x (missing)\n\n" ++
          "6 files listed, 3 missing\n") "", before) ∧
      String.join lines ++ s!"\n{files.length} files listed, " ++
          s!"{outcome.run.summary.missing} missing\n" =
        "  a\n✗ b (missing)\n  /w/a\n  \n✗ b (missing)\n✗ /x (missing)\n\n" ++
          "6 files listed, 3 missing\n" ∧
      MarksMissing lines files outcome.run.results ∧
      host.Carries arguments before config settings outcome ran ∧
      outcome.run.results.map FileResult.status =
        [.updated, .missing, .unchanged, .errored, .missing, .missing] := by
  intro host text before arguments files config settings
  have hontrees : host.disk.OnTrees := FileTree.onTrees_disk
  have hclock : host.clock.Passive := Clock.passive_fixed _ _
  have hloads : host.Loads arguments before (.ok config) := by
    obtain ⟨loaded, hload⟩ := exists_loads hontrees arguments before
    have hconfig : ((host.disk.loadConfigOrDefault ⟨"."⟩ none).run before).1 = .ok config := by
      decide +kernel
    obtain rfl : loaded = .ok config := (congrArg Prod.fst hload).symm.trans hconfig
    exact hload
  have hlisting : Command.read ["list-files"] = .ok (.listFiles arguments.source) := by
    decide +kernel
  have hrunning : Command.read ["run"] = .ok (.run arguments) := by decide +kernel
  have hmigration : config.migration = .ok settings.migration := by decide +kernel
  have haccepted : settings.migration.table.toOption.map Table.importLine = some "i" := by
    decide +kernel
  obtain ⟨table, htable, -⟩ := exists_ok_of_toOption_map haccepted
  obtain ⟨lines, settings', outcome, ran, hlisted, hmarks, hcarries, -⟩ :=
    listing_agrees FileTree.steady_disk hclock hlisting hrunning rfl hloads hmigration htable
  have hresolve : config.resolve arguments.override = .ok settings := by decide +kernel
  obtain rfl : settings = settings' := Except.ok.inj (hresolve.symm.trans hcarries.resolves)
  have hprinted : ((host.commandLine ["list-files"]).run before).1 = .output 0
      ("  a\n✗ b (missing)\n  /w/a\n  \n✗ b (missing)\n✗ /x (missing)\n\n" ++
        "6 files listed, 3 missing\n") "" := by
    decide +kernel
  have htext := hprinted
  rw [hlisted] at htext
  have hstatuses : ((host.batch arguments settings).run before).1.toOption.map
      (fun outcome => outcome.run.results.map FileResult.status) =
        some [.updated, .missing, .unchanged, .errored, .missing, .missing] := by
    decide +kernel
  rw [hcarries.batch_run] at hstatuses
  exact ⟨hloads, lines, outcome, ran, hlisted.trans (Prod.ext htext rfl),
    (Reply.output.inj htext).2.1, hmarks, hcarries, Option.some.inj hstatuses⟩

end Host

end EnumMigration
