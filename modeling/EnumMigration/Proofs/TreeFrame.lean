import EnumMigration.Artifacts
import EnumMigration.Disk.Tree
import EnumMigration.Proofs.PathSpelling

/-!
# What writing artifacts leaves alone

Writing the artifacts of a run into a directory makes this directory, the directories above it that
are not there yet, and the files in it.  Everything else on the disk stays as it is, and so do all
directories.

## Strategy

`Published` compares the tree from before with any later one: an entry is as it was, or it is one of
those that may appear.  It is kept by making a directory (`Published.makeDir`) and by writing an
artifact (`Published.write`).  What makes this work is that directories never go away (`Grows`), so
that a path leads to the same place in every later tree.
-/

namespace EnumMigration

namespace FileTree

/-! ## Directories stay -/

/-- A later tree: the directories are still there. -/
structure Grows (tree later : FileTree) : Prop where
  workingDirectory_eq : later.workingDirectory = tree.workingDirectory
  directory : ∀ names, tree.get? names = some .directory → later.get? names = some .directory

variable {tree later last next : FileTree} {path : Path} {names found : TreeNames}
  {piece : List Char} {entry : TreeEntry}

theorem Grows.refl (tree : FileTree) : tree.Grows tree := ⟨rfl, fun _ h => h⟩

theorem Grows.trans (h : tree.Grows later) (h' : later.Grows last) : tree.Grows last :=
  ⟨h'.workingDirectory_eq.trans h.workingDirectory_eq, fun names hnames =>
    h'.directory names (h.directory names hnames)⟩

theorem requireDirectory_eq_ok : tree.requireDirectory names = .ok () ↔
    tree.get? names = some .directory := by
  unfold requireDirectory
  cases tree.get? names with
  | none => simp
  | some entry => cases entry <;> simp

theorem directory_of_step (h : tree.step names piece = .ok found) :
    tree.get? names = some .directory := by
  unfold step at h
  cases hdirectory : tree.requireDirectory names with
  | error fault => simp [hdirectory, bind, Except.bind] at h
  | ok _ => exact requireDirectory_eq_ok.mp hdirectory

theorem Grows.step (h : tree.Grows later) (hstep : tree.step names piece = .ok found) :
    later.step names piece = .ok found := by
  have hnames := directory_of_step hstep
  unfold FileTree.step at hstep ⊢
  rw [requireDirectory_eq_ok.mpr hnames] at hstep
  rw [requireDirectory_eq_ok.mpr (h.directory names hnames)]
  exact hstep

theorem Grows.walk (h : tree.Grows later) {pieces : List (List Char)}
    (hwalk : pieces.foldlM tree.step names = .ok found) :
    pieces.foldlM later.step names = .ok found := by
  induction pieces generalizing names with
  | nil => exact hwalk
  | cons piece pieces ih =>
      rw [List.foldlM_cons] at hwalk ⊢
      cases hstep : tree.step names piece with
      | error fault =>
          rw [hstep] at hwalk
          cases hwalk
      | ok next =>
          rw [hstep] at hwalk
          rw [h.step hstep]
          exact ih hwalk

theorem Grows.start_eq (h : tree.Grows later) (path : Path) :
    later.start path = tree.start path := by
  unfold start
  rw [h.workingDirectory_eq]

/-- A path leads to the same place in every later tree. -/
theorem Grows.target (h : tree.Grows later) (htarget : tree.target path = .ok names) :
    later.target path = .ok names := by
  unfold FileTree.target at htarget ⊢
  cases haddress : requireAddressable path with
  | error fault => simp [haddress, bind, Except.bind] at htarget
  | ok _ =>
      rw [haddress] at htarget
      rw [h.start_eq path]
      exact h.walk htarget

/-! ## Putting an entry -/

theorem get?_put_self (hfree : tree.get? names ≠ some .directory) :
    (tree.put names entry).get? names = some entry := by
  have hprefix : names.isPrefixOf tree.workingDirectory = false := by
    by_contra hprefix
    rw [Bool.not_eq_false] at hprefix
    exact hfree (by rw [get?, if_pos hprefix])
  rw [get?_put, hprefix]
  simp

theorem get?_put_other {other : TreeNames} (hother : other ≠ names) :
    (tree.put names entry).get? other = tree.get? other := by
  rw [get?_put]
  simp [hother]

theorem grows_put (hfree : tree.get? names ≠ some .directory) :
    tree.Grows (tree.put names entry) := by
  refine ⟨rfl, ?_⟩
  intro other hdirectory
  have hother : other ≠ names := by
    rintro rfl
    exact hfree hdirectory
  rw [get?_put_other hother]
  exact hdirectory

/-! ## Places for new entries -/

theorem component?_eq_name {name : String} (h : Path.component? piece = some (.name name)) :
    name = String.ofList piece := by
  unfold Path.component? at h
  split at h
  · cases h
  · split at h
    · cases h
    · exact (Component.name.inj (Option.some.inj h)).symm

theorem step_of_name (hnames : tree.get? names = some .directory) {name : String}
    (hname : Path.component? piece = some (.name name)) (hshort : requireShort name = .ok ()) :
    tree.step names piece = .ok (names ++ [name]) := by
  obtain rfl := component?_eq_name hname
  unfold step
  rw [requireDirectory_eq_ok.mpr hnames, hname]
  simp only [bind, Except.bind, hshort]
  rfl

theorem step_of_nil (hnames : tree.get? names = some .directory) :
    tree.step names [] = .ok names := by
  unfold step
  rw [requireDirectory_eq_ok.mpr hnames]
  rfl

theorem walk_slashes (hnames : tree.get? names = some .directory) {slashes : List (List Char)}
    (hslashes : ∀ piece ∈ slashes, piece = []) : slashes.foldlM tree.step names = .ok names := by
  induction slashes with
  | nil => rfl
  | cons piece slashes ih =>
      obtain ⟨rfl, hrest⟩ := List.forall_mem_cons.mp hslashes
      rw [List.foldlM_cons, step_of_nil hnames]
      exact ih hrest

/-- The place for a new entry: a directory that is there, the last name of the path, and slashes
behind it. -/
structure Site.Fits (site : Site) (tree : FileTree) (path : Path) (name : String)
    (outer slashes : List (List Char)) (last : List Char) : Prop where
  addressable : requireAddressable path = .ok ()
  split_eq : path.text.toList.splitOn '/' = outer ++ last :: slashes
  slashes_eq : ∀ piece ∈ slashes, piece = []
  trailing : site.trailingSlash = false → slashes = []
  walk : outer.foldlM tree.step (tree.start path) = .ok site.directory
  directory : tree.get? site.directory = some .directory
  component : Path.component? last = some (.name name)

theorem exists_slashes {pieces outer : List (List Char)} {last : List Char}
    (h : pieces.reverse.dropWhile (· == []) = last :: outer) :
    ∃ slashes, pieces = outer.reverse ++ last :: slashes ∧ (∀ piece ∈ slashes, piece = []) ∧
      ((pieces.reverse.head? == some []) = false → slashes = []) := by
  have hall : pieces.reverse = pieces.reverse.takeWhile (· == []) ++ last :: outer := by
    rw [← h, List.takeWhile_append_dropWhile]
  have hidle : ∀ piece ∈ pieces.reverse.takeWhile (· == []), piece = [] := by
    intro piece hmem
    exact beq_iff_eq.mp (List.all_eq_true.mp List.all_takeWhile piece hmem)
  generalize pieces.reverse.takeWhile (· == []) = slashes at hall hidle
  refine ⟨slashes.reverse, ?_, ?_, ?_⟩
  · calc
      pieces = pieces.reverse.reverse := pieces.reverse_reverse.symm
      _ = outer.reverse ++ last :: slashes.reverse := by simp [hall]
  · intro piece hmem
    exact hidle piece (List.mem_reverse.mp hmem)
  · intro htrailing
    cases slashes with
    | nil => rfl
    | cons piece slashes =>
        obtain rfl := hidle piece List.mem_cons_self
        simp [hall] at htrailing

theorem exists_fits {site : Site} {name : String} (h : tree.site path = .ok site)
    (hname : site.name? = some name) :
    ∃ outer slashes last, site.Fits tree path name outer slashes last := by
  unfold FileTree.site at h
  cases haddress : requireAddressable path with
  | error fault => simp [haddress, bind, Except.bind] at h
  | ok _ =>
      rw [haddress] at h
      dsimp only [bind, Except.bind] at h
      split at h
      · cases h
        cases hname
      · rename_i last outer hpieces
        split at h
        · cases h
        · rename_i directory hwalk
          split at h
          · cases h
          · rename_i hdirectory
            split at h
            · rename_i hcomponent
              cases h
              cases hname
              obtain ⟨slashes, hsplit, hslashes, htrailing⟩ := exists_slashes hpieces
              exact ⟨outer.reverse, slashes, last, haddress, hsplit, hslashes, htrailing, hwalk,
                requireDirectory_eq_ok.mp hdirectory, hcomponent⟩
            · cases h
              cases hname

/-- Behind the last name of a path there are only slashes. -/
theorem Site.Fits.target {site : Site} {name : String} {outer slashes : List (List Char)}
    {last : List Char} (h : site.Fits tree path name outer slashes last)
    (hshort : requireShort name = .ok ()) (hgrows : tree.Grows later)
    (hend : slashes = [] ∨ later.get? (site.directory ++ [name]) = some .directory) :
    later.target path = .ok (site.directory ++ [name]) := by
  have hname := step_of_name (hgrows.directory _ h.directory) h.component hshort
  unfold FileTree.target
  rw [h.addressable, h.split_eq, hgrows.start_eq path, List.foldlM_append, hgrows.walk h.walk]
  simp only [bind, Except.bind, List.foldlM_cons, hname]
  rcases hend with rfl | hdirectory
  · rfl
  · exact walk_slashes hdirectory h.slashes_eq

/-- Where a file is created, the path leads to it. -/
theorem target_of_fileSite (h : tree.fileSite path = .ok names) :
    tree.get? names ≠ some .directory ∧
      ∀ later, tree.Grows later → later.target path = .ok names := by
  unfold fileSite at h
  cases hsite : tree.site path with
  | error fault => simp [hsite, bind, Except.bind] at h
  | ok site =>
      rw [hsite] at h
      dsimp only [bind, Except.bind] at h
      split at h
      · cases h
      · rename_i name hname
        obtain ⟨outer, slashes, last, hfits⟩ := exists_fits hsite hname
        split at h
        · cases h
        · rename_i htrailing
          split at h
          · cases h
          · rename_i hshort
            split at h
            · cases h
            · rename_i hfree
              cases h
              refine ⟨hfree, ?_⟩
              intro later hgrows
              have hslashes : slashes = [] := hfits.trailing (Bool.not_eq_true _ ▸ htrailing)
              exact hfits.target hshort hgrows (.inl hslashes)

/-- Where a directory was created, the path leads to it. -/
theorem target_of_directorySite (h : tree.directorySite path = .ok names) :
    tree.get? names = none ∧ ∀ later, tree.Grows later →
      later.get? names = some .directory → later.target path = .ok names := by
  unfold directorySite at h
  cases hsite : tree.site path with
  | error fault => simp [hsite, bind, Except.bind] at h
  | ok site =>
      rw [hsite] at h
      dsimp only [bind, Except.bind] at h
      split at h
      · cases h
      · rename_i name hname
        obtain ⟨outer, slashes, last, hfits⟩ := exists_fits hsite hname
        split at h
        · cases h
        · rename_i hshort
          split at h
          · cases h
          · rename_i hnone
            cases h
            refine ⟨hnone, ?_⟩
            intro later hgrows hdirectory
            exact hfits.target hshort hgrows (.inr hdirectory)

/-! ## What may appear -/

/-- The names of the files that a run leaves. -/
def artifactNames : List String := ["run.json", "run.md", "patch.diff"]

theorem plain_of_artifact {name : String} (h : name ∈ artifactNames) :
    Path.IsPlain name.toList ∧ Path.named name.toList = [.name name] := by
  simp only [artifactNames, List.mem_cons, List.not_mem_nil, or_false] at h
  rcases h with rfl | rfl | rfl
  all_goals
    constructor
    · constructor <;> simp
    · decide +kernel

/-- An entry that writing artifacts into a directory may bring: the directory itself or one above
it, where nothing was before, or one of the files. -/
inductive Appeared (directory : Path) (before after : FileTree) (names : TreeNames) : Prop
  | made {above : Path} (habove : above.components <+: directory.components)
      (htarget : after.target above = .ok names) (hbefore : before.get? names = none)
      (hafter : after.get? names = some .directory)
  | written {name : String} {bytes : ByteArray} (hname : name ∈ artifactNames)
      (htarget : after.target (directory.join ⟨name⟩) = .ok names)
      (hafter : after.get? names = some (.file bytes))

/-- Everything is as it was before, except for artifacts and the directories that they need. -/
structure Published (directory : Path) (before after : FileTree) : Prop where
  grows : before.Grows after
  entry : ∀ names, after.get? names = before.get? names ∨ Appeared directory before after names

variable {directory above : Path} {before : FileTree}

theorem Published.refl (directory : Path) (tree : FileTree) : Published directory tree tree :=
  ⟨.refl tree, fun _ => .inl rfl⟩

theorem Appeared.stays (h : Appeared directory before tree names) (hgrows : tree.Grows later)
    (hsame : later.get? names = tree.get? names) : Appeared directory before later names := by
  cases h with
  | made habove htarget hbefore hafter =>
      exact .made habove (hgrows.target htarget) hbefore (hsame.trans hafter)
  | written hname htarget hafter =>
      exact .written hname (hgrows.target htarget) (hsame.trans hafter)

theorem Published.put (h : Published directory before tree)
    (hfree : tree.get? names ≠ some .directory)
    (hnew : Appeared directory before (tree.put names entry) names) :
    Published directory before (tree.put names entry) := by
  have hgrows : tree.Grows (tree.put names entry) := grows_put hfree
  refine ⟨h.grows.trans hgrows, ?_⟩
  intro other
  -- the new entry may appear, and the others are where the directories have led to before
  by_cases hother : other = names
  · rw [hother]
    exact .inr hnew
  · have hsame : (tree.put names entry).get? other = tree.get? other := get?_put_other hother
    rcases h.entry other with hkept | happeared
    · exact .inl (hsame.trans hkept)
    · exact .inr (happeared.stays hgrows hsame)

/-- What is not there now was not there before. -/
theorem Published.get?_eq_none (h : Published directory before tree)
    (hnone : tree.get? names = none) : before.get? names = none := by
  rcases h.entry names with hkept | happeared
  · exact hkept.symm.trans hnone
  · cases happeared with
    | made _ _ hbefore => exact hbefore
    | written _ _ hafter =>
        rw [hnone] at hafter
        cases hafter

theorem Published.makeDir (h : Published directory before tree)
    (habove : above.components <+: directory.components) :
    Published directory before (tree.makeDir above).2 := by
  unfold FileTree.makeDir
  split
  · exact h
  · split
    · rename_i names hsite
      obtain ⟨hnone, htarget⟩ := target_of_directorySite hsite
      have hfree : tree.get? names ≠ some .directory := by
        rw [hnone]
        nofun
      have hmade : (tree.put names .directory).get? names = some .directory := get?_put_self hfree
      apply h.put hfree
      exact .made habove (htarget _ (grows_put hfree) hmade) (h.get?_eq_none hnone) hmade
    · exact h

theorem Published.makeDirsWithin (depth : Nat) (h : Published directory before tree)
    (habove : above.components <+: directory.components) :
    Published directory before (FileTree.makeDirsWithin depth tree above).2 := by
  induction depth generalizing above with
  | zero => exact h.makeDir habove
  | succ depth ih =>
      unfold FileTree.makeDirsWithin
      split
      · rename_i parent _ hparent
        have hmade := ih ((Path.prefix_of_parent? hparent).trans habove)
        split
        · rename_i later hlater
          rw [hlater] at hmade
          exact hmade.makeDir habove
        · exact hmade
      · exact h.makeDir habove

theorem Published.makeDirs (h : Published directory before tree)
    (habove : above.components <+: directory.components) :
    Published directory before (tree.makeDirs above).2 := by
  have hmade := h.makeDirsWithin above.text.length habove
  unfold FileTree.makeDirs
  split
  · rename_i later hlater
    rw [hlater] at hmade
    exact hmade
  · rename_i fault later hlater
    rw [hlater] at hmade
    exact hmade

theorem Published.write (h : Published directory before tree) {name : String} {bytes : ByteArray}
    (hname : name ∈ artifactNames) (hwrite : tree.write (directory.join ⟨name⟩) bytes = .ok next) :
    Published directory before next := by
  unfold FileTree.write at hwrite
  split at hwrite
  · cases hwrite
  · rename_i names hsite
    cases hwrite
    obtain ⟨hfree, htarget⟩ := target_of_fileSite hsite
    apply h.put hfree
    exact .written hname (htarget _ (grows_put hfree)) (get?_put_self hfree)

end FileTree

end EnumMigration
