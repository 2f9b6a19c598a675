import Mathlib.Data.List.Forall2
import EnumMigration.Proofs.ChangeDetection
import EnumMigration.Proofs.DryRun
import EnumMigration.Proofs.FaithfulPatch

/-!
# Results are coherent evidence

A result says in several fields that a file was updated: by its status, by the
number of replacements, by the two digests and by its patch.  The fields are filled
at different times, some before it is known whether the text changed and some after
a write that may fail.  They agree nevertheless, and what an updated result says is
about the text from before the whole batch and the text after it.

## Strategy

`Coherent` is about one result, and holds of every visit because changes are
detected exactly (`Table.replacements_pos_iff_changed`).  `Testifies` ties an
updated result to two texts.  That these are the texts at the two ends of the batch
is seen from the store at the visit: both ends are compared with it by `Later`
(`Visited.evidence`), and a file that the table still changes was not written before.
-/

namespace EnumMigration

theorem Table.replacements_pos_iff_changed (table : Table) (text : String) :
    0 < (table.migrate text).replacements ↔ (table.migrate text).changed = true := by
  rw [table.migrate_changed_iff, table.migrate_text_ne_iff, table.migrate_replacements,
    table.transform_replacements_pos_iff]

theorem filePatch_ne_empty (path : String) {before after : String} (hne : before ≠ after) :
    filePatch path before after ≠ "" := by
  intro hempty
  have hlast := getLast?_filePatch path hne
  rw [hempty] at hlast
  cases hlast

/-! ## One result -/

/-- A result and its patch that go together: whether the file was updated can be
told from any of five fields, only an updated file has a new import line, and
exactly the errors have a message. -/
structure Coherent (path : Path) (visit : FileResult × String) : Prop where
  path_eq : visit.1.path = path.text
  updated_tfae : [visit.1.status = .updated, 0 < visit.1.replacements,
    visit.1.digestBefore.isSome = true, visit.1.digestAfter.isSome = true, visit.2 ≠ ""].TFAE
  updated_of_import : visit.1.importInserted = true → visit.1.status = .updated
  message_iff : visit.1.message.isSome = true ↔ visit.1.status = .errored

/-- The digests and the patch of an updated file are those of a text and of what the
table makes of it. -/
structure Testifies (table : Table) (path : Path) (before : String)
    (visit : FileResult × String) : Prop where
  digestBefore_eq : visit.1.digestBefore = some (Sha256.hex before.toUTF8)
  digestAfter_eq : visit.1.digestAfter = some (Sha256.hex (table.migrate before).text.toUTF8)
  patch_eq : visit.2 = filePatch path.text before (table.migrate before).text

section Results

variable (table : Table) (path : Path) (before : String)

/-- A file that was not updated, with a message if it has an error. -/
theorem coherent_ofStatus (status : FileStatus) (message : Option String)
    (hstatus : status ≠ .updated) (hmessage : message.isSome = true ↔ status = .errored) :
    Coherent path ({ FileResult.ofStatus path.text status with message }, "") where
  path_eq := rfl
  updated_tfae := List.tfae_of_forall False _ (by simp [FileResult.ofStatus, hstatus])
  updated_of_import := by simp [FileResult.ofStatus]
  message_iff := hmessage

theorem coherent_ofMigrated :
    Coherent path (FileResult.ofMigrated path before (table.migrate before)) := by
  have hreplacements := table.replacements_pos_iff_changed before
  have himport := (table.importInserted_iff before).mp
  cases hchanged : (table.migrate before).changed with
  | true =>
      have hne := ((table.migrate_changed_iff before).mp hchanged).symm
      rw [hchanged] at hreplacements
      simp only [FileResult.ofMigrated, hchanged, if_true]
      refine ⟨rfl, List.tfae_of_forall True _ ?_, fun _ => rfl, ?_⟩
      · simp [hreplacements, filePatch_ne_empty path.text hne]
      · simp [FileResult.ofStatus]
  | false =>
      rw [hchanged] at hreplacements
      simp only [FileResult.ofMigrated, hchanged, Bool.false_eq_true, if_false]
      refine ⟨rfl, List.tfae_of_forall False _ ?_, ?_, ?_⟩
      · simp [hreplacements, FileResult.ofStatus]
      · -- an import line comes in only where something was replaced
        intro hinserted
        have hpos := Nat.pos_of_ne_zero (himport hinserted).1
        cases hreplacements.mp hpos
      · simp [FileResult.ofStatus]

variable {table before}

theorem testifies_ofMigrated (hchanged : (table.migrate before).changed = true) :
    Testifies table path before (FileResult.ofMigrated path before (table.migrate before)) := by
  simp only [FileResult.ofMigrated, hchanged, if_true]
  exact ⟨rfl, rfl, rfl⟩

end Results

namespace MemoryStore

variable {table : Table} {dryRun : Bool} {path : Path} {paths : List Path}
  {start store next last : MemoryStore} {visit : FileResult × String}
  {visits : List (FileResult × String)}

/-- What a result says about a file in the stores at the two ends of a batch. -/
structure Evidence (table : Table) (dryRun : Bool) (start last : MemoryStore) (path : Path)
    (visit : FileResult × String) : Prop extends Coherent path visit where
  updated : visit.1.status = .updated → ∃ before, start.get? path = some before ∧
    Testifies table path before visit ∧
    (dryRun = false → last.get? path = some (table.migrate before).text)

/-- The patch of a file, from its text in a store to what the table makes of it. -/
def patchOf (table : Table) (store : MemoryStore) (path : Path) : String :=
  (store.get? path).elim "" fun before => filePatch path.text before (table.migrate before).text

/-! ## One visit -/

theorem Visited.coherent (h : Visited table dryRun path store visit next) :
    Coherent path visit := by
  cases h with
  | missing => exact coherent_ofStatus path .missing none nofun (by simp)
  | readFails | writeFails => exact coherent_ofStatus path .errored (some _) nofun (by simp)
  | kept | written => exact coherent_ofMigrated table path _

/-- A visit leads to a later store, or leaves the store alone. -/
theorem Visited.later_of_any (h : Visited table dryRun path store visit next) :
    Later table store next := by
  cases dryRun with
  | false => exact h.later
  | true =>
      rw [h.eq_of_dryRun]
      exact .refl table store

theorem VisitedAll.later_of_any (h : VisitedAll table dryRun paths store visits last) :
    Later table store last := by
  induction h with
  | nil store => exact .refl table store
  | cons hfirst _ ih => exact hfirst.later_of_any.trans ih

/-- A file that the table still changes is as it was. -/
theorem Later.get?_of_changed (h : Later table start store) {before : String}
    (hget : store.get? path = some before) (hchanged : (table.migrate before).changed = true) :
    start.get? path = some before := by
  rcases h.content path with hkept | ⟨-, text, -, hmigrated⟩
  · exact hkept.symm.trans hget
  · obtain rfl : (table.migrate text).text = before := Option.some.inj (hmigrated.symm.trans hget)
    rw [table.migrate_migrate] at hchanged
    cases hchanged

/-- An update in a real run is written, and in a dry run it is not. -/
theorem Visited.of_updated (h : Visited table dryRun path store visit next)
    (hupdated : visit.1.status = .updated) :
    ∃ before, store.get? path = some before ∧ (table.migrate before).changed = true ∧
      visit = FileResult.ofMigrated path before (table.migrate before) ∧
      (dryRun = false → next.get? path = some (table.migrate before).text) := by
  cases h with
  | missing | readFails | writeFails => cases hupdated
  | @kept before hget hread hkept =>
      have hchanged : (table.migrate before).changed = true := by
        simpa [FileResult.status_ofMigrated] using hupdated
      refine ⟨before, hget, hchanged, rfl, ?_⟩
      intro hreal
      rw [hkept hchanged] at hreal
      cases hreal
  | @written before hget hread hchanged hreal hwrite =>
      refine ⟨before, hget, hchanged, rfl, fun _ => ?_⟩
      have hinsert := store.get?_insert path path (table.migrate before).text
      rwa [if_pos (beq_self_eq_true _)] at hinsert

/-- A result is about the two ends of the batch that its visit belongs to. -/
theorem Visited.evidence (h : Visited table dryRun path store visit next)
    (hstart : Later table start store) (hlast : Later table next last) :
    Evidence table dryRun start last path visit := by
  refine ⟨h.coherent, fun hupdated => ?_⟩
  obtain ⟨before, hget, hchanged, rfl, hwritten⟩ := h.of_updated hupdated
  refine ⟨before, hstart.get?_of_changed hget hchanged, testifies_ofMigrated path hchanged, ?_⟩
  intro hreal
  -- what was written is settled, so no later entry of the file writes it again
  exact hlast.get?_of_unchanged (hwritten hreal) (by rw [table.migrate_migrate])

/-! ## A whole batch -/

theorem VisitedAll.evidence (h : VisitedAll table dryRun paths store visits last)
    (hstart : Later table start store) :
    List.Forall₂ (Evidence table dryRun start last) paths visits := by
  induction h with
  | nil => exact .nil
  | cons hfirst hrest ih =>
      exact .cons (hfirst.evidence hstart hrest.later_of_any) (ih (hstart.trans hfirst.later_of_any))

/-- The patches of the results, put behind each other, are those of the updated files. -/
theorem join_patches_eq (h : List.Forall₂ (Evidence table dryRun start last) paths visits) :
    String.join (visits.map Prod.snd) =
      String.join ((FileResult.updatedPaths (visits.map Prod.fst)).map (start.patchOf table)) := by
  induction h with
  | nil => rfl
  | @cons path visit paths visits hfirst _ ih =>
      simp only [List.map_cons, FileResult.updatedPaths_cons, hfirst.path_eq, List.map_append,
        String.join_cons, String.join_append, ih]
      congr 1
      split
      · rename_i hupdated
        obtain ⟨before, hget, htestifies, -⟩ := hfirst.updated hupdated
        simp [patchOf, hget, htestifies.patch_eq]
      · rename_i hupdated
        have hempty : visit.2 = "" := by
          by_contra hpatch
          exact hupdated ((hfirst.updated_tfae.out 0 4).mpr hpatch)
        simp [hempty]

/-- **Results are coherent evidence.**  The results of a batch belong to the entries
of its list, one by one and in order.  Each carries the path of its entry as it is
spelled, and tells by its status, by the number of replacements, by either digest and
by its patch alike whether the file was updated.  Only an updated file has a new line
of imports, and exactly the errors have a message.  The digests of an updated file are
those of its text before the batch and of what the table makes of this text, which is
what a real run leaves in the store at its end.  The patch of the batch consists of the
patches of the updated files, in the order of the list. -/
theorem runBatch_coherent {clock : Clock (StateM MemoryStore)} (hclock : clock.Passive)
    {migration : Migration} (htable : migration.table = .ok table) (dryRun : Bool)
    (tool : ToolInfo) (root : Path) (store : MemoryStore) :
    let visits := contributions root table dryRun migration.files store
    ∃ (outcome : BatchOutcome) (last : MemoryStore),
      ((source root).runBatch clock tool migration dryRun).run store = (.ok outcome, last) ∧
      outcome.Reports visits ∧
      List.Forall₂ (Evidence table dryRun store last) migration.files visits ∧
      outcome.patch =
        String.join ((FileResult.updatedPaths outcome.run.results).map (store.patchOf table)) := by
  intro visits
  obtain ⟨visited, last, hvisits⟩ := exists_visitedAll table dryRun migration.files store
  obtain ⟨outcome, hreports, hrun⟩ := hvisits.runBatch_run hclock htable root tool
  obtain rfl : visits = visited := hvisits.contributions_eq root
  have hevidence := hvisits.evidence (Later.refl table store)
  refine ⟨outcome, last, hrun, hreports, hevidence, ?_⟩
  rw [hreports.patch_eq, hreports.results_eq, join_patches_eq hevidence]

-- the file at `d/a` is listed twice, and the one at `c` cannot be written
theorem runBatch_coherent_listed_twice :
    let migration : Migration :=
      ⟨"rounds", "import p;", [⟨"A.B", "C.D"⟩], [⟨"d/a"⟩, ⟨"c"⟩, ⟨"d//a"⟩, ⟨"b"⟩]⟩
    let store := (((empty ⟨"r"⟩).insert ⟨"d/a"⟩ "A.B").insert ⟨"c"⟩ "A.B").failWrite ⟨"c"⟩
    let clock : Clock (StateM MemoryStore) := .fixed ⟨⟨2024, 1, 1, 0, 0, 0, 0⟩, by decide⟩ "run"
    ∃ (outcome : BatchOutcome) (last : MemoryStore) (first : FileResult),
      ((source ⟨"r"⟩).runBatch clock ⟨"tool", none⟩ migration false).run store =
        (.ok outcome, last) ∧
      outcome.run.results.map FileResult.status = [.updated, .errored, .unchanged, .missing] ∧
      outcome.run.results.head? = some first ∧
      first.digestBefore = some (Sha256.hex "A.B".toUTF8) ∧
      first.digestAfter = some (Sha256.hex "C.D".toUTF8) ∧
      last.get? ⟨"d/a"⟩ = some "C.D" ∧
      outcome.patch = filePatch "d/a" "A.B" "C.D" := by
  intro migration store clock
  have hpassive : clock.Passive := Clock.passive_fixed _ _
  have hcomputed : (((source ⟨"r"⟩).runBatch clock ⟨"tool", none⟩ migration false).run
      store).1.toOption.map (fun outcome => (outcome.run.results.map FileResult.status,
        FileResult.updatedPaths outcome.run.results)) =
          some ([.updated, .errored, .unchanged, .missing], [⟨"d/a"⟩]) := by
    decide +kernel
  have haccepted : migration.table.toOption.map (fun table => (table.migrate "A.B").text) =
      some "C.D" := by
    decide +kernel
  obtain ⟨table, htable, hmigrated⟩ := exists_ok_of_toOption_map haccepted
  obtain ⟨outcome, last, hrun, hreports, hevidence, hpatch⟩ :=
    runBatch_coherent hpassive htable false ⟨"tool", none⟩ ⟨"r"⟩ store
  rw [hrun] at hcomputed
  obtain ⟨hstatuses, hupdated⟩ := Prod.mk.inj (Option.some.inj hcomputed)
  have hbefore : store.get? ⟨"d/a"⟩ = some "A.B" := by decide +kernel
  rw [hupdated] at hpatch
  generalize contributions ⟨"r"⟩ table false migration.files store = visits at hreports hevidence
  cases hevidence with
  | @cons _ visit _ visits hfirst _ =>
      rw [hreports.results_eq, List.map_cons, List.map_cons, List.cons.injEq] at hstatuses
      obtain ⟨before, hget, htestifies, hlast⟩ := hfirst.updated hstatuses.1
      obtain rfl : "A.B" = before := Option.some.inj (hbefore.symm.trans hget)
      refine ⟨outcome, last, visit.1, hrun, ?_, ?_, htestifies.digestBefore_eq, ?_, ?_, ?_⟩
      · rw [hreports.results_eq, List.map_cons, List.map_cons, hstatuses.1, hstatuses.2]
      · rw [hreports.results_eq, List.map_cons, List.head?_cons]
      · rw [htestifies.digestAfter_eq, hmigrated]
      · rw [hlast rfl, hmigrated]
      · simp [hpatch, patchOf, hbefore, hmigrated]

end MemoryStore

end EnumMigration
