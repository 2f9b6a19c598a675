import EnumMigration.Proofs.FinalState
import EnumMigration.Proofs.PatchText

/-!
# A dry run predicts the real run

A dry run reports what a real run would do, and does nothing.  The two start from
one store, but the real run changes it on the way, so that they stop agreeing once
a file is listed again.

## Strategy

At the first entry of a file the real run has not touched it, and both runs read
the same text (`Visited.real_of_dry`); what the dry run cannot know is whether the
write would fail.  At a later entry the dry run still reads the text it read
before, and differs from the first report in the spelling of the path only
(`Respelled`).  The real run meets a file that was visited before, and
`Visited.again` says what it reports.
-/

namespace EnumMigration

/-- What was reported about a file under two spellings of its path.  The spelling
shows as the path of the result, in the message of an error and in the header of a
patch; everything else is the same. -/
structure Respelled (path other : Path) (visit visit' : FileResult × String) : Prop where
  path_eq : visit.1.path = path.text
  result_eq : visit'.1 = { visit.1 with path := other.text, message := visit'.1.message }
  message_eq : visit.1.message = none ∧ visit'.1.message = none ∨
    ∃ error : Path → StoreError, (error = .readFails ∨ error = .writeFails) ∧
      visit.1.message = some (error path).message ∧ visit'.1.message = some (error other).message
  patch_eq : visit.2 = "" ∧ visit'.2 = "" ∨
    ∃ hunks : String, visit.2 = patchHeader path.text ++ hunks ∧
      visit'.2 = patchHeader other.text ++ hunks

namespace Respelled

variable {path other : Path} {visit visit' : FileResult × String}

theorem status_eq (h : Respelled path other visit visit') :
    visit'.1.status = visit.1.status := by
  rw [h.result_eq]

theorem of_error {error : Path → StoreError} (herror : error = .readFails ∨ error = .writeFails)
    (path other : Path) :
    Respelled path other (.errored path.text (error path).message, "")
      (.errored other.text (error other).message, "") :=
  ⟨rfl, rfl, .inr ⟨error, herror, rfl, rfl⟩, .inl ⟨rfl, rfl⟩⟩

theorem of_migrated (path other : Path) (before : String) (migrated : Migrated) :
    Respelled path other (FileResult.ofMigrated path before migrated)
      (FileResult.ofMigrated other before migrated) := by
  unfold FileResult.ofMigrated
  split
  · refine ⟨rfl, rfl, .inl ⟨rfl, rfl⟩, ?_⟩
    by_cases hsame : before = migrated.text
    · left
      simp [filePatch, hsame]
    · right
      exact ⟨_, filePatch_eq path.text hsame, filePatch_eq other.text hsame⟩
  · exact ⟨rfl, rfl, .inl ⟨rfl, rfl⟩, .inl ⟨rfl, rfl⟩⟩

/-- A report without a message and without a patch changes its path only. -/
theorem eq_of_plain {status : FileStatus}
    (h : Respelled path other (.ofStatus path.text status, "") visit') :
    visit' = (.ofStatus other.text status, "") := by
  have hmessage : visit'.1.message = none := by
    rcases h.message_eq with ⟨-, hnone⟩ | ⟨error, -, hsome, -⟩
    · exact hnone
    · cases hsome
  have hpatch : visit'.2 = "" := by
    rcases h.patch_eq with ⟨-, hempty⟩ | ⟨hunks, hheader, -⟩
    · exact hempty
    · have hfeed := getLast?_patchHeader path.text
      have htext := congrArg String.toList hheader
      rw [String.toList_append] at htext
      simp [(List.append_eq_nil_iff.mp htext.symm).1] at hfeed
  have hresult := h.result_eq
  rw [hmessage] at hresult
  exact Prod.ext hresult hpatch

end Respelled

theorem FileResult.status_repeated {result : FileResult} (h : result.status ≠ .updated) :
    result.repeated.status = result.status := by
  unfold repeated
  cases hstatus : result.status with
  | updated => exact absurd hstatus h
  | unchanged => rfl
  | missing | errored => exact hstatus

namespace MemoryStore

variable {table : Table} {dryRun : Bool} {path other : Path} {paths : List Path}
  {store next next' last : MemoryStore} {visit visit' : FileResult × String}
  {visits : List (FileResult × String)}

theorem Visited.unique (h : Visited table dryRun path store visit next)
    (h' : Visited table dryRun path store visit' next') : visit = visit' ∧ next = next' := by
  have hruns := (h.processFile_run ⟨""⟩).symm.trans (h'.processFile_run ⟨""⟩)
  exact Prod.ext_iff.mp hruns

/-- A visit under another spelling of the path. -/
theorem Visited.respell (h : Visited table dryRun path store visit next)
    (hsame : path.components = other.components) :
    ∃ visit' next', Visited table dryRun other store visit' next' ∧
      Respelled path other visit visit' := by
  have hget := get?_congr store hsame
  cases h with
  | missing hnone =>
      rw [hget] at hnone
      exact ⟨_, _, .missing hnone, rfl, rfl, .inl ⟨rfl, rfl⟩, .inl ⟨rfl, rfl⟩⟩
  | readFails hsome hread =>
      rw [hget] at hsome
      rw [hsame] at hread
      exact ⟨_, _, .readFails hsome hread, .of_error (.inl rfl) path other⟩
  | kept hsome hread hkept =>
      rw [hget] at hsome
      rw [hsame] at hread
      exact ⟨_, _, .kept hsome hread hkept, .of_migrated path other _ _⟩
  | writeFails hsome hread hchanged hreal hwrite =>
      rw [hget] at hsome
      rw [hsame] at hread hwrite
      exact ⟨_, _, .writeFails hsome hread hchanged hreal hwrite, .of_error (.inr rfl) path other⟩
  | written hsome hread hchanged hreal hwrite =>
      rw [hget] at hsome
      rw [hsame] at hread hwrite
      exact ⟨_, _, .written hsome hread hchanged hreal hwrite, .of_migrated path other _ _⟩

/-! ## The first entry of a file -/

/-- From one store, a real visit does what the dry visit reports, unless it has
to write where writing fails. -/
theorem Visited.real_of_dry (hdry : Visited table true path store visit next)
    (hreal : Visited table false path store visit' next') :
    visit' = if visit.1.status = .updated ∧ path.components ∈ store.failingWrites then
      (.errored path.text (StoreError.writeFails path).message, "") else visit := by
  cases hdry with
  | missing hget => exact (hreal.unique (.missing hget)).1
  | readFails hget hread => exact (hreal.unique (.readFails hget hread)).1
  | @kept before hget hread hkept =>
      rw [FileResult.status_ofMigrated]
      by_cases hchanged : (table.migrate before).changed = true
      · by_cases hwrite : path.components ∈ store.failingWrites
        · rw [if_pos hchanged, if_pos ⟨rfl, hwrite⟩]
          exact (hreal.unique (.writeFails hget hread hchanged rfl hwrite)).1
        · rw [if_neg (fun hboth => hwrite hboth.2)]
          exact (hreal.unique (.written hget hread hchanged rfl hwrite)).1
      · rw [if_neg (by simp [hchanged])]
        exact (hreal.unique (.kept hget hread fun h => absurd h hchanged)).1
  | writeFails _ _ _ hfalse => cases hfalse
  | written _ _ _ hfalse => cases hfalse

/-! ## Later entries of a file -/

/-- The visits at two places of a list, and what lies between them. -/
theorem VisitedAll.at_indices (h : VisitedAll table false paths store visits last) {i j : Nat}
    (hlt : j < i) (hother : paths[j]? = some other) (hpath : paths[i]? = some path) :
    ∃ (early mid late after : MemoryStore) (visit visit' : FileResult × String),
      visits[j]? = some visit ∧ visits[i]? = some visit' ∧
      Visited table false other early visit mid ∧ Later table mid late ∧
      Visited table false path late visit' after := by
  obtain ⟨late, after, visit', hvisit', hearlier, hlate, -⟩ := h.at_index hpath
  have hother' : (paths.take i)[j]? = some other := by rw [List.getElem?_take_of_lt hlt, hother]
  obtain ⟨early, mid, visit, hvisit, -, hearly, hbetween⟩ := hearlier.at_index hother'
  rw [List.getElem?_take_of_lt hlt] at hvisit
  exact ⟨early, mid, late, after, visit, visit', hvisit, hvisit', hearly, hbetween.later, hlate⟩

/-- In a dry run every visit starts from the initial store. -/
theorem VisitedAll.planned (h : VisitedAll table true paths store visits next) {i : Nat}
    (hpath : paths[i]? = some path) :
    ∃ planned, visits[i]? = some planned ∧ Visited table true path store planned store := by
  obtain ⟨before, after, planned, hplanned, hearlier, hvisit, -⟩ := h.at_index hpath
  obtain rfl := hearlier.eq_of_dryRun
  obtain rfl := hvisit.eq_of_dryRun
  exact ⟨planned, hplanned, hvisit⟩

/-- A real visit of a file that was visited before, under any spelling. -/
theorem Visited.again_respelled (h : Visited table false path store visit next)
    (hlater : Later table next last) (hsame : path.components = other.components)
    (h' : Visited table false other last visit' next') :
    (visit.1.status = .updated → visit' = (.ofStatus other.text .unchanged, "")) ∧
      (visit.1.status ≠ .updated → visit'.1.status = visit.1.status) := by
  obtain ⟨found, after, hfound, hrespelled⟩ := (h.again hlater).respell hsame
  obtain ⟨rfl, -⟩ := h'.unique hfound
  constructor
  · intro hupdated
    have hrepeated : visit.1.repeated = .ofStatus path.text .unchanged := by
      rw [FileResult.repeated, hupdated, h.path_eq]
    rw [hrepeated] at hrespelled
    exact hrespelled.eq_of_plain
  · intro hother
    rw [hrespelled.status_eq, FileResult.status_repeated hother]

/-! ## The two runs -/

/-- **A dry run predicts the real run.**  At the first entry of a file, both runs
report the same result and contribute the same patch, except that the real run
reports a failed write where the dry run reports an update of a file that cannot be
written.  At every further entry the dry run repeats itself, up to the spelling of
the path; the real run reports the file as unchanged if it was updated before, and
with the same status as before otherwise. -/
theorem dryRun_predicts {first second : Clock (StateM MemoryStore)} (hfirst : first.Passive)
    (hsecond : second.Passive) {migration : Migration} (htable : migration.table = .ok table)
    (tool : ToolInfo) (root : Path) (store : MemoryStore) :
    let files := migration.files
    let dry := contributions root table true files store
    let real := contributions root table false files store
    ∃ (dryOutcome realOutcome : BatchOutcome) (last : MemoryStore),
      ((source root).runBatch first tool migration true).run store = (.ok dryOutcome, store) ∧
      ((source root).runBatch second tool migration false).run store = (.ok realOutcome, last) ∧
      dryOutcome.Reports dry ∧ realOutcome.Reports real ∧
      ∀ (i : Nat) (path : Path), files[i]? = some path → ∃ planned actual,
        dry[i]? = some planned ∧ real[i]? = some actual ∧
        ((∀ earlier ∈ files.take i, path.components ≠ earlier.components) →
          actual = if planned.1.status = .updated ∧ path.components ∈ store.failingWrites then
            (.errored path.text (StoreError.writeFails path).message, "") else planned) ∧
        ∀ (j : Nat) (earlier : Path), j < i → files[j]? = some earlier →
          earlier.components = path.components → ∃ plannedBefore actualBefore,
            dry[j]? = some plannedBefore ∧ real[j]? = some actualBefore ∧
            Respelled earlier path plannedBefore planned ∧
            (actualBefore.1.status = .updated → actual = (.ofStatus path.text .unchanged, "")) ∧
            (actualBefore.1.status ≠ .updated →
              actual.1.status = actualBefore.1.status) := by
  intro files dry real
  obtain ⟨dryVisits, dryLast, hdry⟩ := exists_visitedAll table true files store
  obtain ⟨realVisits, last, hreal⟩ := exists_visitedAll table false files store
  obtain rfl : dryLast = store := hdry.eq_of_dryRun
  obtain ⟨dryOutcome, hdryReports, hdryRun⟩ := hdry.runBatch_run hfirst htable root tool
  obtain ⟨realOutcome, hrealReports, hrealRun⟩ := hreal.runBatch_run hsecond htable root tool
  obtain rfl : dry = dryVisits := hdry.contributions_eq root
  obtain rfl : real = realVisits := hreal.contributions_eq root
  refine ⟨dryOutcome, realOutcome, last, hdryRun, hrealRun, hdryReports, hrealReports, ?_⟩
  intro i path hpath
  obtain ⟨planned, hplanned, hdryVisit⟩ := hdry.planned hpath
  obtain ⟨before, after, actual, hactual, hearlier, hrealVisit, -⟩ := hreal.at_index hpath
  refine ⟨planned, actual, hplanned, hactual, ?_, ?_⟩
  · intro hnew
    obtain ⟨next, hsame, -⟩ := hrealVisit.congr (hearlier.agreeOn hnew).symm
    exact hdryVisit.real_of_dry hsame
  · intro j earlier hlt hentry hsame
    obtain ⟨plannedBefore, hplannedBefore, hdryBefore⟩ := hdry.planned hentry
    obtain ⟨respelled, next, hrespelledVisit, hrespelled⟩ := hdryBefore.respell hsame
    obtain ⟨rfl, -⟩ := hdryVisit.unique hrespelledVisit
    obtain ⟨early, mid, late, after', actualBefore, found, hbefore, hfound, hearly, hlater,
      hlate⟩ := hreal.at_indices hlt hentry hpath
    obtain rfl : actual = found := Option.some.inj (hactual.symm.trans hfound)
    exact ⟨plannedBefore, actualBefore, hplannedBefore, hbefore, hrespelled,
      hearly.again_respelled hlater hsame hlate⟩

theorem dryRun_predicts_listed_twice :
    let migration : Migration :=
      ⟨"rounds", "import p;", [⟨"A.B", "C.D"⟩], [⟨"d/a"⟩, ⟨"c"⟩, ⟨"d//a"⟩]⟩
    let store := (((empty ⟨"r"⟩).insert ⟨"d/a"⟩ "A.B").insert ⟨"c"⟩ "A.B").failWrite ⟨"c"⟩
    let clock : Clock (StateM MemoryStore) := .fixed ⟨⟨2024, 1, 1, 0, 0, 0, 0⟩, by decide⟩ "run"
    let batch := (source ⟨"r"⟩).runBatch clock ⟨"tool", none⟩ migration
    ∃ (table : Table) (dry real : BatchOutcome) (last : MemoryStore),
      migration.table = .ok table ∧ (batch true).run store = (.ok dry, store) ∧
      (batch false).run store = (.ok real, last) ∧
      dry.run.results.map FileResult.status = [.updated, .updated, .updated] ∧
      let actual := contributions ⟨"r"⟩ table false migration.files store
      actual[1]? = some (.errored "c" (StoreError.writeFails ⟨"c"⟩).message, "") ∧
      actual[2]? = some (.ofStatus "d//a" .unchanged, "") := by
  intro migration store clock batch
  have hpassive : clock.Passive := Clock.passive_fixed _ _
  have haccepted : migration.table.toOption.map Table.importLine = some "import p;" := by
    decide +kernel
  obtain ⟨table, htable, -⟩ := exists_ok_of_toOption_map haccepted
  have hdryStatuses : ((batch true).run store).1.toOption.map
      (fun outcome => outcome.run.results.map FileResult.status) =
        some [.updated, .updated, .updated] := by
    decide +kernel
  have hrealStatuses : ((batch false).run store).1.toOption.map
      (fun outcome => outcome.run.results.map FileResult.status) =
        some [.updated, .errored, .unchanged] := by
    decide +kernel
  obtain ⟨dry, real, last, hdry, hreal, hdryReports, hrealReports, hentries⟩ :=
    dryRun_predicts hpassive hpassive htable ⟨"tool", none⟩ ⟨"r"⟩ store
  rw [hdry] at hdryStatuses
  rw [hreal] at hrealStatuses
  replace hdryStatuses := Option.some.inj hdryStatuses
  replace hrealStatuses := Option.some.inj hrealStatuses
  refine ⟨table, dry, real, last, htable, hdry, hreal, hdryStatuses, ?_, ?_⟩
  · obtain ⟨planned, actual, hplanned, hactual, hfirst, -⟩ := hentries 1 ⟨"c"⟩ rfl
    have hstatus : planned.1.status = .updated := by
      have hat := congrArg (·[1]?) hdryStatuses
      simpa [hdryReports.results_eq, hplanned] using hat
    have hwrite : (⟨"c"⟩ : Path).components ∈ store.failingWrites := by decide +kernel
    rw [hactual, hfirst (by decide +kernel), if_pos ⟨hstatus, hwrite⟩]
  · obtain ⟨planned, actual, hplanned, hactual, -, hagain⟩ := hentries 2 ⟨"d//a"⟩ rfl
    obtain ⟨plannedBefore, actualBefore, -, hbefore, -, hupdated, -⟩ :=
      hagain 0 ⟨"d/a"⟩ (by decide) rfl (by decide +kernel)
    have hstatus : actualBefore.1.status = .updated := by
      have hat := congrArg (·[0]?) hrealStatuses
      simpa [hrealReports.results_eq, hbefore] using hat
    rw [hactual, hupdated hstatus]

end MemoryStore

end EnumMigration
