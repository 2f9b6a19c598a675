import EnumMigration.Proofs.Sessions

/-!
# Invariants of a session

Whatever is done to a store in memory, in whatever order, its files and its log of writes stay tied
to each other.  Runs neither create nor remove files, a path that cannot be written keeps its text,
the log grows by what was written and by nothing else, and a text that changed has an entry in the
log.

## Strategy

`Accounts` relates two points of a session through the steps between them.  It is preserved along a
session: it holds of no steps, of one step (`Answered.accounts`), and it can be chained
(`Accounts.append`).
-/

namespace EnumMigration

namespace StoreStep

/-- The target of a write that succeeded. -/
def targets : StoreStep × StoreAnswer → List Path
  | (write path _, .done (.ok _)) => [path]
  | _ => []

/-- The entries that a step adds to the log: one for a write that succeeded, and one for each update
of a real run. -/
def logged : StoreStep × StoreAnswer → List Path
  | (write path _, .done (.ok _)) => [path]
  | (run _ _ _ false, .batch (.ok outcome)) => FileResult.updatedPaths outcome.run.results
  | _ => []

/-- Whether a step is a dry run. -/
def isDry : StoreStep → Bool
  | run _ _ _ dryRun => dryRun
  | _ => false

end StoreStep

/-- Whether a store answers that it failed. -/
def StoreAnswer.isFailure : StoreAnswer → Bool
  | text (.error _) | done (.error _) | batch (.error _) => true
  | _ => false

namespace MemoryStore

/-- What the steps between two points of a session account for. -/
structure Accounts (store : MemoryStore) (transcript : List (StoreStep × StoreAnswer))
    (last : MemoryStore) : Prop where
  failingWrites_eq : last.failingWrites = store.failingWrites
  /-- Files come into being by direct writes only, and stay. -/
  holds_iff : ∀ path, last.holds path = true ↔
    store.holds path = true ∨ ∃ target ∈ transcript.flatMap StoreStep.targets, target.sameAs path
  /-- What cannot be written keeps its text. -/
  get?_of_failing : ∀ path : Path, path.components ∈ store.failingWrites →
    last.get? path = store.get? path
  /-- The log grows at its end. -/
  writes_eq : last.writes = store.writes ++ transcript.flatMap StoreStep.logged
  /-- What changed is in the log. -/
  logged_of_changed : ∀ path, last.get? path ≠ store.get? path →
    ∃ entry ∈ transcript.flatMap StoreStep.logged, entry.sameAs path

variable {table : Table} {path file : Path} {paths : List Path} {store next last : MemoryStore}
  {visit : FileResult × String} {visits : List (FileResult × String)} {step : StoreStep}
  {steps : List StoreStep} {answer : StoreAnswer} {answers : List StoreAnswer}
  {transcript transcript' : List (StoreStep × StoreAnswer)}

/-- A step that tells nothing new about the store accounts for no change. -/
theorem accounts_of_still (store : MemoryStore)
    (htargets : transcript.flatMap StoreStep.targets = [])
    (hlogged : transcript.flatMap StoreStep.logged = []) : Accounts store transcript store where
  failingWrites_eq := rfl
  holds_iff := by simp [htargets]
  get?_of_failing _ _ := rfl
  writes_eq := by simp [hlogged]
  logged_of_changed _ hchanged := absurd rfl hchanged

theorem Accounts.append (h : Accounts store transcript next) (h' : Accounts next transcript' last) :
    Accounts store (transcript ++ transcript') last where
  failingWrites_eq := h'.failingWrites_eq.trans h.failingWrites_eq
  holds_iff path := by
    rw [h'.holds_iff, h.holds_iff, List.flatMap_append]
    simp only [List.mem_append, or_and_right, exists_or, or_assoc]
  get?_of_failing path hfailing := by
    have hfailing' : path.components ∈ next.failingWrites := h.failingWrites_eq ▸ hfailing
    exact (h'.get?_of_failing path hfailing').trans (h.get?_of_failing path hfailing)
  writes_eq := by rw [h'.writes_eq, h.writes_eq, List.flatMap_append, List.append_assoc]
  logged_of_changed path hchanged := by
    rw [List.flatMap_append]
    by_cases hearly : next.get? path = store.get? path
    · obtain ⟨entry, hentry, hsame⟩ := h'.logged_of_changed path (hearly ▸ hchanged)
      exact ⟨entry, List.mem_append_right _ hentry, hsame⟩
    · obtain ⟨entry, hentry, hsame⟩ := h.logged_of_changed path hearly
      exact ⟨entry, List.mem_append_left _ hentry, hsame⟩

/-! ## Runs -/

/-- A visit that changes a file is a visit of this file, and reports an update. -/
theorem Visited.updated_of_changed (h : Visited table false path store visit next)
    (hchanged : next.get? file ≠ store.get? file) :
    visit.1.status = .updated ∧ path.sameAs file = true := by
  constructor
  · cases h with
    | missing | readFails | kept | writeFails => exact absurd rfl hchanged
    | written _ _ htext => rw [FileResult.status_ofMigrated, if_pos htext]
  · by_contra hother
    have hne : file.components ≠ path.components := fun hsame =>
      hother (beq_iff_eq.mpr hsame.symm)
    exact hchanged (h.agreeOn hne).get?_eq.symm

theorem VisitedAll.updated_of_changed (h : VisitedAll table false paths store visits last)
    (hchanged : last.get? file ≠ store.get? file) :
    ∃ entry ∈ FileResult.updatedPaths (visits.map Prod.fst), entry.sameAs file := by
  induction h with
  | nil => exact absurd rfl hchanged
  | @cons path paths store next last visit visits hfirst hrest ih =>
      rw [List.map_cons, FileResult.updatedPaths_cons, hfirst.path_eq]
      by_cases hearly : next.get? file = store.get? file
      · obtain ⟨entry, hentry, hsame⟩ := ih (hearly ▸ hchanged)
        exact ⟨entry, List.mem_append_right _ hentry, hsame⟩
      · obtain ⟨hupdated, hsame⟩ := hfirst.updated_of_changed hearly
        refine ⟨path, List.mem_append_left _ ?_, hsame⟩
        rw [if_pos hupdated]
        exact List.mem_singleton_self path

theorem VisitedAll.holds_eq (h : VisitedAll table false paths store visits last) (file : Path) :
    last.holds file = store.holds file := by
  unfold holds
  rw [h.get?_eq file]
  split
  · exact Option.isSome_map
  · rfl

/-- The steps of a real run account for what it does. -/
theorem VisitedAll.accounts {clock : Clock (StateM MemoryStore)} {tool : ToolInfo}
    {migration : Migration} {outcome : BatchOutcome}
    (h : VisitedAll table false paths store visits last) (hreports : outcome.Reports visits) :
    Accounts store [(.run clock tool migration false, .batch (.ok outcome))] last where
  failingWrites_eq := h.later.failingWrites_eq
  holds_iff path := by simp [h.holds_eq, StoreStep.targets]
  get?_of_failing path hfailing := by
    have hclosed : ¬ store.IsOpen path := fun hopen => hopen.2 hfailing
    rw [h.get?_eq path, if_neg fun hboth => hclosed hboth.2]
  writes_eq := by simp [StoreStep.logged, hreports.results_eq, h.writes_eq]
  logged_of_changed path hchanged := by
    simpa [StoreStep.logged, hreports.results_eq] using h.updated_of_changed hchanged

/-! ## Steps and sessions -/

theorem accounts_written (store : MemoryStore) {path : Path} (text : String)
    (hwrite : path.components ∉ store.failingWrites) :
    Accounts store [(.write path text, .done (.ok ()))] (store.written path text) where
  failingWrites_eq := rfl
  holds_iff file := by
    unfold holds
    rw [get?_written]
    by_cases hsame : file.components = path.components
    · simp [StoreStep.targets, Path.sameAs, hsame]
    · simp [StoreStep.targets, Path.sameAs, hsame, Ne.symm hsame]
  get?_of_failing file hfailing := by
    have hne : file.components ≠ path.components := fun hsame => hwrite (hsame ▸ hfailing)
    rw [get?_written, if_neg (mt beq_iff_eq.mp hne)]
  writes_eq := rfl
  logged_of_changed file hchanged := by
    by_cases hsame : file.components = path.components
    · exact ⟨path, List.mem_singleton_self path, beq_iff_eq.mpr hsame.symm⟩
    · rw [get?_written, if_neg (mt beq_iff_eq.mp hsame)] at hchanged
      exact absurd rfl hchanged

theorem Answered.accounts (h : Answered store step answer next) :
    Accounts store [(step, answer)] next := by
  cases h with
  | holds | read | contents | refused => exact accounts_of_still store rfl rfl
  | rejected htable =>
      refine accounts_of_still store rfl ?_
      simp [StoreStep.logged]
  | written hwrite => exact accounts_written store _ hwrite
  | @ran clock tool migration dryRun table outcome visits last htable hvisits hreports =>
      cases dryRun with
      | false => exact hvisits.accounts hreports
      | true =>
          obtain rfl := hvisits.eq_of_dryRun
          exact accounts_of_still _ rfl rfl

theorem AnsweredAll.accounts (h : AnsweredAll store steps answers last) :
    Accounts store (steps.zip answers) last := by
  induction h with
  | nil store => exact accounts_of_still store rfl rfl
  | cons hfirst _ ih => exact hfirst.accounts.append ih

/-- A step that failed and a dry run leave the whole store as it is. -/
theorem Answered.eq_of_still (h : Answered store step answer next)
    (hstill : answer.isFailure = true ∨ step.isDry = true) : next = store := by
  cases h with
  | holds | read | contents | refused | rejected => rfl
  | written => simp [StoreAnswer.isFailure, StoreStep.isDry] at hstill
  | ran htable hvisits =>
      obtain rfl : _ = true := by simpa [StoreAnswer.isFailure, StoreStep.isDry] using hstill
      exact hvisits.eq_of_dryRun

theorem AnsweredAll.length_eq (h : AnsweredAll store steps answers last) :
    answers.length = steps.length := by
  induction h with
  | nil => rfl
  | cons _ _ ih => rw [List.length_cons, List.length_cons, ih]

theorem session_append {steps' : List StoreStep} {answers' : List StoreAnswer}
    (h : (session steps).run store = (answers, next))
    (h' : (session steps').run next = (answers', last)) :
    (session (steps ++ steps')).run store = (answers ++ answers', last) := by
  unfold session at h h' ⊢
  rw [List.mapM_append]
  calc
    _ = _ := run_bind_of_run_eq h
    _ = _ := run_bind_of_run_eq h'

/-- **Invariants of a session.**  Every step is answered.  Between any two points of a session,
files come into being by direct writes only, a path that cannot be written keeps its text, the log
grows at its end by one entry for each direct write and for each update of a real run, in order, and
a text that changed has an entry among them.  At every point, a step that fails and a dry run leave
the whole store as it is. -/
theorem session_invariants (store : MemoryStore) {earlier later : List StoreStep}
    (hpassive : ∀ step ∈ earlier ++ later, step.Passive) :
    ∃ (past future : List StoreAnswer) (mid last : MemoryStore),
      (session earlier).run store = (past, mid) ∧
      (session (earlier ++ later)).run store = (past ++ future, last) ∧
      past.length = earlier.length ∧ future.length = later.length ∧
      Accounts store (earlier.zip past) mid ∧
      Accounts mid (later.zip future) last ∧
      Accounts store (earlier.zip past ++ later.zip future) last ∧
      ∀ (step : StoreStep) (answer : StoreAnswer) (next : MemoryStore), step.Passive →
        (perform step).run last = (answer, next) →
        answer.isFailure = true ∨ step.isDry = true → next = last := by
  obtain ⟨hearlier, hlater⟩ := List.forall_mem_append.mp hpassive
  obtain ⟨past, mid, hpast, hall⟩ := exists_answeredAll store hearlier
  obtain ⟨future, last, hfuture, hall'⟩ := exists_answeredAll mid hlater
  refine ⟨past, future, mid, last, hpast, session_append hpast hfuture, hall.length_eq,
    hall'.length_eq, hall.accounts, hall'.accounts, hall.accounts.append hall'.accounts, ?_⟩
  intro step answer next hstep hrun hstill
  obtain ⟨answer', next', hrun', hanswered⟩ := exists_answered last hstep
  obtain ⟨rfl, rfl⟩ := Prod.ext_iff.mp (hrun.symm.trans hrun')
  exact hanswered.eq_of_still hstill

theorem session_invariants_mixed :
    let clock : Clock (StateM MemoryStore) := .fixed ⟨⟨2024, 1, 1, 0, 0, 0, 0⟩, by decide⟩ "run"
    let migration : Migration :=
      ⟨"rounds", "import p;", [⟨"A.B", "C.D"⟩], [⟨"c"⟩, ⟨"d/a"⟩, ⟨"x"⟩]⟩
    let store := (((empty ⟨"r"⟩).insert ⟨"d/a"⟩ "A.B").insert ⟨"c"⟩ "A.B").failWrite ⟨"c"⟩
    let earlier : List StoreStep := [.write ⟨"c"⟩ "A.B", .run clock ⟨"tool", none⟩ migration false]
    let later : List StoreStep :=
      [.write ⟨"x"⟩ "A.B", .run clock ⟨"tool", none⟩ migration true,
        .run clock ⟨"tool", none⟩ { migration with patterns := [] } false, .read ⟨"y"⟩]
    (∀ step ∈ earlier ++ later, step.Passive) ∧
    ∃ (past future : List StoreAnswer) (mid last : MemoryStore),
      (session earlier).run store = (past, mid) ∧
      (session (earlier ++ later)).run store = (past ++ future, last) ∧
      mid.writes = [⟨"d/a"⟩] ∧ last.writes = [⟨"d/a"⟩, ⟨"x"⟩] ∧
      last.writes = mid.writes ++ (later.zip future).flatMap StoreStep.logged ∧
      last.get? ⟨"c"⟩ = store.get? ⟨"c"⟩ := by
  intro clock migration store earlier later
  have hclock : clock.Passive := Clock.passive_fixed _ _
  have hpassive : ∀ step ∈ earlier ++ later, step.Passive := by
    simp [earlier, later, StoreStep.Passive, hclock]
  have hmid : ((session earlier).run store).2.writes = [⟨"d/a"⟩] := by decide +kernel
  have hlast : ((session (earlier ++ later)).run store).2.writes = [⟨"d/a"⟩, ⟨"x"⟩] := by
    decide +kernel
  obtain ⟨past, future, mid, last, hearlier, hall, -, -, -, hbetween, hwhole, -⟩ :=
    session_invariants store hpassive
  rw [hearlier] at hmid
  rw [hall] at hlast
  have hfailing : (⟨"c"⟩ : Path).components ∈ store.failingWrites := by decide +kernel
  exact ⟨hpassive, past, future, mid, last, hearlier, hall, hmid, hlast, hbetween.writes_eq,
    hwhole.get?_of_failing _ hfailing⟩

end MemoryStore

end EnumMigration
