import EnumMigration.Proofs.AnyStore
import EnumMigration.Proofs.FinalState

/-!
# Sessions with a store in memory

A session uses one store step after step: it asks whether there is a file, reads, looks at contents,
writes, and runs migrations, for real or dry.  `perform` takes one step and gives its answer.

## Strategy

`Answered` lists the ways in which a step can end, with everything that has to hold for them, and
`AnsweredAll` follows a list of steps.  Everything about sessions is proved by cases on `Answered`
and by induction on `AnsweredAll`.
-/

namespace EnumMigration

/-- One use of a store. -/
inductive StoreStep where
  | holds (path : Path)
  | read (path : Path)
  | contents (path : Path)
  | write (path : Path) (text : String)
  | run (clock : Clock (StateM MemoryStore)) (tool : ToolInfo) (migration : Migration)
      (dryRun : Bool)

/-- What a store answers. -/
inductive StoreAnswer where
  | held (found : Bool)
  | text (result : Except StoreError String)
  | contents (text : Option String)
  | done (result : Except StoreError Unit)
  | batch (result : Except BatchError BatchOutcome)

namespace StoreStep

/-- The clock of a run leaves the store alone. -/
def Passive : StoreStep → Prop
  | run clock _ _ _ => clock.Passive
  | _ => True

/-- The paths that a step is about. -/
def paths : StoreStep → List Path
  | holds path | read path | contents path | write path _ => [path]
  | run _ _ migration _ => migration.files

end StoreStep

namespace MemoryStore

/-- Takes one step. -/
def perform (step : StoreStep) : StateM MemoryStore StoreAnswer := do
  let store ← get
  match step with
  | .holds path => return .held (← (source store.root).holds path)
  | .read path => return .text (← (source store.root).read path)
  | .contents path => return .contents (store.get? path)
  | .write path text => return .done (← (source store.root).write path text)
  | .run clock tool migration dryRun =>
    return .batch (← (source store.root).runBatch clock tool migration dryRun)

/-- Takes steps in order. -/
def session (steps : List StoreStep) : StateM MemoryStore (List StoreAnswer) := steps.mapM perform

/-! ## How a step ends -/

/-- The store after a file was written. -/
def written (store : MemoryStore) (path : Path) (text : String) : MemoryStore :=
  { store.insert path text with writes := store.writes ++ [path] }

theorem get?_written (store : MemoryStore) (path other : Path) (text : String) :
    (store.written path text).get? other =
      if other.components == path.components then some text else store.get? other :=
  store.get?_insert path other text

/-- How a step ends: its answer, and the store after it. -/
inductive Answered (store : MemoryStore) : StoreStep → StoreAnswer → MemoryStore → Prop
  | holds (path : Path) : Answered store (.holds path) (.held (store.holds path)) store
  | read (path : Path) : Answered store (.read path) (.text (store.read path)) store
  | contents (path : Path) : Answered store (.contents path) (.contents (store.get? path)) store
  | refused {path : Path} {text : String} (hwrite : path.components ∈ store.failingWrites) :
      Answered store (.write path text) (.done (.error (.writeFails path))) store
  | written {path : Path} {text : String} (hwrite : path.components ∉ store.failingWrites) :
      Answered store (.write path text) (.done (.ok ())) (store.written path text)
  | rejected {clock : Clock (StateM MemoryStore)} {tool : ToolInfo} {migration : Migration}
      {dryRun : Bool} {cause : TableError} (htable : migration.table = .error cause) :
      Answered store (.run clock tool migration dryRun)
        (.batch (.error (.invalidMigration migration.name cause))) store
  | ran {clock : Clock (StateM MemoryStore)} {tool : ToolInfo} {migration : Migration}
      {dryRun : Bool} {table : Table} {outcome : BatchOutcome}
      {visits : List (FileResult × String)} {last : MemoryStore}
      (htable : migration.table = .ok table)
      (hvisits : VisitedAll table dryRun migration.files store visits last)
      (hreports : outcome.Reports visits)
      (hheaded : outcome.run.Headed tool store.root migration dryRun) :
      Answered store (.run clock tool migration dryRun) (.batch (.ok outcome)) last

theorem perform_run {clock : Clock (StateM MemoryStore)} {tool : ToolInfo} {migration : Migration}
    {dryRun : Bool} {store last : MemoryStore} {result : Except BatchError BatchOutcome}
    (h : ((source store.root).runBatch clock tool migration dryRun).run store = (result, last)) :
    (perform (.run clock tool migration dryRun)).run store = (.batch result, last) := by
  have hget : (get : StateM MemoryStore MemoryStore).run store = (store, store) := rfl
  rw [perform, run_bind_of_run_eq hget]
  exact run_bind_of_run_eq h

theorem exists_answered (store : MemoryStore) {step : StoreStep} (hpassive : step.Passive) :
    ∃ answer next, (perform step).run store = (answer, next) ∧ Answered store step answer next := by
  cases step with
  | holds path => exact ⟨_, _, rfl, .holds path⟩
  | read path => exact ⟨_, _, rfl, .read path⟩
  | contents path => exact ⟨_, _, rfl, .contents path⟩
  | write path text =>
      by_cases hwrite : path.components ∈ store.failingWrites
      · refine ⟨_, _, ?_, .refused hwrite⟩
        simp [perform, source, write, hwrite]
        rfl
      · refine ⟨_, _, ?_, .written hwrite⟩
        simp [perform, source, write, hwrite]
        rfl
  | run clock tool migration dryRun =>
      cases htable : migration.table with
      | error cause =>
          refine ⟨_, _, ?_, .rejected htable⟩
          exact perform_run (runBatch_of_rejected htable dryRun tool store.root store)
      | ok table =>
          obtain ⟨visits, last, hvisits⟩ := exists_visitedAll table dryRun migration.files store
          obtain ⟨outcome, hreports, hrun⟩ :=
            hvisits.runBatch_run hpassive htable store.root tool
          -- the same run, seen as that of any store, tells how its record begins
          obtain ⟨outcome', visits', last', hrun', -, -, hheaded⟩ :=
            (source store.root).runBatch_carries table dryRun hpassive tool htable store
          have hsame := hrun.symm.trans hrun'
          obtain rfl : outcome = outcome' := Except.ok.inj (Prod.ext_iff.mp hsame).1
          exact ⟨_, _, perform_run hrun, .ran htable hvisits hreports hheaded⟩

/-- How a list of steps ends, one after the other. -/
inductive AnsweredAll :
    MemoryStore → List StoreStep → List StoreAnswer → MemoryStore → Prop
  | nil (store : MemoryStore) : AnsweredAll store [] [] store
  | cons {store next last : MemoryStore} {step : StoreStep} {steps : List StoreStep}
      {answer : StoreAnswer} {answers : List StoreAnswer}
      (hfirst : Answered store step answer next) (hrest : AnsweredAll next steps answers last) :
      AnsweredAll store (step :: steps) (answer :: answers) last

theorem exists_answeredAll (store : MemoryStore) {steps : List StoreStep}
    (hpassive : ∀ step ∈ steps, step.Passive) :
    ∃ answers last, (session steps).run store = (answers, last) ∧
      AnsweredAll store steps answers last := by
  induction steps generalizing store with
  | nil => exact ⟨[], store, rfl, .nil store⟩
  | cons step steps ih =>
      obtain ⟨hfirst, hrest⟩ := List.forall_mem_cons.mp hpassive
      obtain ⟨answer, next, hstep, hanswered⟩ := exists_answered store hfirst
      obtain ⟨answers, last, hsession, hall⟩ := ih next hrest
      refine ⟨answer :: answers, last, ?_, .cons hanswered hall⟩
      rw [session, List.mapM_cons]
      calc
        _ = _ := run_bind_of_run_eq hstep
        _ = _ := run_bind_of_run_eq hsession

end MemoryStore

end EnumMigration
