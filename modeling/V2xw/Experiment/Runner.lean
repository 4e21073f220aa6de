import V2xw.Experiment.Plan

/-!
# Running an experiment

An invocation of the runner opens the journal of a directory, executes the runs that are not done in
chunks, and notes those that succeed in plan order up to the first that does not. When none is left
it builds the table of results from the metrics that each run left in its directory.

A run may fail or panic in one invocation and succeed in another. When it succeeds it produces the
same each time, but for the seconds it took.

## Main definitions

* `Experiment.Setup` — what runs are executed with.
* `Experiment.runExperiment` — one invocation.
* `Experiment.sweeps` — invocations on one directory.
-/

namespace V2xw.Experiment

/-! ## Runs -/

/-- What one executed run produced. `samples` is what is in the file it wrote its metrics to. -/
structure RunArtifacts (σ : Type) where
  scenarioHash : String
  worldHash : String
  contentDigest : Option String
  samples : σ

/-- The reduced metrics of one run. -/
structure RunMetrics (μ : Type) where
  schema : String
  runId : String
  cellIndex : ℕ
  seedHex : String
  scenarioHash : String
  metrics : μ

/-- The table of an experiment. -/
structure ResultsTable (τ : Type) where
  schema : String
  experiment : String
  planDigest : String
  axes : List String
  rows : List τ

/-- What runs are executed with: scenarios with the rest `ρ`, samples `σ`, metrics `μ`, parameters
of the aggregate `α` and rows `τ`. `artifacts` is what an executor produces from a scenario, and
`readBack` is what is read from a file of metrics. -/
structure Setup (ρ σ μ α τ : Type) where
  sha256 : List UInt8 → List UInt8
  schema : Schema ρ
  codec : LineCodec
  artifacts : PlannedRun → Scenario ρ → RunArtifacts σ
  reduceRun : σ → Except ExperimentError μ
  readBack : μ → Except ExperimentError μ
  aggregateCell : CellKey → List μ → α → List τ

/-- What an executor does with a run this time. -/
inductive Attempt
  | completes (wallS : Seconds)
  | fails (message : String)
  | panics

/-- What became of a run. -/
inductive Worked (μ : Type)
  | done (entry : JournalEntry) (reduced : RunMetrics μ)
  | failed (e : ExperimentError)
  | panicked

def Worked.isDone {μ : Type} : Worked μ → Bool
  | .done .. => true
  | _ => false

/-- The directory of one run. -/
structure RunDir (ρ μ : Type) where
  scenario : Option (Scenario ρ) := none
  metrics : Option (RunMetrics μ) := none

/-- The directory of an experiment. -/
structure Directory (ρ μ τ : Type) where
  journal : Option (List UInt8) := none
  plan : Option ExperimentPlan := none
  results : Option (ResultsTable τ) := none
  runs : String → RunDir ρ μ := fun _ => {}

/-- How a sweep is executed. -/
structure RunnerOptions (α : Type) where
  concurrency : ℕ := 1
  aggregate : α
  requireJournal : Bool := false

def RunnerOptions.effectiveConcurrency {α : Type} (o : RunnerOptions α) : ℕ := max o.concurrency 1

/-- In which order the workers of a chunk finish. -/
structure Finish where
  order : List PlannedRun → List PlannedRun
  perm : ∀ runs, (order runs).Perm runs

/-- One invocation of the runner, and what happens to its runs. -/
structure Invocation (ρ α : Type) where
  base : Scenario ρ
  options : RunnerOptions α
  attempt : PlannedRun → Attempt
  finish : Finish

/-- What a sweep produced. -/
structure ExperimentOutcome where
  name : String
  planDigest : String
  runsPlanned : ℕ
  runsSkipped : ℕ
  runsExecuted : ℕ
  runsPending : ℕ
  cells : ℕ
  rows : ℕ
  concurrency : ℕ

/-- How an invocation ends. -/
inductive Ending
  | finished (outcome : ExperimentOutcome)
  | failed (e : ExperimentError)
  | panicked

/-- The entry is in the journal. -/
def Journal.isDone (j : Journal) (runId : String) : Bool := j.completed[runId]?.isSome

/-- The header of the journal of a plan. -/
def ExperimentPlan.header (plan : ExperimentPlan) : JournalHeader where
  schema := "v2xw/experiment-journal/1"
  experiment := plan.name
  planDigest := plan.digest
  runsPlanned := plan.runs.length

variable {ρ σ μ α τ : Type} (x : Setup ρ σ μ α τ)

/-- Materialises, runs and reduces one run. -/
def executeOne (base : Scenario ρ) (run : PlannedRun) (attempt : Attempt) : Worked μ :=
  match ExperimentPlan.materialise x.schema base run with
  | .error e => .failed e
  | .ok scenario =>
    match attempt with
    | .fails message => .failed (.run run.runId message)
    | .panics => .panicked
    | .completes wallS =>
      let artifacts := x.artifacts run scenario
      match x.reduceRun artifacts.samples with
      | .error e => .failed e
      | .ok metrics =>
        .done
          { runId := run.runId
            cellIndex := run.cell.index
            seedHex := run.seedHex
            scenarioHash := artifacts.scenarioHash
            worldHash := artifacts.worldHash
            outDir := "runs/" ++ run.runId
            contentDigest := artifacts.contentDigest
            wallS }
          { schema := "v2xw/experiment-run-metrics/1"
            runId := run.runId
            cellIndex := run.cell.index
            seedHex := run.seedHex
            scenarioHash := artifacts.scenarioHash
            metrics }

/-- What one run leaves in its directory. Its scenario is written before it is executed. -/
def leaves (base : Scenario ρ) (run : PlannedRun) (attempt : Attempt) (dir : RunDir ρ μ) :
    RunDir ρ μ :=
  { scenario :=
      match ExperimentPlan.materialise x.schema base run with
      | .error _ => dir.scenario
      | .ok scenario => some scenario
    metrics :=
      match executeOne x base run attempt with
      | .done _ reduced => some reduced
      | _ => dir.metrics }

/-- What the runs of a chunk leave, in the order in which they finish. -/
def leaveAll (base : Scenario ρ) (attempt : PlannedRun → Attempt) (runs : List PlannedRun)
    (dirs : String → RunDir ρ μ) : String → RunDir ρ μ :=
  runs.foldl
    (fun dirs run => Function.update dirs run.runId
      (leaves x base run (attempt run) (dirs run.runId)))
    dirs

/-! ## Chunks -/

/-- A list cut into pieces of `size`. `fuel` is no less than its length. -/
def chunks {β : Type} (size : ℕ) : ℕ → List β → List (List β)
  | _, [] => []
  | 0, _ => []
  | fuel + 1, l => l.take size :: chunks size fuel (l.drop size)

/-- An invocation in progress. `stopped` says how it ended before its runs were through. -/
structure Progress (ρ μ τ : Type) where
  journal : Journal
  dir : Directory ρ μ τ
  executed : ℕ := 0
  stopped : Option Ending := none

/-- Notes what became of one run of a chunk. A chunk of one run is executed on the calling thread,
which a panic unwinds; a worker that panics is an error. -/
def note (alone : Bool) (p : Progress ρ μ τ) (run : PlannedRun) (worked : Worked μ) :
    Progress ρ μ τ :=
  match p.stopped with
  | some _ => p
  | none =>
    match worked with
    | .done entry _ =>
      let (journal, lines) := p.journal.record entry
      { p with
        journal
        dir := { p.dir with journal := writeLines x.codec p.dir.journal lines }
        executed := p.executed + 1 }
    | .failed e => { p with stopped := some (.failed e) }
    | .panicked =>
      if alone then { p with stopped := some .panicked }
      else { p with stopped := some (.failed (.workerPanicked run.runId)) }

/-- Executes a chunk, and then notes its runs in plan order. -/
def runChunk (inv : Invocation ρ α) (p : Progress ρ μ τ) (chunk : List PlannedRun) :
    Progress ρ μ τ :=
  match p.stopped with
  | some _ => p
  | none =>
    let runs := leaveAll x inv.base inv.attempt (inv.finish.order chunk) p.dir.runs
    chunk.foldl
      (fun p run => note x (chunk.length ≤ 1) p run (executeOne x inv.base run (inv.attempt run)))
      { p with dir := { p.dir with runs } }

/-! ## The table -/

/-- The metrics of the runs of a cell that are done, in plan order. -/
def cellMetrics (plan : ExperimentPlan) (completed : OrdMap String JournalEntry)
    (dirs : String → RunDir ρ μ) (cell : CellKey) : Except ExperimentError (List μ) :=
  ((plan.runs.filter fun run => run.cell.index = cell.index).filter
    fun run => completed[run.runId]?.isSome).mapM fun run =>
      match (dirs run.runId).metrics with
      | none => .error (.json "cannot read a run's reduced metrics")
      | some reduced => x.readBack reduced.metrics

/-- The table of the runs that are done. -/
def tableFrom (plan : ExperimentPlan) (completed : OrdMap String JournalEntry) (aggregate : α)
    (dirs : String → RunDir ρ μ) : Except ExperimentError (ResultsTable τ) := do
  let rows ← plan.cells.mapM fun cell => do
    let replications ← cellMetrics x plan completed dirs cell
    pure (if replications.isEmpty then [] else x.aggregateCell cell replications aggregate)
  pure
    { schema := "v2xw/experiment-results/1"
      experiment := plan.name
      planDigest := plan.digest
      axes := plan.axes
      rows := rows.flatten }

/-! ## Invocations -/

/-- What an invocation does once its journal is open: the runs that are not done, and the table. -/
def runPending (inv : Invocation ρ α) (plan : ExperimentPlan) (journal : Journal)
    (dir : Directory ρ μ τ) : Ending × Directory ρ μ τ :=
  let pending := plan.runs.filter fun run => !journal.isDone run.runId
  let concurrency := inv.options.effectiveConcurrency
  let p := (chunks concurrency pending.length pending).foldl (runChunk x inv) { journal, dir }
  match p.stopped with
  | some ending => (ending, p.dir)
  | none =>
    match tableFrom x plan p.journal.completed inv.options.aggregate p.dir.runs with
    | .error e => (.failed e, p.dir)
    | .ok table =>
      (.finished
        { name := plan.name
          planDigest := plan.digest
          runsPlanned := plan.runs.length
          runsSkipped := plan.runs.length - pending.length
          runsExecuted := p.executed
          runsPending := (plan.runs.filter fun run => !p.journal.isDone run.runId).length
          cells := plan.cells.length
          rows := table.rows.length
          concurrency },
        { p.dir with results := some table })

/-- Runs a sweep, skipping what the journal says is done. -/
def runExperiment (inv : Invocation ρ α) (dir : Directory ρ μ τ) : Ending × Directory ρ μ τ :=
  match ExperimentPlan.expand x.sha256 inv.base with
  | .error e => (.failed e, dir)
  | .ok plan =>
    if inv.options.requireJournal = true ∧ dir.journal = none then (.failed .noJournal, dir)
    else
      match Journal.open x.codec dir.journal plan.header with
      | .error e => (.failed (.journal e), dir)
      | .ok (journal, lines) =>
        runPending x inv plan journal
          { dir with journal := writeLines x.codec dir.journal lines, plan := some plan }

/-- Invocations on one directory. -/
def sweeps : Machine (Directory ρ μ τ) (Invocation ρ α) Ending Empty where
  init := {}
  step dir inv := .ok (runExperiment x inv dir)

end V2xw.Experiment
