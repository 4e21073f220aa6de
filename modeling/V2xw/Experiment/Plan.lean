import V2xw.Experiment.Document
import V2xw.Lib.Layout
import V2xw.Lib.Odometer

/-!
# Experiment plans

A scenario with an `experiment` block stands for a sweep: a cell for each choice of one value on
each swept axis, and in each cell a run for each seed slot and replication. The digest of a plan
identifies the sweep. The scenario of a run is the base scenario with the values of its cell, its
own seed and its own name.

What a scenario has besides its seed, its name and its experiment is left open, and so is how it is
read from a document.

## Main definitions

* `Experiment.Scenario`, `Experiment.Schema` — scenarios and their documents.
* `Experiment.ExperimentPlan.expand` — the plan of a scenario.
* `Experiment.ExperimentPlan.materialise` — the scenario of a run.
-/

namespace V2xw.Experiment

/-! ## Scenarios -/

/-- A parameter sweep: paths into the scenario, with the values of each. -/
structure Sweep where
  sweep : OrdMap String (List Json) := ∅
  seeds : List UInt64 := []
  replications : UInt32 := 0

/-- A scenario. `rest` is all of it but the seed, the name and the experiment. -/
structure Scenario (ρ : Type) where
  seed : UInt64
  name : String
  experiment : Option Sweep
  rest : ρ

/-- How scenarios are written as documents, read from them and checked. -/
structure Schema (ρ : Type) where
  toValue : Scenario ρ → Json
  fromDocument : Json → Except String (Scenario ρ)
  validate : Scenario ρ → Except String Unit

/-! ## Plans -/

/-- One point of the cartesian product. -/
structure CellKey where
  index : ℕ
  values : OrdMap String Json

/-- One run the plan calls for. -/
structure PlannedRun where
  runId : String
  cell : CellKey
  seedSlot : ℕ
  declaredSeed : UInt64
  replication : ℕ
  seed : UInt64

/-- An expanded experiment. -/
structure ExperimentPlan where
  schema : String
  name : String
  masterSeed : UInt64
  axes : List String
  seedSlots : List UInt64
  replications : ℕ
  cells : List CellKey
  runs : List PlannedRun
  digest : String

/-- A number in some base, with zeros in front up to a width. -/
def padded (base width n : ℕ) : List Char := (Nat.toDigits base n).leftpad width '0'

/-- The id of a run, also the name of its directory. -/
def runId (cell seedSlot replication : ℕ) : String :=
  String.ofList ('c' :: (padded 10 4 cell ++ '-' :: 's' :: (padded 10 2 seedSlot ++
    '-' :: 'r' :: padded 10 3 replication)))

/-- The seed of a run, as a scenario writes it. -/
def PlannedRun.seedHex (run : PlannedRun) : String :=
  String.ofList ('0' :: 'x' :: padded 16 16 run.seed.toNat)

/-- Bytes in lower-case hexadecimal. -/
def hexEncode (bs : List UInt8) : String :=
  String.ofList (bs.flatMap fun b => [Nat.digitChar (b.toNat / 16), Nat.digitChar (b.toNat % 16)])

section Hashed

variable (sha256 : List UInt8 → List UInt8)

/-- The seed of a run, from the first eight bytes of a digest. -/
def deriveRunSeed (masterSeed : UInt64) (seedSlot : ℕ) (declaredSeed : UInt64) (replication : ℕ) :
    UInt64 :=
  let material := Utf8.bytes "v2xw/experiment/seed/1".toList ++ Layout.put masterSeed ++
    Layout.put (UInt64.ofNat seedSlot) ++ Layout.put declaredSeed ++
    Layout.put (UInt32.ofNat replication)
  Layout.take ((sha256 material).take 8)

/-- The document of a cell. -/
def CellKey.toValue (cell : CellKey) : Json :=
  .object [("index", .ofNat cell.index), ("values", .object cell.values.toList)]

namespace ExperimentPlan

def planSchema : String := "v2xw/experiment-plan/1"

/-- What identifies a sweep: the plan without its runs. -/
def identity (plan : ExperimentPlan) : Json :=
  .object [("axes", .array (plan.axes.map .string)),
    ("cells", .array (plan.cells.map CellKey.toValue)),
    ("master_seed", .ofNat plan.masterSeed.toNat),
    ("name", .string plan.name),
    ("replications", .ofNat plan.replications),
    ("schema", .string planSchema),
    ("seed_slots", .array (plan.seedSlots.map fun s => .ofNat s.toNat))]

/-- The digest of what identifies the sweep. -/
def computeDigest (plan : ExperimentPlan) : String :=
  hexEncode (sha256 (Utf8.bytes plan.identity.text))

/-! ## Expansion -/

/-- The values of the cell with a number. The last axis takes the lowest digit of it, so it varies
fastest. -/
def cellValues (axes : List (String × List Json)) (index : ℕ) : OrdMap String Json :=
  (axes.foldr
    (fun axis acc =>
      let pick := acc.1 % axis.2.length
      (acc.1 / axis.2.length, acc.2.insert axis.1 (axis.2.getD pick .null)))
    (index, ∅)).2

/-- The number of cells, if it fits a machine word. -/
def cellCount (axes : List (String × List Json)) : Except ExperimentError ℕ :=
  axes.foldl
    (fun r axis =>
      match r with
      | .error e => .error e
      | .ok total =>
        if total * axis.2.length < 2 ^ 64 then .ok (total * axis.2.length)
        else .error (.sweepTooLarge axis.1))
    (.ok 1)

/-- The runs of the cells: in a cell by seed slot, and in a slot by replication. -/
def runsOf (masterSeed : UInt64) (cells : List CellKey) (seedSlots : List UInt64)
    (replications : ℕ) : List PlannedRun :=
  cells.flatMap fun cell =>
    seedSlots.zipIdx.flatMap fun (declared, slot) =>
      (List.range replications).map fun replication =>
        { runId := runId cell.index slot replication
          cell
          seedSlot := slot
          declaredSeed := declared
          replication
          seed := deriveRunSeed sha256 masterSeed slot declared replication }

/-- The plan with some axes and a number of cells. -/
def build {ρ : Type} (base : Scenario ρ) (block : Sweep) (total : ℕ) : ExperimentPlan :=
  let axes := block.sweep.toList
  let cells := (List.range total).map fun index => CellKey.mk index (cellValues axes index)
  let seedSlots := if block.seeds = [] then [base.seed] else block.seeds
  let replications := max block.replications.toNat 1
  let plan : ExperimentPlan :=
    { schema := planSchema
      name := base.name
      masterSeed := base.seed
      axes := axes.map Prod.fst
      seedSlots
      replications
      cells
      runs := runsOf sha256 base.seed cells seedSlots replications
      digest := "" }
  { plan with digest := plan.computeDigest sha256 }

/-- Expands the experiment of a scenario. -/
def expand {ρ : Type} (base : Scenario ρ) : Except ExperimentError ExperimentPlan :=
  match base.experiment with
  | none => .error .noExperiment
  | some block =>
    match block.sweep.toList.find? fun axis => axis.2.isEmpty with
    | some axis => .error (.emptySweepAxis axis.1)
    | none =>
      match cellCount block.sweep.toList with
      | .error e => .error e
      | .ok total => .ok (build sha256 base block total)

end ExperimentPlan

end Hashed

/-! ## Runs -/

/-- The document with the values of a cell at their paths. -/
def setValues (values : List (String × Json)) (document : Json) : Except ExperimentError Json :=
  values.foldl
    (fun r value =>
      match r with
      | .error e => .error e
      | .ok document => setPath document value.1 value.2)
    (.ok document)

/-- The base scenario with the values of a cell, read back from its document. -/
def Schema.swept {ρ : Type} (schema : Schema ρ) (base : Scenario ρ) (cell : CellKey) :
    Except ExperimentError (Scenario ρ) :=
  match setValues cell.values.toList (schema.toValue base) with
  | .error e => .error e
  | .ok document =>
    match schema.fromDocument document with
    | .error e => .error (.engine e)
    | .ok scenario => .ok scenario

/-- The scenario one planned run executes. -/
def ExperimentPlan.materialise {ρ : Type} (schema : Schema ρ) (base : Scenario ρ)
    (run : PlannedRun) : Except ExperimentError (Scenario ρ) :=
  match schema.swept base run.cell with
  | .error e => .error e
  | .ok scenario =>
    let scenario : Scenario ρ :=
      { scenario with
        seed := run.seed
        experiment := none
        name := base.name ++ "-" ++ run.runId }
    match schema.validate scenario with
    | .error e => .error (.engine e)
    | .ok _ => .ok scenario

end V2xw.Experiment
