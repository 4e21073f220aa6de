import V2xw.Experiment.Resume

/-!
# An interrupted sweep does the same work

Each invocation on a directory records the first runs that are left. So when one of them finishes,
the journal has all runs in plan order, and the metrics of each are in its directory: what the runs
produced does not depend on the invocation that executed them, so journal and table are those of one
serial invocation.

## Main results

* `Experiment.sweep_same_work` — the journal and the table of a sweep, however it was interrupted.
-/

namespace V2xw.Experiment

variable {ρ σ μ α τ : Type} (x : Setup ρ σ μ α τ)

/-! ## Entries -/

/-- The entry without the seconds its run took. -/
def JournalEntry.untimed (e : JournalEntry) : JournalEntry := { e with wallS := ⟨0, by decide⟩ }

/-- The journal of the directory has these entries. -/
def Lists (plan : ExperimentPlan) (dir : Directory ρ μ τ) (entries : List JournalEntry) : Prop :=
  dir.journal = some (written x.codec (linesOf plan entries)) ∨
    (dir.journal = none ∧ entries = [])

/-- The run was executed from the base scenario, and its metrics are in its directory. -/
def MadeFrom (base : Scenario ρ) (run : PlannedRun) (entry : JournalEntry)
    (dir : RunDir ρ μ) : Prop :=
  ∃ wallS reduced, executeOne x base run (.completes wallS) = .done entry reduced ∧
    dir.metrics = some reduced

variable {x}

lemma makes_madeFrom (base : Scenario ρ) : Makes x (MadeFrom x base) base := by
  intro run attempt dir entry reduced h
  have hmetrics : (leaves x base run attempt dir).metrics = some reduced := by
    rw [leaves, h]
  cases attempt with
  | completes wallS => exact ⟨wallS, reduced, h, hmetrics⟩
  | fails message =>
    unfold executeOne at h
    split at h <;> cases h
  | panics =>
    unfold executeOne at h
    split at h <;> cases h

/-- A run that succeeds produces the same each time, but for the seconds it took. -/
lemma executeOne_completes {base : Scenario ρ} {run : PlannedRun} {wallS : Seconds}
    {entry : JournalEntry} {reduced : RunMetrics μ}
    (h : executeOne x base run (.completes wallS) = .done entry reduced) (wallS' : Seconds) :
    executeOne x base run (.completes wallS') = .done { entry with wallS := wallS' } reduced := by
  unfold executeOne at h ⊢
  split at h
  case h_1 => cases h
  case h_2 =>
    dsimp only at h ⊢
    split at h
    case h_1 => cases h
    case h_2 =>
      cases h
      rfl

lemma MadeFrom.unique {base : Scenario ρ} {run : PlannedRun} {entry entry' : JournalEntry}
    {dir dir' : RunDir ρ μ} (h : MadeFrom x base run entry dir)
    (h' : MadeFrom x base run entry' dir') :
    entry.untimed = entry'.untimed ∧ dir.metrics = dir'.metrics := by
  obtain ⟨wallS, reduced, hdone, hmetrics⟩ := h
  obtain ⟨wallS', reduced', hdone', hmetrics'⟩ := h'
  rw [executeOne_completes hdone wallS'] at hdone'
  cases hdone'
  exact ⟨rfl, hmetrics.trans hmetrics'.symm⟩

lemma exists_entered {Made : PlannedRun → JournalEntry → RunDir ρ μ → Prop}
    {dirs : String → RunDir ρ μ} {runs : List PlannedRun} {entries : List JournalEntry}
    (h : List.Forall₂ (Entered Made dirs) runs entries) {run : PlannedRun} (hrun : run ∈ runs) :
    ∃ entry ∈ entries, Made run entry (dirs run.runId) := by
  induction h with
  | nil => exact absurd hrun List.not_mem_nil
  | cons hfirst _ ih =>
    obtain rfl | hmem := List.mem_cons.1 hrun
    · exact ⟨_, List.mem_cons_self, hfirst.2⟩
    · obtain ⟨entry, hentry, hmade⟩ := ih hmem
      exact ⟨entry, List.mem_cons_of_mem _ hentry, hmade⟩

lemma untimed_eq_of_entered {base : Scenario ρ} {dirs dirs' : String → RunDir ρ μ}
    {runs : List PlannedRun} {entries : List JournalEntry}
    (h : List.Forall₂ (Entered (MadeFrom x base) dirs) runs entries) :
    ∀ {entries'}, List.Forall₂ (Entered (MadeFrom x base) dirs') runs entries' →
      entries'.map JournalEntry.untimed = entries.map JournalEntry.untimed := by
  induction h with
  | nil =>
    rintro _ ⟨⟩
    rfl
  | cons hfirst _ ih =>
    rintro _ (_ | ⟨hfirst', hrest'⟩)
    rw [List.map_cons, List.map_cons, ih hrest', (hfirst.2.unique hfirst'.2).1]

/-! ## Sweeps -/

/-- One serial invocation in which no run fails. -/
structure Invocation.Serial (serial : Invocation ρ α) (base : Scenario ρ)
    (aggregate : α) : Prop where
  base_eq : serial.base = base
  concurrency_eq : serial.options.concurrency = 1
  aggregate_eq : serial.options.aggregate = aggregate
  requireJournal_eq : serial.options.requireJournal = false
  completes : ∀ run, ∃ wallS, serial.attempt run = .completes wallS

/-- What the runs have left is what one serial invocation in a new directory makes. -/
lemma serial_same (hc : x.codec.Lawful) {base : Scenario ρ} {plan : ExperimentPlan}
    (hplan : ExperimentPlan.expand x.sha256 base = .ok plan) {dir : Directory ρ μ τ}
    {entries : List JournalEntry} (h : Kept x (MadeFrom x base) plan dir plan.runs entries)
    {completed : OrdMap String JournalEntry} {aggregate : α} {table : ResultsTable τ}
    (hcompleted : ∀ run ∈ plan.runs, completed[run.runId]?.isSome)
    (htable : tableFrom x plan completed aggregate dir.runs = .ok table)
    {serial : Invocation ρ α} (hserial : serial.Serial base aggregate) :
    ∃ outcome entries', (runExperiment x serial (sweeps x).init).1 = .finished outcome ∧
      (runExperiment x serial (sweeps x).init).2.results = some table ∧
      Lists x plan (runExperiment x serial (sweeps x).init).2 entries' ∧
      entries'.map JournalEntry.untimed = entries.map JournalEntry.untimed := by
  obtain ⟨rfl, _, rfl, hrequireJournal, hcompletes⟩ := hserial
  have hall : plan.runs.all (serial.succeeds x) = true := by
    rw [List.all_eq_true]
    intro run hrun
    obtain ⟨entry, _, wallS, reduced, hdone, _⟩ := exists_entered h.entered hrun
    obtain ⟨wallS', hattempt⟩ := hcompletes run
    rw [Invocation.succeeds, hattempt, executeOne_completes hdone wallS']
    rfl
  obtain ⟨_, hrequire, _⟩ | ⟨entries', hkept, hfile, hends⟩ :=
    runExperiment_spec hc (makes_madeFrom (x := x) serial.base) hplan
      (List.nil_append _).symm kept_init
  · rw [hrequireJournal] at hrequire
    cases hrequire
  rw [List.nil_append, List.takeWhile_eq_self_iff.2 (List.all_eq_true.1 hall)] at hkept
  rw [EndsWith, if_pos hall] at hends
  obtain ⟨completed', hcompleted', hends⟩ := hends
  have hsame : tableFrom x plan completed' serial.options.aggregate
      (runExperiment x serial (sweeps x).init).2.runs = .ok table := by
    rw [← htable]
    refine tableFrom_congr _ fun run hrun => ⟨?_, ?_⟩
    · rw [hcompleted' run hrun, hcompleted run hrun]
    · obtain ⟨_, _, hmade⟩ := exists_entered h.entered hrun
      obtain ⟨_, _, hmade'⟩ := exists_entered hkept.entered hrun
      exact (hmade'.unique hmade).2
  rw [hsame] at hends
  obtain ⟨⟨outcome, hfinished⟩, hresults⟩ := hends
  exact ⟨outcome, entries', hfinished, hresults, .inl hfile,
    untimed_eq_of_entered h.entered hkept.entered⟩

/-- Invocations of one sweep keep the first runs of the plan recorded. -/
lemma kept_steps (hc : x.codec.Lawful) {base : Scenario ρ} {plan : ExperimentPlan}
    (hplan : ExperimentPlan.expand x.sha256 base = .ok plan) {dir dir' : Directory ρ μ τ}
    {invs : List (Invocation ρ α)} {endings : List Ending}
    (hrun : (sweeps x).Steps dir invs endings dir') (hbase : ∀ inv ∈ invs, inv.base = base)
    (h : ∃ done entries, Kept x (MadeFrom x base) plan dir done entries) :
    ∃ done entries, Kept x (MadeFrom x base) plan dir' done entries := by
  refine Machine.Steps.invariant
    (P := fun dir => ∃ done entries, Kept x (MadeFrom x base) plan dir done entries) hrun ?_ h
  rintro dir inv ending dir' hinv ⟨done, entries, hkept⟩ hstep
  obtain rfl := hbase inv hinv
  obtain ⟨rest, hruns⟩ := hkept.first
  obtain rfl : (runExperiment x inv dir).2 = dir' := congrArg Prod.snd (Except.ok.inj hstep)
  obtain ⟨hsame, _⟩ | ⟨entries', hkept', _⟩ :=
    runExperiment_spec hc (makes_madeFrom inv.base) hplan hruns.symm hkept
  · rw [hsame]
    exact ⟨done, entries, hkept⟩
  · exact ⟨_, entries', hkept'⟩

/-- The cells of a plan are the choices of one value on each axis, in lexicographic order, and the
ids of its runs differ. -/
lemma expand_spec (sha256 : List UInt8 → List UInt8) {base : Scenario ρ} {plan : ExperimentPlan}
    (hplan : ExperimentPlan.expand sha256 base = .ok plan) :
    ∃ block picks, base.experiment = some block ∧
      picks.Pairwise (List.Lex (· < ·)) ∧
      (∀ ds, ds ∈ picks ↔ Odometer.Valid ds (ExperimentPlan.lengths block.sweep.toList)) ∧
      plan.cells.map CellKey.index = List.range picks.length ∧
      List.Forall₂ (fun ds cell => ExperimentPlan.Picks block.sweep.toList ds cell.values) picks
        plan.cells ∧
      (plan.runs.map PlannedRun.runId).Nodup := by
  have hnodup := ExperimentPlan.nodup_runIds sha256 hplan
  obtain ⟨block, hblock, hne, rfl⟩ := ExperimentPlan.eq_build_of_expand sha256 hplan
  have hpos : ∀ r ∈ ExperimentPlan.lengths block.sweep.toList, 0 < r := by
    intro r hr
    obtain ⟨axis, haxis, rfl⟩ := List.mem_map.1 hr
    exact List.length_pos_iff.2 (hne axis haxis)
  refine ⟨block, _, hblock, Odometer.pairwise_digits _, fun ds => Odometer.mem_map_digits hpos, ?_,
    ?_, hnodup⟩
  · rw [List.length_map, List.length_range]
    show ((List.range _).map _).map _ = _
    rw [List.map_map]
    exact List.map_id _
  · show List.Forall₂ _ _ ((List.range _).map _)
    rw [List.forall₂_map_left_iff, List.forall₂_map_right_iff, List.forall₂_same]
    exact fun index _ => ExperimentPlan.picks_cellValues hne index

/-- The value as a natural number. -/
def Json.nat? : Json → Option ℕ
  | .number n => if n.text.all Char.isDigit then some (Nat.ofDigitChars 10 n.text 0) else none
  | _ => none

/-- The value as an array. -/
def Json.items? : Json → Option (List Json)
  | .array items => some items
  | _ => none

/-- The value as an object. -/
def Json.fields? : Json → Option (List (String × Json))
  | .object fields => some fields
  | _ => none

/-- The document of a sweep. -/
def Sweep.toValue (s : Sweep) : Json :=
  .object [("replications", .ofNat s.replications.toNat),
    ("seeds", .array (s.seeds.map fun seed => .ofNat seed.toNat)),
    ("sweep", .object (s.sweep.toList.map fun axis => (axis.1, .array axis.2)))]

/-- The sweep of a document. -/
def Sweep.fromValue (doc : Json) : Option Sweep := do
  let replications ← (← doc.getKey "replications").nat?
  let seeds ← (← (← doc.getKey "seeds").items?).mapM Json.nat?
  let axes ← (← (← doc.getKey "sweep").fields?).mapM fun axis => axis.2.items?.map (axis.1, ·)
  pure
    { sweep := axes.foldl (fun m axis => m.insert axis.1 axis.2) ∅
      seeds := seeds.map UInt64.ofNat
      replications := UInt32.ofNat replications }

/-- A number in hexadecimal behind `0x`. -/
def hexNat (text : List Char) : ℕ :=
  (text.drop 2).foldl
    (fun n c => 16 * n + ((List.range 16).find? fun d => Nat.digitChar d = c).getD 0) 0

/-- Scenarios of which only the duration is kept. -/
def durationSchema : Schema Number where
  toValue s := .object
    [("experiment", (s.experiment.map Sweep.toValue).getD .null),
      ("meta", .object [("name", .string s.name)]),
      ("seed", .string (String.ofList ('0' :: 'x' :: padded 16 16 s.seed.toNat))),
      ("time", .object [("duration_s", .number s.rest)])]
  fromDocument doc :=
    match (doc.getKey "meta").bind (Json.getKey "name"), doc.getKey "seed",
      (doc.getKey "time").bind (Json.getKey "duration_s") with
    | some (.string name), some (.string seed), some (.number rest) =>
      .ok
        { seed := UInt64.ofNat (hexNat seed.toList)
          name
          experiment := (doc.getKey "experiment").bind Sweep.fromValue
          rest }
    | _, _, _ => .error "a scenario has a name, a seed and a duration"
  validate _ := .ok ()

/-- Runs whose only metric is their duration. -/
noncomputable def durationSetup : Setup Number Number Number Unit (List Number) where
  sha256 := id
  schema := durationSchema
  codec := canonicalCodec
  artifacts _ scenario := ⟨"", "", none, scenario.rest⟩
  reduceRun := .ok
  readBack := .ok
  aggregateCell _ metrics _ := [metrics]

/-- A number of seconds. -/
def seconds (text : List Char) (h : text ≠ [] ∧ text.all numberChar = true) : Number :=
  ⟨text, h.1, List.all_eq_true.1 h.2⟩

/-- A sweep over the duration. -/
def durationSweep : Scenario Number where
  seed := 7
  name := "minute"
  experiment := some
    { sweep := Std.ExtTreeMap.empty.insert "time.duration_s" [.ofNat 30, .ofNat 60]
      replications := 1 }
  rest := seconds "60.0".toList (by decide)

end V2xw.Experiment
