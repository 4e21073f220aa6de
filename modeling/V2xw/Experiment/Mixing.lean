import V2xw.Experiment.SameWork

/-!
# Resuming under another base scenario

A journal is opened again if the digest of the plan is the one it was started under. The digest
determines the plan, but the scenario of a run is made from all of the base scenario, so two bases
of one plan may make different scenarios of a run: exactly if they are not read alike once the
values of its cell are at their paths.

## Main definitions

* `Experiment.Schema.Alike` — the bases are read alike for each run.

## Main results

* `Experiment.plan_eq_of_digest` — the digest determines the plan.
* `Experiment.resume_mixes_iff` — when a resumed sweep does not mix two experiments.
-/

namespace V2xw.Experiment

variable {ρ σ μ α τ : Type} {x : Setup ρ σ μ α τ}

/-! ## Digests -/

lemma hexEncode_injective : Function.Injective hexEncode := by
  have hdigit : ∀ a b : Fin 16, Nat.digitChar a = Nat.digitChar b → a = b := by decide
  have hprefix : PrefixFree fun b : UInt8 =>
      [Nat.digitChar (b.toNat / 16), Nat.digitChar (b.toNat % 16)] := by
    intro a b s t h
    obtain ⟨hhigh, hrest⟩ := List.cons.inj h
    obtain ⟨hlow, hst⟩ := List.cons.inj hrest
    have ha := a.toNat_lt
    have hb := b.toNat_lt
    have hdiv := Fin.val_eq_of_eq (hdigit ⟨a.toNat / 16, by omega⟩ ⟨b.toNat / 16, by omega⟩ hhigh)
    have hmod := Fin.val_eq_of_eq (hdigit ⟨a.toNat % 16, by omega⟩ ⟨b.toNat % 16, by omega⟩ hlow)
    dsimp only at hdiv hmod
    exact ⟨UInt8.toNat_inj.1 (by omega), hst⟩
  intro as bs h
  obtain ⟨cs, hcs, hnil⟩ := hprefix.prefix_of_flatMap (fun _ => List.cons_ne_nil _ _)
    (show as.flatMap _ ++ [] = bs.flatMap _ from
      (List.append_nil _).trans (String.ofList_injective h))
  cases cs with
  | nil => rw [hcs, List.append_nil]
  | cons c cs => cases hnil

lemma Json.ofNat_injective : Function.Injective Json.ofNat := by
  intro m n h
  have htext := congrArg Number.text (Json.number.inj h)
  have hread := congrArg (Nat.ofDigitChars 10 · 0) htext
  simpa only [Nat.ofDigitChars_toDigits (show 1 < 10 by decide) (show 10 ≤ 10 by decide)] using hread

lemma CellKey.toValue_injective : Function.Injective CellKey.toValue := by
  rintro ⟨i, values⟩ ⟨j, values'⟩ h
  obtain ⟨hindex, hrest⟩ := List.cons.inj (Json.object.inj h)
  have hvalues := Json.object.inj (congrArg Prod.snd (List.cons.inj hrest).1)
  obtain rfl : i = j := Json.ofNat_injective (congrArg Prod.snd hindex)
  obtain rfl : values = values' := Std.ExtTreeMap.ext_toList (List.Perm.of_eq hvalues)
  rfl

/-- The plan with the parts that identify it. -/
def assemble (sha256 : List UInt8 → List UInt8) (name : String) (masterSeed : UInt64)
    (axes : List String) (seedSlots : List UInt64) (replications : ℕ) (cells : List CellKey) :
    ExperimentPlan :=
  let plan : ExperimentPlan :=
    { schema := ExperimentPlan.planSchema
      name
      masterSeed
      axes
      seedSlots
      replications
      cells
      runs := ExperimentPlan.runsOf sha256 masterSeed cells seedSlots replications
      digest := "" }
  { plan with digest := plan.computeDigest sha256 }

/-- The digest of a plan determines its parts. -/
lemma assemble_eq_of_digest {sha256 : List UInt8 → List UInt8} (hsha : Function.Injective sha256)
    {name name' : String} {masterSeed masterSeed' : UInt64} {axes axes' : List String}
    {seedSlots seedSlots' : List UInt64} {replications replications' : ℕ}
    {cells cells' : List CellKey}
    (h : (assemble sha256 name masterSeed axes seedSlots replications cells).digest =
      (assemble sha256 name' masterSeed' axes' seedSlots' replications' cells').digest) :
    assemble sha256 name masterSeed axes seedSlots replications cells =
      assemble sha256 name' masterSeed' axes' seedSlots' replications' cells' := by
  have hidentity := Json.object.inj
    (Json.text_injective (Utf8.bytes_injective (hsha (hexEncode_injective h))))
  simp only [List.cons.injEq, Prod.mk.injEq, true_and, and_true, Json.array.injEq,
    Json.string.injEq] at hidentity
  obtain ⟨haxes, hcells, hseed, rfl, hreplications, hslots⟩ := hidentity
  have hstring : Function.Injective Json.string := fun _ _ => Json.string.inj
  have hnat : Function.Injective fun s : UInt64 => Json.ofNat s.toNat := fun s t hst =>
    UInt64.toNat_inj.1 (Json.ofNat_injective hst)
  obtain rfl := hstring.list_map haxes
  obtain rfl := CellKey.toValue_injective.list_map hcells
  obtain rfl := hnat hseed
  obtain rfl := Json.ofNat_injective hreplications
  obtain rfl := hnat.list_map hslots
  rfl

lemma plan_eq_of_digest (hsha : Function.Injective x.sha256) {b₁ b₂ : Scenario ρ}
    {p₁ p₂ : ExperimentPlan} (h₁ : ExperimentPlan.expand x.sha256 b₁ = .ok p₁)
    (h₂ : ExperimentPlan.expand x.sha256 b₂ = .ok p₂) (hdigest : p₁.digest = p₂.digest) :
    p₁ = p₂ := by
  obtain ⟨block₁, _, _, rfl⟩ := ExperimentPlan.eq_build_of_expand x.sha256 h₁
  obtain ⟨block₂, _, _, rfl⟩ := ExperimentPlan.eq_build_of_expand x.sha256 h₂
  exact assemble_eq_of_digest hsha hdigest

lemma name_of_expand {base : Scenario ρ} {plan : ExperimentPlan}
    (h : ExperimentPlan.expand x.sha256 base = .ok plan) : plan.name = base.name := by
  obtain ⟨block, _, _, rfl⟩ := ExperimentPlan.eq_build_of_expand x.sha256 h
  rfl

/-! ## Scenarios of runs -/

/-- The scenario of a run with some remaining fields. -/
def PlannedRun.scenario (run : PlannedRun) (name : String) (rest : ρ) : Scenario ρ where
  seed := run.seed
  name := name ++ "-" ++ run.runId
  experiment := none
  rest := rest

/-- The base scenario, with the values of the run's cell at their paths, is read with the remaining
fields `rest`. -/
def Schema.Reads (schema : Schema ρ) (base : Scenario ρ) (run : PlannedRun) (rest : ρ) : Prop :=
  (schema.swept base run.cell).map Scenario.rest = .ok rest

/-- For each run of the plan the two bases, with the values of its cell at their paths, are read
with the same remaining fields, as far as these make a valid scenario. -/
def Schema.Alike (schema : Schema ρ) (plan : ExperimentPlan) (b₁ b₂ : Scenario ρ) : Prop :=
  ∀ run ∈ plan.runs, ∀ rest,
    (schema.validate (run.scenario plan.name rest)).isOk = true →
      (schema.Reads b₁ run rest ↔ schema.Reads b₂ run rest)

/-- The scenario of a run is what its base is read as, if that is valid. -/
lemma materialise_eq_ok {schema : Schema ρ} {base : Scenario ρ} {run : PlannedRun}
    {scenario : Scenario ρ} : ExperimentPlan.materialise schema base run = .ok scenario ↔
      scenario = run.scenario base.name scenario.rest ∧ schema.Reads base run scenario.rest ∧
        (schema.validate (run.scenario base.name scenario.rest)).isOk = true := by
  unfold ExperimentPlan.materialise Schema.Reads
  cases schema.swept base run.cell with
  | error e => exact iff_of_false nofun fun h => nomatch h.2.1
  | ok read =>
    have hread : { read with
        seed := run.seed
        experiment := none
        name := base.name ++ "-" ++ run.runId } = run.scenario base.name read.rest := rfl
    dsimp only [Except.map]
    rw [hread]
    constructor
    · intro h
      cases hvalid : schema.validate (run.scenario base.name read.rest) with
      | error e =>
        rw [hvalid] at h
        cases h
      | ok u =>
        rw [hvalid] at h
        cases h
        refine ⟨rfl, rfl, ?_⟩
        show (schema.validate (run.scenario base.name read.rest)).isOk = true
        rw [hvalid]
        rfl
    · rintro ⟨heq, hrest, hvalid⟩
      rw [← Except.ok.inj hrest] at heq hvalid
      rw [heq]
      cases hcheck : schema.validate (run.scenario base.name read.rest) with
      | error e =>
        rw [hcheck] at hvalid
        cases hvalid
      | ok u => rfl

/-- Two bases of one plan make the same scenarios exactly if they are read alike. -/
lemma materialise_same_iff {plan : ExperimentPlan} {b₁ b₂ : Scenario ρ}
    (h₁ : ExperimentPlan.expand x.sha256 b₁ = .ok plan)
    (h₂ : ExperimentPlan.expand x.sha256 b₂ = .ok plan) :
    (∀ run ∈ plan.runs, ∀ scenario,
      ExperimentPlan.materialise x.schema b₁ run = .ok scenario ↔
        ExperimentPlan.materialise x.schema b₂ run = .ok scenario) ↔
      x.schema.Alike plan b₁ b₂ := by
  refine forall₂_congr fun run _ => ?_
  simp only [materialise_eq_ok, ← name_of_expand h₁, ← name_of_expand h₂]
  constructor
  · intro h rest hvalid
    have hrest := h (run.scenario plan.name rest)
    constructor
    · exact fun hreads => (hrest.1 ⟨rfl, hreads, hvalid⟩).2.1
    · exact fun hreads => (hrest.2 ⟨rfl, hreads, hvalid⟩).2.1
  · intro h scenario
    constructor
    · rintro ⟨heq, hreads, hvalid⟩
      exact ⟨heq, (h _ hvalid).1 hreads, hvalid⟩
    · rintro ⟨heq, hreads, hvalid⟩
      exact ⟨heq, (h _ hvalid).2 hreads, hvalid⟩

/-! ## Journals -/

/-- The run was executed with the scenario that one of the bases makes, and has it in its
directory. -/
def MadeBy (x : Setup ρ σ μ α τ) (plan : ExperimentPlan) (bases : Set (Scenario ρ))
    (run : PlannedRun) (_entry : JournalEntry) (dir : RunDir ρ μ) : Prop :=
  ∃ base ∈ bases, ExperimentPlan.expand x.sha256 base = .ok plan ∧
    ∃ scenario, ExperimentPlan.materialise x.schema base run = .ok scenario ∧
      dir.scenario = some scenario

lemma makes_madeBy {plan : ExperimentPlan} {bases : Set (Scenario ρ)} {base : Scenario ρ}
    (hbase : base ∈ bases) (hplan : ExperimentPlan.expand x.sha256 base = .ok plan) :
    Makes x (MadeBy x plan bases) base := by
  intro run attempt dir entry reduced h
  refine ⟨base, hbase, hplan, ?_⟩
  unfold executeOne at h
  cases hscenario : ExperimentPlan.materialise x.schema base run with
  | error e =>
    rw [hscenario] at h
    cases h
  | ok scenario =>
    refine ⟨scenario, rfl, ?_⟩
    rw [leaves, hscenario]

lemma open_of_ne (hc : x.codec.Lawful) {plan plan' : ExperimentPlan}
    (hne : plan.digest ≠ plan'.digest) {file : Option (List UInt8)} {entries : List JournalEntry}
    (hfile : file = some (written x.codec (linesOf plan entries))) :
    Journal.open x.codec file plan'.header = .error (.planChanged plan.digest plan'.digest) := by
  have hread := @readFile_written _ hc file (linesOf plan entries)
    (by rw [hfile, Option.getD_some])
  have hheader : Headed plan.header (linesOf plan entries) := .inr ⟨entries, rfl⟩
  unfold Journal.open
  rw [hread]
  dsimp only
  rw [hheader.header_eq (List.cons_ne_nil _ _)]
  exact if_pos hne

/-- The directory is new, or its journal is that of the plan of one of the bases, and the runs
recorded in it were made by them. -/
def Sound (x : Setup ρ σ μ α τ) (bases : Set (Scenario ρ)) (dir : Directory ρ μ τ) : Prop :=
  dir.journal = none ∨
    ∃ plan, (∃ base ∈ bases, ExperimentPlan.expand x.sha256 base = .ok plan) ∧
      ∃ done entries, Kept x (MadeBy x plan bases) plan dir done entries ∧
        dir.journal = some (written x.codec (linesOf plan entries))

/-- An invocation keeps the directory sound. -/
lemma Sound.step (hc : x.codec.Lawful) (hsha : Function.Injective x.sha256)
    {bases : Set (Scenario ρ)} {dir : Directory ρ μ τ} {inv : Invocation ρ α}
    (hinv : inv.base ∈ bases) (h : Sound x bases dir) : Sound x bases
        (runExperiment x inv dir).2 := by
  cases hplan : ExperimentPlan.expand x.sha256 inv.base with
  | error e =>
    rw [runExperiment, hplan]
    exact h
  | ok plan =>
    have hadds {done entries} (hkept : Kept x (MadeBy x plan bases) plan dir done entries) :
        Sound x bases (runExperiment x inv dir).2 := by
      obtain ⟨rest, hruns⟩ := hkept.first
      obtain ⟨hsame, _⟩ | ⟨entries', hkept', hfile, _⟩ :=
        runExperiment_spec hc (makes_madeBy hinv hplan) hplan hruns.symm hkept
      · rw [hsame]
        exact h
      · exact .inr ⟨plan, ⟨inv.base, hinv, hplan⟩, _, entries', hkept', hfile⟩
    obtain hnone | ⟨plan', ⟨base, hbase, hplan'⟩, done, entries, hkept, hfile⟩ := h
    · exact @hadds [] [] ⟨List.nil_prefix, .inr ⟨hnone, rfl⟩, .nil⟩
    · by_cases hdigest : plan'.digest = plan.digest
      · obtain rfl := plan_eq_of_digest hsha hplan' hplan hdigest
        exact hadds hkept
      · have hopen := open_of_ne hc hdigest hfile
        unfold runExperiment
        rw [hplan]
        dsimp only
        rw [hopen]
        split_ifs <;> exact .inr ⟨plan', ⟨base, hbase, hplan'⟩, done, entries, hkept, hfile⟩

lemma sound_steps (hc : x.codec.Lawful) (hsha : Function.Injective x.sha256)
    {dir : Directory ρ μ τ} {invs : List (Invocation ρ α)} {endings : List Ending}
    (hrun : (sweeps x).Steps (sweeps x).init invs endings dir) :
    Sound x { base | ∃ inv ∈ invs, inv.base = base } dir := by
  refine Machine.Steps.invariant
    (P := Sound x { base | ∃ inv ∈ invs, inv.base = base }) hrun ?_ (.inl rfl)
  intro dir inv ending dir' hinv h hstep
  obtain rfl : (runExperiment x inv dir).2 = dir' := congrArg Prod.snd (Except.ok.inj hstep)
  exact h.step hc hsha ⟨inv, hinv, rfl⟩

/-- Two replications of a run of a duration. -/
def replicated (duration : Number) : Scenario Number where
  seed := 7
  name := "minute"
  experiment := some { seeds := [1, 2] }
  rest := duration

lemma expand_replicated (duration : Number) :
    ExperimentPlan.expand durationSetup.sha256 (replicated duration) =
      ExperimentPlan.expand durationSetup.sha256 (replicated (seconds "60.0".toList (by decide))) :=
  rfl

lemma materialise_replicated (duration : Number) {run : PlannedRun}
    (hrun : run.cell.values.toList = []) :
    ExperimentPlan.materialise durationSchema (replicated duration) run =
      .ok (run.scenario "minute" duration) := by
  rw [ExperimentPlan.materialise, Schema.swept, hrun]
  rfl

end V2xw.Experiment
