import Mathlib.Data.List.TakeWhile
import V2xw.Experiment.Expansion
import V2xw.Experiment.Interruption
import V2xw.Experiment.Runner

/-!
# What an invocation adds to a directory

Before an invocation the journal has the first runs of the plan. The runs left are executed in
chunks, and of the results the journal gets those before the first that is no success. So after it
the journal has again the first runs of the plan, whatever the size of the chunks and the order in
which their runs finished.

What is known of a recorded run is left open (`Made`): it has to hold of what an invocation leaves
in the directory of a run that succeeded.

## Main definitions

* `Experiment.Kept` — the runs a directory has recorded.

## Main results

* `Experiment.leaveAll_of_mem` — what a chunk leaves, in whatever order its runs finish.
* `Experiment.Holding.foldl_runChunk` — what is recorded when some chunks are through.
* `Experiment.runExperiment_spec` — what an invocation adds.
-/

namespace V2xw.Experiment

variable {ρ σ μ α τ : Type} {x : Setup ρ σ μ α τ}

/-! ## Directories of runs -/

lemma leaveAll_of_not_mem {base : Scenario ρ} {attempt : PlannedRun → Attempt}
    {runs : List PlannedRun} {id : String} (hid : ∀ run ∈ runs, run.runId ≠ id) :
    ∀ dirs, leaveAll x base attempt runs dirs id = dirs id := by
  induction runs with
  | nil => exact fun dirs => rfl
  | cons run runs ih =>
    obtain ⟨hrun, hruns⟩ := List.forall_mem_cons.1 hid
    intro dirs
    exact (ih hruns _).trans (Function.update_of_ne hrun.symm _ _)

/-- A chunk leaves in the directory of each of its runs what that run leaves there. -/
lemma leaveAll_of_mem {base : Scenario ρ} {attempt : PlannedRun → Attempt}
    {runs : List PlannedRun} (hnodup : (runs.map PlannedRun.runId).Nodup) {run : PlannedRun}
    (hrun : run ∈ runs) : ∀ dirs, leaveAll x base attempt runs dirs run.runId =
      leaves x base run (attempt run) (dirs run.runId) := by
  induction runs with
  | nil => exact absurd hrun List.not_mem_nil
  | cons first runs ih =>
    obtain ⟨hfirst, hnodup⟩ := List.nodup_cons.1 hnodup
    have hne : ∀ run ∈ runs, run.runId ≠ first.runId := fun run hmem heq =>
      hfirst (heq ▸ List.mem_map_of_mem hmem)
    intro dirs
    obtain rfl | hmem := List.mem_cons.1 hrun
    · exact (leaveAll_of_not_mem hne _).trans (Function.update_self _ _ _)
    · refine (ih hnodup hmem _).trans (congrArg _ ?_)
      exact Function.update_of_ne (hne run hmem) _ _

/-! ## Recorded runs -/

/-- The lines of a journal with some entries. -/
def linesOf (plan : ExperimentPlan) (entries : List JournalEntry) : List JournalLine :=
  .header plan.header :: entries.map .run

/-- What is known of a recorded run: its id, and what was made of it. -/
def Entered (Made : PlannedRun → JournalEntry → RunDir ρ μ → Prop) (dirs : String → RunDir ρ μ)
    (run : PlannedRun) (entry : JournalEntry) : Prop :=
  entry.runId = run.runId ∧ Made run entry (dirs run.runId)

/-- An invocation in progress has recorded the runs `done`. -/
structure Holding (x : Setup ρ σ μ α τ) (Made : PlannedRun → JournalEntry → RunDir ρ μ → Prop)
    (plan : ExperimentPlan) (p : Progress ρ μ τ) (done : List PlannedRun)
    (entries : List JournalEntry) : Prop where
  file : p.dir.journal = some (written x.codec (linesOf plan entries))
  entered : List.Forall₂ (Entered Made p.dir.runs) done entries
  completed : ∀ id, p.journal.completed[id]?.isSome ↔ ∃ run ∈ done, run.runId = id

/-- The run succeeds in an invocation. -/
def Invocation.succeeds (x : Setup ρ σ μ α τ) (inv : Invocation ρ α) (run : PlannedRun) : Bool :=
  (executeOne x inv.base run (inv.attempt run)).isDone

/-- The invocation stopped before its runs were through. -/
def Stopped (p : Progress ρ μ τ) : Prop :=
  ∃ ending, p.stopped = some ending ∧ ∀ outcome, ending ≠ .finished outcome

lemma forall₂_concat {β γ : Type} {R : β → γ → Prop} {bs : List β} {cs : List γ} {b : β} {c : γ}
    (h : List.Forall₂ R bs cs) (hbc : R b c) : List.Forall₂ R (bs ++ [b]) (cs ++ [c]) := by
  induction h with
  | nil => exact .cons hbc .nil
  | cons h _ ih => exact .cons h ih

section Chunks

variable {Made : PlannedRun → JournalEntry → RunDir ρ μ → Prop} {plan : ExperimentPlan}
  {inv : Invocation ρ α} {p : Progress ρ μ τ} {done : List PlannedRun} {entries : List JournalEntry}

lemma note_of_stopped (hstop : Stopped p) (alone : Bool) (run : PlannedRun) (worked : Worked μ) :
    note x alone p run worked = p := by
  obtain ⟨ending, hending, _⟩ := hstop
  unfold note
  rw [hending]

/-- A success is recorded. -/
lemma Holding.note_done (h : Holding x Made plan p done entries) (hstop : p.stopped = none)
    (alone : Bool) {run : PlannedRun} {entry : JournalEntry} (reduced : RunMetrics μ)
    (hid : entry.runId = run.runId) (hmade : Made run entry (p.dir.runs run.runId)) :
    Holding x Made plan (note x alone p run (.done entry reduced)) (done ++ [run])
        (entries ++ [entry]) ∧
      (note x alone p run (.done entry reduced)).stopped = none := by
  unfold note
  rw [hstop]
  refine ⟨⟨?_, forall₂_concat h.entered ⟨hid, hmade⟩, fun id => ?_⟩, rfl⟩
  · show writeLines x.codec p.dir.journal [.run entry] = _
    rw [writeLines_eq, h.file, Option.getD_some, ← written_append, linesOf, linesOf, List.map_append]
    rfl
  · show (p.journal.completed.insert entry.runId entry)[id]?.isSome ↔ _
    rw [OrdMap.get_insert, hid]
    split_ifs with hrun
    · exact iff_of_true rfl ⟨run, List.mem_append_right _ List.mem_cons_self, hrun⟩
    · rw [h.completed]
      constructor
      · rintro ⟨r, hr, rfl⟩
        exact ⟨r, List.mem_append_left _ hr, rfl⟩
      · rintro ⟨r, hr, rfl⟩
        obtain hr | hr := List.mem_append.1 hr
        · exact ⟨r, hr, rfl⟩
        · rw [List.mem_singleton.1 hr] at hrun
          exact absurd rfl hrun

/-- What is no success stops the invocation. -/
lemma Holding.note_not_done (h : Holding x Made plan p done entries) (hstop : p.stopped = none)
    (alone : Bool) (run : PlannedRun) {worked : Worked μ} (hworked : worked.isDone = false) :
    Holding x Made plan (note x alone p run worked) done entries ∧
      Stopped (note x alone p run worked) := by
  unfold note
  rw [hstop]
  cases worked with
  | done entry reduced => cases hworked
  | failed e => exact ⟨⟨h.file, h.entered, h.completed⟩, _, rfl, nofun⟩
  | panicked =>
    cases alone with
    | true => exact ⟨⟨h.file, h.entered, h.completed⟩, _, rfl, nofun⟩
    | false => exact ⟨⟨h.file, h.entered, h.completed⟩, _, rfl, nofun⟩

/-- An entry has the id of its run. -/
lemma runId_of_executeOne {base : Scenario ρ} {run : PlannedRun} {attempt : Attempt}
    {entry : JournalEntry} {reduced : RunMetrics μ}
    (h : executeOne x base run attempt = .done entry reduced) : entry.runId = run.runId := by
  unfold executeOne at h
  split at h
  · cases h
  · cases attempt with
    | completes wallS =>
      dsimp only at h
      split at h
      · cases h
      · cases h
        rfl
    | fails message => cases h
    | panics => cases h

lemma runs_note (alone : Bool) (p : Progress ρ μ τ) (run : PlannedRun) (worked : Worked μ) :
    (note x alone p run worked).dir.runs = p.dir.runs := by
  unfold note
  split
  · rfl
  · cases worked with
    | done entry reduced => rfl
    | failed e => rfl
    | panicked => cases alone <;> rfl

/-- The first runs of a chunk are recorded, up to the first that is no success. -/
lemma Holding.foldl_note (alone : Bool) {chunk : List PlannedRun} :
    ∀ {p : Progress ρ μ τ} {done entries}, Holding x Made plan p done entries → p.stopped = none →
      (∀ run ∈ chunk, ∀ entry reduced,
        executeOne x inv.base run (inv.attempt run) = .done entry reduced →
          Made run entry (p.dir.runs run.runId)) →
      ∃ entries',
        Holding x Made plan
          (chunk.foldl
            (fun p run => note x alone p run (executeOne x inv.base run (inv.attempt run))) p)
          (done ++ chunk.takeWhile (inv.succeeds x)) entries' ∧
        if chunk.all (inv.succeeds x) then
          (chunk.foldl
            (fun p run => note x alone p run (executeOne x inv.base run (inv.attempt run))) p).stopped
            = none
        else Stopped (chunk.foldl
            (fun p run => note x alone p run (executeOne x inv.base run (inv.attempt run))) p) := by
  have hstay {p : Progress ρ μ τ} (hstop : Stopped p) (runs : List PlannedRun) :
      runs.foldl (fun p run => note x alone p run (executeOne x inv.base run (inv.attempt run))) p =
        p := by
    induction runs with
    | nil => rfl
    | cons run runs ih => rw [List.foldl_cons, note_of_stopped hstop, ih]
  induction chunk with
  | nil =>
    intro p done entries h hstop _
    exact ⟨entries, by rwa [List.takeWhile_nil, List.append_nil], hstop⟩
  | cons run chunk ih =>
    intro p done entries h hstop hmade
    obtain ⟨hrun, hchunk⟩ := List.forall_mem_cons.1 hmade
    rw [List.foldl_cons, List.all_cons, List.takeWhile_cons]
    cases hdone : inv.succeeds x run with
    | true =>
      cases hworked : executeOne x inv.base run (inv.attempt run) with
      | done entry reduced =>
        obtain ⟨hhold, hnone⟩ := h.note_done hstop alone reduced (runId_of_executeOne hworked)
          (hrun entry reduced hworked)
        obtain ⟨entries', hhold', hrest⟩ := ih hhold hnone (by
          rw [runs_note]
          exact hchunk)
        rw [List.append_assoc] at hhold'
        exact ⟨entries', hhold', hrest⟩
      | failed e =>
        rw [Invocation.succeeds, hworked] at hdone
        cases hdone
      | panicked =>
        rw [Invocation.succeeds, hworked] at hdone
        cases hdone
    | false =>
      obtain ⟨hhold, hstopped⟩ := h.note_not_done hstop alone run hdone
      rw [hstay hstopped]
      exact ⟨entries, (List.append_nil done).symm ▸ hhold, hstopped⟩

/-- What an invocation has made of a run that succeeded. -/
def Makes (x : Setup ρ σ μ α τ) (Made : PlannedRun → JournalEntry → RunDir ρ μ → Prop)
    (base : Scenario ρ) : Prop :=
  ∀ run attempt dir entry reduced, executeOne x base run attempt = .done entry reduced →
    Made run entry (leaves x base run attempt dir)

/-- What is recorded when some chunks are through: the first of their runs, up to the first that is
no success. -/
lemma Holding.foldl_runChunk (hmakes : Makes x Made inv.base) {pieces : List (List PlannedRun)} :
    ∀ {p : Progress ρ μ τ} {done entries}, Holding x Made plan p done entries → p.stopped = none →
      ((done ++ pieces.flatten).map PlannedRun.runId).Nodup →
      ∃ entries',
        Holding x Made plan (pieces.foldl (runChunk x inv) p)
          (done ++ pieces.flatten.takeWhile (inv.succeeds x)) entries' ∧
        if pieces.flatten.all (inv.succeeds x) then (pieces.foldl (runChunk x inv) p).stopped = none
        else Stopped (pieces.foldl (runChunk x inv) p) := by
  have hstay {p : Progress ρ μ τ} (hstop : Stopped p) (pieces : List (List PlannedRun)) :
      pieces.foldl (runChunk x inv) p = p := by
    induction pieces with
    | nil => rfl
    | cons chunk pieces ih =>
      obtain ⟨ending, hending, _⟩ := hstop
      rw [List.foldl_cons, runChunk, hending]
      exact ih
  induction pieces with
  | nil =>
    intro p done entries h hstop _
    exact ⟨entries, by rwa [List.flatten_nil, List.takeWhile_nil, List.append_nil], hstop⟩
  | cons chunk pieces ih =>
    intro p done entries h hstop hnodup
    rw [List.flatten_cons, List.map_append, List.map_append] at hnodup
    obtain ⟨_, hpending, hdisjoint⟩ := List.nodup_append.1 hnodup
    have hchunk : (chunk.map PlannedRun.runId).Nodup := (List.nodup_append.1 hpending).1
    -- the workers leave the directories of the runs that are recorded as they are
    have hperm := inv.finish.perm chunk
    have hentered : List.Forall₂
        (Entered Made (leaveAll x inv.base inv.attempt (inv.finish.order chunk) p.dir.runs))
        done entries := by
      refine List.forall₂_iff_get.2 ⟨h.entered.length_eq, fun i h₁ h₂ => ?_⟩
      obtain ⟨hid, hmade⟩ := h.entered.get h₁ h₂
      refine ⟨hid, ?_⟩
      rw [leaveAll_of_not_mem]
      · exact hmade
      · intro run hrun heq
        exact hdisjoint _ (List.mem_map_of_mem (List.get_mem _ ⟨i, h₁⟩)) _
          (List.mem_append_left _ (List.mem_map_of_mem (hperm.mem_iff.1 hrun))) heq.symm
    have hmade : ∀ run ∈ chunk, ∀ entry reduced,
        executeOne x inv.base run (inv.attempt run) = .done entry reduced →
          Made run entry (leaveAll x inv.base inv.attempt (inv.finish.order chunk) p.dir.runs
            run.runId) := by
      intro run hrun entry reduced hworked
      rw [leaveAll_of_mem ((hperm.map _).nodup_iff.2 hchunk) (hperm.mem_iff.2 hrun)]
      exact hmakes run _ _ entry reduced hworked
    obtain ⟨entries₁, hhold, hrest⟩ := Holding.foldl_note (decide (chunk.length ≤ 1))
      (p := { p with dir := { p.dir with
        runs := leaveAll x inv.base inv.attempt (inv.finish.order chunk) p.dir.runs } })
      ⟨h.file, hentered, h.completed⟩ hstop hmade
    have hrunChunk : runChunk x inv p chunk = chunk.foldl
        (fun p run => note x (decide (chunk.length ≤ 1)) p run
          (executeOne x inv.base run (inv.attempt run)))
        { p with dir := { p.dir with
          runs := leaveAll x inv.base inv.attempt (inv.finish.order chunk) p.dir.runs } } := by
      rw [runChunk, hstop]
    rw [← hrunChunk] at hhold hrest
    rw [List.foldl_cons, List.flatten_cons, List.all_append]
    by_cases hall : chunk.all (inv.succeeds x) = true
    · have hwhole : chunk.takeWhile (inv.succeeds x) = chunk :=
        List.takeWhile_eq_self_iff.2 (List.all_eq_true.1 hall)
      rw [if_pos hall] at hrest
      rw [hwhole] at hhold
      obtain ⟨entries₂, hhold, hlast⟩ := ih hhold hrest (by
        rwa [List.map_append, List.map_append, List.append_assoc])
      rw [List.append_assoc] at hhold
      refine ⟨entries₂, ?_, by rwa [hall]⟩
      rwa [List.takeWhile_append_of_pos (List.all_eq_true.1 hall)]
    · rw [if_neg hall] at hrest
      rw [hstay hrest, Bool.eq_false_iff.2 hall]
      refine ⟨entries₁, ?_, hrest⟩
      rwa [List.takeWhile_append, if_neg]
      intro hlength
      exact hall (List.all_eq_true.2 (List.takeWhile_eq_self_iff.1
        ((List.takeWhile_prefix _).eq_of_length hlength)))

end Chunks

lemma flatten_chunks {β : Type} {size : ℕ} (hsize : 0 < size) :
    ∀ (fuel : ℕ) (l : List β), l.length ≤ fuel → (chunks size fuel l).flatten = l := by
  intro fuel
  induction fuel with
  | zero =>
    intro l hl
    rw [List.length_eq_zero_iff.1 (Nat.le_zero.1 hl)]
    rfl
  | succ fuel ih =>
    intro l hl
    cases l with
    | nil => rfl
    | cons b l =>
      have hdrop : ((b :: l).drop size).length ≤ fuel := by
        rw [List.length_drop]
        omega
      rw [chunks, List.flatten_cons, ih _ hdrop, List.take_append_drop]
      exact nofun

/-! ## Tables -/

lemma mapM_congr {β γ ε : Type} {f g : β → Except ε γ} {l : List β} (h : ∀ b ∈ l, f b = g b) :
    l.mapM f = l.mapM g := by
  induction l with
  | nil => rfl
  | cons b l ih =>
    obtain ⟨hb, hl⟩ := List.forall_mem_cons.1 h
    rw [List.mapM_cons, List.mapM_cons, hb, ih hl]

/-- The table depends on which runs are done, and on their metrics. -/
lemma tableFrom_congr {plan : ExperimentPlan} {completed completed' : OrdMap String JournalEntry}
    {dirs dirs' : String → RunDir ρ μ} (aggregate : α)
    (h : ∀ run ∈ plan.runs, completed[run.runId]?.isSome = completed'[run.runId]?.isSome ∧
      (dirs run.runId).metrics = (dirs' run.runId).metrics) :
    tableFrom x plan completed aggregate dirs = tableFrom x plan completed' aggregate dirs' := by
  have hcell (cell : CellKey) :
      cellMetrics x plan completed dirs cell = cellMetrics x plan completed' dirs' cell := by
    rw [cellMetrics, cellMetrics]
    have hfilter : (plan.runs.filter fun run => run.cell.index = cell.index).filter
          (fun run => completed[run.runId]?.isSome) =
        (plan.runs.filter fun run => run.cell.index = cell.index).filter
          (fun run => completed'[run.runId]?.isSome) :=
      List.filter_congr fun run hrun => (h run (List.mem_filter.1 hrun).1).1
    rw [hfilter]
    refine mapM_congr fun run hrun => ?_
    rw [(h run (List.mem_filter.1 (List.mem_filter.1 hrun).1).1).2]
  rw [tableFrom, tableFrom]
  simp only [hcell]

/-! ## Invocations -/

/-- The directory has recorded the runs `done`, the first ones of the plan. -/
structure Kept (x : Setup ρ σ μ α τ) (Made : PlannedRun → JournalEntry → RunDir ρ μ → Prop)
    (plan : ExperimentPlan) (dir : Directory ρ μ τ) (done : List PlannedRun)
    (entries : List JournalEntry) : Prop where
  first : done <+: plan.runs
  file : dir.journal = some (written x.codec (linesOf plan entries)) ∨
    (dir.journal = none ∧ done = [])
  entered : List.Forall₂ (Entered Made dir.runs) done entries

section Invocations

variable {Made : PlannedRun → JournalEntry → RunDir ρ μ → Prop} {plan : ExperimentPlan}
  {inv : Invocation ρ α} {dir : Directory ρ μ τ} {done : List PlannedRun}
  {entries : List JournalEntry}

lemma kept_init : Kept x Made plan (sweeps x).init [] [] :=
  ⟨List.nil_prefix, .inr ⟨rfl, rfl⟩, .nil⟩

lemma map_runId_of_entered {dirs : String → RunDir ρ μ}
    (h : List.Forall₂ (Entered Made dirs) done entries) :
    entries.map JournalEntry.runId = done.map PlannedRun.runId := by
  induction h with
  | nil => rfl
  | cons h _ ih => rw [List.map_cons, List.map_cons, h.1, ih]

/-- The runs completed are those of the lines. -/
lemma isSome_completedOf (c : LineCodec) (entries : List JournalEntry) (id : String) :
    (completedOf c (linesOf plan entries))[id]?.isSome ↔ ∃ entry ∈ entries, entry.runId = id := by
  have hfold : ∀ (entries : List JournalEntry) (r : Recorded),
      (((entries.map JournalLine.run).map (JournalLine.reread c.reread)).foldl Recorded.add r).completed
        = entries.foldl (fun m e => m.insert e.runId { e with wallS := c.reread e.wallS })
            r.completed := by
    intro entries
    induction entries with
    | nil => exact fun r => rfl
    | cons e entries ih => exact fun r => ih _
  rw [completedOf, linesOf, List.map_cons, List.foldl_cons, hfold]
  constructor
  · intro h
    obtain ⟨value, hvalue⟩ := Option.isSome_iff_exists.1 h
    obtain hvalue | ⟨entry, hentry, hid, _⟩ := OrdMap.get_foldl_insert_some JournalEntry.runId
      (fun e => { e with wallS := c.reread e.wallS }) entries _ id value hvalue
    · exact absurd hvalue (by simp [Recorded.add, JournalLine.reread])
    · exact ⟨entry, hentry, hid⟩
  · exact fun h => OrdMap.isSome_foldl_insert _ _ _ _ _ (.inr h)

/-- The journal opens, with the recorded runs completed. -/
lemma Kept.open_eq (h : Kept x Made plan dir done entries) (hc : x.codec.Lawful) :
    ∃ journal lines, Journal.open x.codec dir.journal plan.header = .ok (journal, lines) ∧
      writeLines x.codec dir.journal lines = some (written x.codec (linesOf plan entries)) ∧
      ∀ id, journal.completed[id]?.isSome ↔ ∃ run ∈ done, run.runId = id := by
  have hids : ∀ id, (∃ entry ∈ entries, entry.runId = id) ↔ ∃ run ∈ done, run.runId = id := by
    intro id
    rw [← List.mem_map, map_runId_of_entered h.entered, List.mem_map]
  obtain hfile | ⟨hnone, hdone⟩ := h.file
  · have hread := @readFile_written _ hc dir.journal (linesOf plan entries)
      (by rw [hfile, Option.getD_some])
    refine ⟨_, _, open_of_readLines (.inr ⟨entries, rfl⟩) hread, ?_, fun id => ?_⟩
    · rw [if_neg (List.cons_ne_nil _ _), writeLines_eq, hfile, Option.getD_some]
      exact congrArg some (List.append_nil _)
    · exact (isSome_completedOf x.codec entries id).trans (hids id)
  · subst hdone
    cases h.entered
    refine ⟨⟨plan.header, ∅⟩, [.header plan.header], by rw [hnone]; rfl, ?_, fun id => ?_⟩
    · rw [writeLines_eq, hnone]
      rfl
    · exact iff_of_false (by simp) (by simp)

/-- The runs that are not done are those behind the first ones. -/
lemma filter_not_done {rest : List PlannedRun} {journal : Journal}
    (hruns : plan.runs = done ++ rest) (hnodup : (plan.runs.map PlannedRun.runId).Nodup)
    (hcompleted : ∀ id, journal.completed[id]?.isSome ↔ ∃ run ∈ done, run.runId = id) :
    (plan.runs.filter fun run => !journal.isDone run.runId) = rest := by
  rw [hruns, List.map_append] at hnodup
  have hdisjoint := (List.nodup_append.1 hnodup).2.2
  have hdone : done.filter (fun run => !journal.isDone run.runId) = [] := by
    refine List.filter_eq_nil_iff.2 fun run hrun => ?_
    rw [Journal.isDone, (hcompleted run.runId).2 ⟨run, hrun, rfl⟩]
    exact nofun
  have hrest : rest.filter (fun run => !journal.isDone run.runId) = rest := by
    refine List.filter_eq_self.2 fun run hrun => ?_
    rw [Bool.not_eq_true', Journal.isDone, ← Bool.not_eq_true, hcompleted]
    rintro ⟨r, hr, heq⟩
    exact hdisjoint _ (List.mem_map_of_mem hr) _ (List.mem_map_of_mem hrun) heq
  rw [hruns, List.filter_append, hdone, hrest, List.nil_append]

/-- How an invocation ends that has opened the journal: with the table if all runs succeed and their
metrics are read, and with no outcome otherwise. -/
def EndsWith (x : Setup ρ σ μ α τ) (inv : Invocation ρ α) (plan : ExperimentPlan)
    (rest : List PlannedRun) (r : Ending × Directory ρ μ τ) : Prop :=
  if rest.all (inv.succeeds x) then
    ∃ completed : OrdMap String JournalEntry,
      (∀ run ∈ plan.runs, completed[run.runId]?.isSome) ∧
      match tableFrom x plan completed inv.options.aggregate r.2.runs with
      | .error e => r.1 = .failed e
      | .ok table => (∃ outcome, r.1 = .finished outcome) ∧ r.2.results = some table
  else ∀ outcome, r.1 ≠ .finished outcome

/-- **What an invocation adds**: the first of the runs that are left, up to the first that is no
success. -/
lemma runPending_spec (hmakes : Makes x Made inv.base) {rest : List PlannedRun}
    {journal : Journal} (hruns : plan.runs = done ++ rest)
    (hnodup : (plan.runs.map PlannedRun.runId).Nodup)
    (h : Holding x Made plan { journal, dir } done entries) :
    ∃ entries', Kept x Made plan (runPending x inv plan journal dir).2
        (done ++ rest.takeWhile (inv.succeeds x)) entries' ∧
      (runPending x inv plan journal dir).2.journal =
        some (written x.codec (linesOf plan entries')) ∧
      EndsWith x inv plan rest (runPending x inv plan journal dir) := by
  have hpending := filter_not_done hruns hnodup h.completed
  have hflatten : (chunks inv.options.effectiveConcurrency rest.length rest).flatten = rest :=
    flatten_chunks (Nat.lt_of_lt_of_le Nat.one_pos (Nat.le_max_right _ _)) _ _ le_rfl
  obtain ⟨entries', hhold, hstop⟩ := @Holding.foldl_runChunk _ _ _ _ _ x _ _ inv hmakes
    (chunks inv.options.effectiveConcurrency rest.length rest) _ _ _ h rfl
    (by rwa [hflatten, ← hruns])
  rw [hflatten] at hhold hstop
  have hfirst : done ++ rest.takeWhile (inv.succeeds x) <+: plan.runs := by
    rw [hruns, List.prefix_append_right_inj]
    exact List.takeWhile_prefix _
  unfold runPending EndsWith
  dsimp only
  rw [hpending]
  split_ifs at hstop ⊢ with hall
  · rw [hstop]
    dsimp only
    have hcompleted : ∀ run ∈ plan.runs,
        ((chunks inv.options.effectiveConcurrency rest.length rest).foldl (runChunk x inv)
          { journal, dir }).journal.completed[run.runId]?.isSome := by
      intro run hrun
      rw [hhold.completed, List.takeWhile_eq_self_iff.2 (List.all_eq_true.1 hall), ← hruns]
      exact ⟨run, hrun, rfl⟩
    split
    case h_1 e he =>
      refine ⟨entries', ⟨hfirst, .inl hhold.file, hhold.entered⟩, hhold.file, _, hcompleted, ?_⟩
      rw [he]
    case h_2 table htable =>
      refine ⟨entries', ⟨hfirst, .inl hhold.file, hhold.entered⟩, hhold.file, _, hcompleted, ?_⟩
      rw [htable]
      exact ⟨⟨_, rfl⟩, rfl⟩
  · obtain ⟨ending, hending, hne⟩ := hstop
    rw [hending]
    exact ⟨entries', ⟨hfirst, .inl hhold.file, hhold.entered⟩, hhold.file, hne⟩

/-- An invocation that finds no journal where it needs one leaves the directory as it is, and every
other one adds the first of the runs that are left. -/
lemma runExperiment_spec (hc : x.codec.Lawful) (hmakes : Makes x Made inv.base)
    (hplan : ExperimentPlan.expand x.sha256 inv.base = .ok plan) {rest : List PlannedRun}
    (hruns : plan.runs = done ++ rest) (h : Kept x Made plan dir done entries) :
    (runExperiment x inv dir = (.failed .noJournal, dir) ∧ inv.options.requireJournal = true ∧
        dir.journal = none) ∨
      ∃ entries', Kept x Made plan (runExperiment x inv dir).2
          (done ++ rest.takeWhile (inv.succeeds x)) entries' ∧
        (runExperiment x inv dir).2.journal = some (written x.codec (linesOf plan entries')) ∧
        EndsWith x inv plan rest (runExperiment x inv dir) := by
  unfold runExperiment
  rw [hplan]
  dsimp only
  split_ifs with hjournal
  · exact .inl ⟨rfl, hjournal⟩
  · obtain ⟨journal, lines, hopen, hfile, hcompleted⟩ := h.open_eq hc
    rw [hopen]
    exact .inr (runPending_spec hmakes hruns (ExperimentPlan.nodup_runIds x.sha256 hplan)
      ⟨hfile, h.entered, hcompleted⟩)

end Invocations

end V2xw.Experiment
