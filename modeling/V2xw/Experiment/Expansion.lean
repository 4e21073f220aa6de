import Mathlib.Data.List.Sort
import V2xw.Experiment.Plan

/-!
# What a plan lists

The cells of a plan are the readings of an odometer with a wheel for each axis. So each choice of
values is one cell, and the cells ascend. The ids of the runs differ: their numbers can be read back
from them.

## Main results

* `Experiment.runId_injective` — an id determines its numbers.
* `Experiment.ExperimentPlan.eq_build_of_expand` — what the plan of a scenario is.
* `Experiment.ExperimentPlan.picks_cellValues` — the values of a cell.
* `Experiment.ExperimentPlan.nodup_runIds` — the ids of a plan differ.
-/

namespace V2xw.Experiment

/-! ## Run ids -/

lemma isDigit_padded (width n : ℕ) : ∀ c ∈ padded 10 width n, c.isDigit = true := by
  intro c hc
  rw [padded, List.leftpad] at hc
  obtain hc | hc := List.mem_append.1 hc
  · rw [List.eq_of_mem_replicate hc]
    rfl
  · exact Nat.isDigit_of_mem_toDigits (by decide) (by decide) hc

lemma ofDigitChars_padded (width n : ℕ) : Nat.ofDigitChars 10 (padded 10 width n) 0 = n := by
  rw [padded, List.leftpad, Nat.ofDigitChars_append, Nat.ofDigitChars_replicate_zero, mul_zero,
    Nat.ofDigitChars_toDigits (by decide) (by decide)]

/-- A number can be told from the text it starts, if no digit follows. -/
lemma padded_append_inj {width n m : ℕ} {s t : List Char} (hs : ∀ c ∈ s.head?, c.isDigit = false)
    (ht : ∀ c ∈ t.head?, c.isDigit = false) (h : padded 10 width n ++ s = padded 10 width m ++ t) :
    n = m ∧ s = t := by
  have hread {s : List Char} (hs : ∀ c ∈ s.head?, c.isDigit = false) (n : ℕ) :
      (padded 10 width n ++ s).takeWhile Char.isDigit = padded 10 width n ∧
        (padded 10 width n ++ s).dropWhile Char.isDigit = s := by
    rw [List.takeWhile_append_of_pos (isDigit_padded width n),
      List.dropWhile_append_of_pos (isDigit_padded width n)]
    cases s with
    | nil => exact ⟨List.append_nil _, rfl⟩
    | cons c s =>
      have hc : ¬ c.isDigit = true := Bool.not_eq_true _ ▸ hs c rfl
      rw [List.takeWhile_cons_of_neg hc, List.dropWhile_cons_of_neg hc]
      exact ⟨List.append_nil _, rfl⟩
  obtain ⟨hn, hsn⟩ := hread hs n
  obtain ⟨hm, htm⟩ := hread ht m
  rw [h] at hn hsn
  refine ⟨?_, hsn.symm.trans htm⟩
  rw [← ofDigitChars_padded width n, hn.symm.trans hm, ofDigitChars_padded]

/-- An id determines its numbers. -/
lemma runId_injective {cell slot replication cell' slot' replication' : ℕ}
    (h : runId cell slot replication = runId cell' slot' replication') :
    cell = cell' ∧ slot = slot' ∧ replication = replication' := by
  have hdash (s : List Char) : ∀ c ∈ ('-' :: s).head?, c.isDigit = false := by
    rintro c ⟨⟩
    rfl
  have hnil : ∀ c ∈ ([] : List Char).head?, c.isDigit = false := nofun
  have hlist := (List.cons.inj (String.ofList_injective h)).2
  obtain ⟨hcell, hrest⟩ := padded_append_inj (hdash _) (hdash _) hlist
  obtain ⟨hslot, hrest⟩ := padded_append_inj (hdash _) (hdash _)
    (List.cons.inj (List.cons.inj hrest).2).2
  have hlast := (List.cons.inj (List.cons.inj hrest).2).2
  rw [← List.append_nil (padded 10 3 replication),
    ← List.append_nil (padded 10 3 replication')] at hlast
  exact ⟨hcell, hslot, (padded_append_inj hnil hnil hlast).1⟩

namespace ExperimentPlan

/-! ## Cells -/

/-- The lengths of the axes. -/
def lengths (axes : List (String × List Json)) : List ℕ := axes.map fun axis => axis.2.length

@[simp] lemma lengths_cons (axis : String × List Json) (axes : List (String × List Json)) :
    lengths (axis :: axes) = axis.2.length :: lengths axes := rfl

/-- The values of a cell are those that some choice picks: the key of each axis finds the value at
the position chosen on it. -/
def Picks (axes : List (String × List Json)) (picks : List ℕ) (values : OrdMap String Json) : Prop :=
  values.keys = axes.map Prod.fst ∧
    List.Forall₂ (fun pick axis => values[axis.1]? = axis.2[pick]?) picks axes

lemma fst_cellValues (axes : List (String × List Json)) (index : ℕ) :
    (axes.foldr
      (fun axis acc =>
        let pick := acc.1 % axis.2.length
        (acc.1 / axis.2.length, acc.2.insert axis.1 (axis.2.getD pick .null)))
      (index, (∅ : OrdMap String Json))).1 = index / (lengths axes).prod := by
  induction axes with
  | nil => exact (Nat.div_one index).symm
  | cons axis axes ih =>
    rw [List.foldr_cons]
    dsimp only
    rw [ih, lengths_cons, List.prod_cons, Nat.div_div_eq_div_mul, mul_comm]

lemma cellValues_cons (axis : String × List Json) (axes : List (String × List Json)) (index : ℕ) :
    cellValues (axis :: axes) index = (cellValues axes index).insert axis.1
      (axis.2.getD (index / (lengths axes).prod % axis.2.length) .null) := by
  rw [← fst_cellValues]
  rfl

lemma mem_keys_cellValues (axes : List (String × List Json)) (index : ℕ) (path : String) :
    path ∈ (cellValues axes index).keys ↔ path ∈ axes.map Prod.fst := by
  rw [OrdMap.mem_keys, ← Option.isSome_iff_exists]
  induction axes with
  | nil =>
    rw [show (cellValues [] index)[path]? = none from Std.ExtTreeMap.getElem?_empty]
    exact iff_of_false nofun List.not_mem_nil
  | cons axis axes ih =>
    rw [cellValues_cons, OrdMap.get_insert, List.map_cons, List.mem_cons]
    split_ifs with hpath
    · exact iff_of_true rfl (.inl hpath.symm)
    · rw [ih]
      exact ⟨.inr, fun h => h.resolve_left fun h => hpath h.symm⟩

/-- The values of the cell with a number are those its digits choose. -/
lemma forall₂_cellValues {axes : List (String × List Json)}
    (hkeys : axes.Pairwise fun a b => a.1 ≠ b.1) (hne : ∀ axis ∈ axes, axis.2 ≠ []) (index : ℕ) :
    List.Forall₂ (fun pick axis => (cellValues axes index)[axis.1]? = axis.2[pick]?)
      (Odometer.digits (lengths axes) index) axes := by
  induction axes with
  | nil => exact .nil
  | cons axis axes ih =>
    obtain ⟨hfirst, hkeys⟩ := List.pairwise_cons.1 hkeys
    obtain ⟨hcolumn, hne⟩ := List.forall_mem_cons.1 hne
    rw [lengths_cons, Odometer.digits_cons, cellValues_cons]
    refine .cons ?_ ?_
    · have hpick : index / (lengths axes).prod % axis.2.length < axis.2.length :=
        Nat.mod_lt _ (List.length_pos_iff.2 hcolumn)
      rw [OrdMap.get_insert, if_pos rfl, List.getD_eq_getElem?_getD, List.getElem?_eq_getElem hpick]
      rfl
    · -- the keys of the axes behind are not that of the first
      refine (List.forall₂_iff_get.1 (ih hkeys hne)).elim fun hlength hget => ?_
      refine List.forall₂_iff_get.2 ⟨hlength, fun i h₁ h₂ => ?_⟩
      rw [OrdMap.get_insert, if_neg (hfirst _ (List.get_mem _ _))]
      exact hget i h₁ h₂

lemma picks_cellValues {sweep : OrdMap String (List Json)}
    (hne : ∀ axis ∈ sweep.toList, axis.2 ≠ []) (index : ℕ) :
    Picks sweep.toList (Odometer.digits (lengths sweep.toList) index)
      (cellValues sweep.toList index) := by
  refine ⟨?_, forall₂_cellValues sweep.pairwise_toList hne index⟩
  refine (OrdMap.pairwise_keys _).eq_of_mem_iff ?_ fun path => mem_keys_cellValues _ _ path
  rw [Std.ExtTreeMap.map_fst_toList_eq_keys]
  exact sweep.pairwise_keys

/-! ## Plans -/

section Hashed

variable (sha256 : List UInt8 → List UInt8)

lemma cellCount_eq_ok {axes : List (String × List Json)} {total : ℕ}
    (h : cellCount axes = .ok total) : total = (lengths axes).prod := by
  have hfold : ∀ (axes : List (String × List Json)) (start : Except ExperimentError ℕ) (total : ℕ),
      axes.foldl
        (fun r axis => r.bind fun total =>
          if total * axis.2.length < 2 ^ 64 then .ok (total * axis.2.length)
          else .error (.sweepTooLarge axis.1))
        start = .ok total → ∃ n, start = .ok n ∧ total = n * (lengths axes).prod := by
    intro axes
    induction axes with
    | nil =>
      intro start total h
      exact ⟨total, h, (Nat.mul_one total).symm⟩
    | cons axis axes ih =>
      intro start total h
      obtain ⟨n, hn, htotal⟩ := ih _ _ h
      cases start with
      | error e => cases hn
      | ok m =>
        dsimp only [Except.bind] at hn
        split_ifs at hn
        cases hn
        refine ⟨m, rfl, ?_⟩
        rw [htotal, lengths_cons, List.prod_cons, mul_assoc]
  obtain ⟨n, hn, htotal⟩ := hfold axes (.ok 1) total (by
    rw [← h, cellCount]
    congr 1
    funext r axis
    cases r <;> rfl)
  cases hn
  rw [htotal, one_mul]

/-- What the plan of a scenario is: no axis is empty, and there is a cell for each reading. -/
lemma eq_build_of_expand {ρ : Type} {base : Scenario ρ} {plan : ExperimentPlan}
    (h : expand sha256 base = .ok plan) : ∃ block, base.experiment = some block ∧
      (∀ axis ∈ block.sweep.toList, axis.2 ≠ []) ∧
      plan = build sha256 base block (lengths block.sweep.toList).prod := by
  unfold expand at h
  split at h
  case h_1 => cases h
  case h_2 block hblock =>
    split at h
    case h_1 => cases h
    case h_2 hfind =>
      split at h
      case h_1 => cases h
      case h_2 total htotal =>
        cases h
        refine ⟨block, hblock, fun axis haxis hnil => ?_, ?_⟩
        · have hempty := List.find?_eq_none.1 hfind axis haxis
          rw [hnil] at hempty
          exact hempty rfl
        · rw [cellCount_eq_ok htotal]

/-- The runs of cells with different numbers have different ids. -/
lemma nodup_runsOf (masterSeed : UInt64) {cells : List CellKey} (seedSlots : List UInt64)
    (replications : ℕ) (hcells : cells.Pairwise fun a b => a.index ≠ b.index) :
    ((runsOf sha256 masterSeed cells seedSlots replications).map PlannedRun.runId).Nodup := by
  rw [List.Nodup, List.pairwise_map, runsOf, List.pairwise_flatMap]
  constructor
  · intro cell _
    rw [List.pairwise_flatMap]
    constructor
    · rintro ⟨declared, slot⟩ _
      rw [List.pairwise_map]
      exact List.pairwise_lt_range.imp fun hlt heq => hlt.ne (runId_injective heq).2.2
    · -- the slots are numbered, so their numbers differ
      have hslots : (seedSlots.zipIdx.map Prod.snd).Nodup := by
        rw [List.zipIdx_map_snd]
        exact List.nodup_range'
      refine (List.pairwise_map.1 hslots).imp ?_
      rintro ⟨declared, slot⟩ ⟨declared', slot'⟩ hne x hx y hy heq
      obtain ⟨_, _, rfl⟩ := List.mem_map.1 hx
      obtain ⟨_, _, rfl⟩ := List.mem_map.1 hy
      exact hne (runId_injective heq).2.1
  · refine hcells.imp ?_
    intro cell cell' hne x hx y hy heq
    obtain ⟨⟨_, _⟩, _, hx⟩ := List.mem_flatMap.1 hx
    obtain ⟨⟨_, _⟩, _, hy⟩ := List.mem_flatMap.1 hy
    obtain ⟨_, _, rfl⟩ := List.mem_map.1 hx
    obtain ⟨_, _, rfl⟩ := List.mem_map.1 hy
    exact hne (runId_injective heq).1

lemma nodup_runIds {ρ : Type} {base : Scenario ρ} {plan : ExperimentPlan}
    (h : expand sha256 base = .ok plan) : (plan.runs.map PlannedRun.runId).Nodup := by
  obtain ⟨block, _, _, rfl⟩ := eq_build_of_expand sha256 h
  refine nodup_runsOf sha256 base.seed _ _ ?_
  rw [List.pairwise_map]
  exact List.pairwise_lt_range.imp fun hlt => hlt.ne

end Hashed

end ExperimentPlan

end V2xw.Experiment
