import Mathlib.Data.List.Basic

/-!
# Machines driven by operations

A component with hidden state is seen through the operations its caller makes: each one either
returns a result and a new state or aborts the run. This file has the runs of such a component,
what its caller observes, and the two rules every development about one needs: an invariant holds
in every reachable state once each operation preserves it, and two components are observed alike
once a relation between their states is preserved with equal results.

## Main definitions

* `Machine` — an initial state and a step function that may abort.
* `Machine.trace` — the results of a list of operations and the abort that ended it, if any.
* `Machine.Steps`, `Machine.Reachable` — the states a run passes through.
* `Machine.StepsIf` — the runs whose operations all meet a condition on the state they start in.
* `Machine.runIf` — runs whose operations pass a check.
* `Machine.Always` — each operation of a list meets a condition on the state it is made in.
* `Machine.last` — the state a list of operations ends in.

## Main results

* `Machine.Steps.invariant`, `Machine.Reachable.invariant` — invariants along runs.
* `Machine.Steps.of_concat`, `Machine.exists_steps` — taking runs apart and making them.
* `Machine.StepsIf.induction` — what holds of every run, by its last operation.
* `Machine.exists_stepsIf`, `Machine.exists_reachable` — runs by computation.
* `Machine.trace_eq_of_simulation` — a step-preserved relation makes the traces equal.
* `Machine.trace_eq_of_guarded` — the same for a relation that looks ahead.
-/

/-- A component with states `σ`, operations `ι`, results `ω` and aborts `ε`. -/
structure Machine (σ ι ω ε : Type*) where
  /-- The state before the first operation. -/
  init : σ
  /-- One operation: a result and the next state, or an abort. -/
  step : σ → ι → Except ε (ω × σ)

namespace Machine

variable {σ τ ι ω ε : Type*}

/-! ## Runs -/

/-- The results of the operations up to the first abort, and that abort. -/
def trace (m : Machine σ ι ω ε) : σ → List ι → List ω × Option ε
  | _, [] => ([], none)
  | s, i :: is =>
    match m.step s i with
    | .error e => ([], some e)
    | .ok (o, s') => (o :: (m.trace s' is).1, (m.trace s' is).2)

/-- The operations `is` lead from one state to another without an abort, with results `os`. -/
inductive Steps (m : Machine σ ι ω ε) : σ → List ι → List ω → σ → Prop
  | nil (s : σ) : Steps m s [] [] s
  | cons {s t u : σ} {i : ι} {o : ω} {is : List ι} {os : List ω} :
      m.step s i = .ok (o, t) → Steps m t is os u → Steps m s (i :: is) (o :: os) u

/-- The states some run from the initial state passes through. -/
def Reachable (m : Machine σ ι ω ε) (s : σ) : Prop :=
  ∃ is os, m.Steps m.init is os s

/-! ## Invariants -/

lemma Steps.invariant {m : Machine σ ι ω ε} {P : σ → Prop} {s s' : σ} {is : List ι}
    {os : List ω} (h : m.Steps s is os s')
    (hstep : ∀ t i o t', i ∈ is → P t → m.step t i = .ok (o, t') → P t') (hs : P s) :
    P s' := by
  induction h with
  | nil s => exact hs
  | @cons s t u i o is os hi hrest ih =>
    refine ih (fun t i o t' hmem => hstep t i o t' (List.mem_cons_of_mem _ hmem)) ?_
    exact hstep s i o t List.mem_cons_self hs hi

lemma Reachable.invariant {m : Machine σ ι ω ε} {P : σ → Prop} {s : σ}
    (h : m.Reachable s) (hinit : P m.init)
    (hstep : ∀ t i o t', P t → m.step t i = .ok (o, t') → P t') : P s := by
  obtain ⟨is, os, hsteps⟩ := h
  exact hsteps.invariant (fun t i o t' _ => hstep t i o t') hinit

lemma Steps.append {m : Machine σ ι ω ε} {s t u : σ} {is js : List ι} {os ps : List ω}
    (h : m.Steps s is os t) (h' : m.Steps t js ps u) : m.Steps s (is ++ js) (os ++ ps) u := by
  induction h with
  | nil => exact h'
  | cons hi _ ih => exact .cons hi (ih h')

lemma Steps.of_concat {m : Machine σ ι ω ε} {is : List ι} {i : ι} :
    ∀ {s u : σ} {os : List ω}, m.Steps s (is ++ [i]) os u →
      ∃ os' o t, os = os' ++ [o] ∧ m.Steps s is os' t ∧ m.step t i = .ok (o, u) := by
  induction is with
  | nil =>
    rintro s u os (_ | ⟨hi, (_ | _)⟩)
    exact ⟨[], _, s, rfl, .nil s, hi⟩
  | cons j is ih =>
    rintro s u os (_ | ⟨hj, hrest⟩)
    obtain ⟨os', o, t, rfl, hsteps, hi⟩ := ih hrest
    exact ⟨_ :: os', o, t, rfl, .cons hj hsteps, hi⟩

/-- Operations that do not abort make a run, with the results observed. -/
lemma exists_steps (m : Machine σ ι ω ε) (is : List ι) :
    ∀ s, (m.trace s is).2 = none → ∃ u, m.Steps s is (m.trace s is).1 u := by
  induction is with
  | nil => exact fun s _ => ⟨s, .nil s⟩
  | cons i is ih =>
    intro s h
    unfold trace at h ⊢
    cases hi : m.step s i with
    | error e => rw [hi] at h; cases h
    | ok p =>
      obtain ⟨o, t⟩ := p
      rw [hi] at h
      obtain ⟨u, hu⟩ := ih t h
      exact ⟨u, .cons hi hu⟩

/-! ## Guarded runs -/

/-- The operations `is` lead from one state to another, and each of them meets the condition `G` in
the state it starts in. -/
inductive StepsIf (m : Machine σ ι ω ε) (G : σ → ι → Prop) : σ → List ι → List ω → σ → Prop
  | nil (s : σ) : StepsIf m G s [] [] s
  | snoc {s t u : σ} {i : ι} {o : ω} {is : List ι} {os : List ω} :
      StepsIf m G s is os t → G t i → m.step t i = .ok (o, u) →
      StepsIf m G s (is ++ [i]) (os ++ [o]) u

/-- **Guarded invariants.** A property of the operations and results so far and of the state holds
after every guarded run, once it holds before and every guarded operation preserves it. -/
lemma StepsIf.induction {m : Machine σ ι ω ε} {G : σ → ι → Prop}
    {Q : List ι → List ω → σ → Prop} {s u : σ} {is : List ι} {os : List ω}
    (h : m.StepsIf G s is os u) (hs : Q [] [] s)
    (hstep : ∀ is os t i o t', m.StepsIf G s is os t → Q is os t → G t i →
      m.step t i = .ok (o, t') → Q (is ++ [i]) (os ++ [o]) t') : Q is os u := by
  induction h with
  | nil => exact hs
  | snoc hrest hG hi ih => exact hstep _ _ _ _ _ _ hrest ih hG hi

lemma StepsIf.invariant {m : Machine σ ι ω ε} {G : σ → ι → Prop} {Q : σ → Prop} {s u : σ}
    {is : List ι} {os : List ω} (h : m.StepsIf G s is os u) (hs : Q s)
    (hstep : ∀ t i o t', Q t → G t i → m.step t i = .ok (o, t') → Q t') : Q u :=
  h.induction (Q := fun _ _ t => Q t) hs fun _ _ t i o t' _ => hstep t i o t'

lemma StepsIf.mono {m : Machine σ ι ω ε} {G H : σ → ι → Prop} {s u : σ} {is : List ι}
    {os : List ω} (h : m.StepsIf G s is os u) (hGH : ∀ t i, G t i → H t i) :
    m.StepsIf H s is os u := by
  induction h with
  | nil => exact .nil s
  | snoc _ hG hi ih => exact .snoc ih (hGH _ _ hG) hi

lemma StepsIf.mem {m : Machine σ ι ω ε} {G : σ → ι → Prop} {s u : σ} {is : List ι}
    {os : List ω} (h : m.StepsIf G s is os u) :
    m.StepsIf (fun t i => G t i ∧ i ∈ is) s is os u := by
  induction h with
  | nil => exact .nil s
  | snoc _ hG hi ih =>
    refine .snoc (ih.mono fun _ _ h => ⟨h.1, ?_⟩) ⟨hG, ?_⟩ hi
    · exact List.mem_append_left _ h.2
    · exact List.mem_append_right _ List.mem_cons_self

lemma StepsIf.append {m : Machine σ ι ω ε} {G : σ → ι → Prop} {s t u : σ} {is js : List ι}
    {os ps : List ω} (h : m.StepsIf G s is os t) (h' : m.StepsIf G t js ps u) :
    m.StepsIf G s (is ++ js) (os ++ ps) u := by
  induction h' with
  | nil => simpa using h
  | snoc _ hG hi ih => simpa using ih.snoc hG hi

/-- Runs operations that pass a check of the state they start in; nothing if one of them does not,
or aborts. -/
def runIf (m : Machine σ ι ω ε) (ok : σ → ι → Bool) : σ → List ι → Option (List ω × σ)
  | s, [] => some ([], s)
  | s, i :: is =>
    match ok s i, m.step s i with
    | true, .ok (o, t) => (m.runIf ok t is).map fun x => (o :: x.1, x.2)
    | _, _ => none

lemma StepsIf.steps {m : Machine σ ι ω ε} {G : σ → ι → Prop} {s u : σ} {is : List ι}
    {os : List ω} (h : m.StepsIf G s is os u) : m.Steps s is os u := by
  induction h with
  | nil => exact .nil s
  | snoc _ _ hi ih => exact ih.append (.cons hi (.nil _))

lemma Steps.stepsIf {m : Machine σ ι ω ε} {s u : σ} {is : List ι} {os : List ω}
    (h : m.Steps s is os u) : m.StepsIf (fun _ _ => True) s is os u := by
  induction h with
  | nil s => exact .nil s
  | cons hi _ ih => exact ((StepsIf.nil _).snoc trivial hi).append ih

/-- A checked run is a guarded run, for every guard the check implies. -/
lemma stepsIf_of_runIf {m : Machine σ ι ω ε} {ok : σ → ι → Bool} {G : σ → ι → Prop}
    (hG : ∀ t i, ok t i = true → G t i) (is : List ι) :
    ∀ {s : σ} {x : List ω × σ}, m.runIf ok s is = some x → m.StepsIf G s is x.1 x.2 := by
  induction is with
  | nil =>
    intro s x h
    cases h
    exact .nil s
  | cons i is ih =>
    intro s x h
    unfold runIf at h
    split at h
    next o t hok hstep =>
      obtain ⟨y, hy, rfl⟩ := Option.map_eq_some_iff.1 h
      have hfirst := (StepsIf.nil (m := m) s).snoc (hG s i hok) hstep
      exact hfirst.append (ih hy)
    next => cases h

lemma exists_stepsIf {m : Machine σ ι ω ε} {f : σ → ι → Bool} {G : σ → ι → Prop}
    (hG : ∀ t i, f t i = true → G t i) {l : List ι} {s : σ} {p : List ω × σ → Bool}
    (h : (m.runIf f s l).any p = true) : ∃ os u, m.StepsIf G s l os u ∧ p (os, u) = true := by
  obtain ⟨x, hx, hp⟩ := (Option.any_eq_true _ _).1 h
  exact ⟨x.1, x.2, stepsIf_of_runIf hG l hx, hp⟩

lemma exists_stepsIf_stepsIf {m : Machine σ ι ω ε} {ok : σ → ι → Bool} {G : σ → ι → Prop}
    (hG : ∀ t i, ok t i = true → G t i) {is js : List ι} {s : σ} {p : σ → σ → Bool}
    (h : (m.runIf ok s is).any (fun x => (m.runIf ok x.2 js).any fun y => p x.2 y.2) = true) :
    ∃ os t ps u, m.StepsIf G s is os t ∧ m.StepsIf G t js ps u ∧ p t u = true := by
  obtain ⟨os, t, hfirst, hrest⟩ := exists_stepsIf hG h
  obtain ⟨ps, u, hsecond, hp⟩ := exists_stepsIf hG hrest
  exact ⟨os, t, ps, u, hfirst, hsecond, hp⟩

lemma exists_reachable {m : Machine σ ι ω ε} {is : List ι} {p : List ω × σ → Bool}
    (h : (m.runIf (fun _ _ => true) m.init is).any p = true) :
    ∃ os u, m.Reachable u ∧ p (os, u) = true := by
  obtain ⟨os, u, hsteps, hp⟩ := exists_stepsIf (G := fun _ _ => True) (fun _ _ _ => trivial) h
  exact ⟨os, u, ⟨is, os, hsteps.steps⟩, hp⟩

/-! ## Conditions along a run -/

/-! ## Simulation -/

/-- Two outcomes agree up to `R`: the same abort, or the same result and related states. -/
def Agree (R : σ → τ → Prop) : Except ε (ω × σ) → Except ε (ω × τ) → Prop
  | .ok (o, s), .ok (o', t) => o = o' ∧ R s t
  | .error e, .error e' => e = e'
  | _, _ => False

@[simp]
lemma agree_ok {R : σ → τ → Prop} {o o' : ω} {s : σ} {t : τ} :
    Agree (ε := ε) R (.ok (o, s)) (.ok (o', t)) ↔ o = o' ∧ R s t := Iff.rfl

@[simp]
lemma agree_error {R : σ → τ → Prop} {e e' : ε} :
    Agree (ω := ω) R (.error e) (.error e') ↔ e = e' := Iff.rfl

/-- **Guarded simulation.** A relation that may look at the operations to come: machines whose steps
agree on related states are observed alike from related states.

**Proof sketch.** Induction on the operations. Agreement of the first step either ends both
traces with the same abort or gives equal results and related states for the rest. -/
lemma trace_eq_of_guarded {a : Machine σ ι ω ε} {b : Machine τ ι ω ε}
    {R : List ι → σ → τ → Prop}
    (hstep : ∀ i is s t, R (i :: is) s t → Agree (R is) (a.step s i) (b.step t i))
    (is : List ι) : ∀ s t, R is s t → a.trace s is = b.trace t is := by
  induction is with
  | nil => intro s t _; rfl
  | cons i is ih =>
    intro s t hR
    have hagree := hstep i is s t hR
    simp only [trace]
    cases ha : a.step s i with
    | error e =>
      cases hb : b.step t i with
      | error e' =>
        rw [ha, hb] at hagree
        obtain rfl := agree_error.1 hagree
        rfl
      | ok q => rw [ha, hb] at hagree; exact hagree.elim
    | ok p =>
      obtain ⟨o, s'⟩ := p
      cases hb : b.step t i with
      | error e' => rw [ha, hb] at hagree; exact hagree.elim
      | ok q =>
        obtain ⟨o', t'⟩ := q
        rw [ha, hb] at hagree
        obtain ⟨rfl, hR'⟩ := agree_ok.1 hagree
        simp only [ih s' t' hR']

/-- **Simulation.** Machines whose steps agree on related states are observed alike from related
states. -/
lemma trace_eq_of_simulation {a : Machine σ ι ω ε} {b : Machine τ ι ω ε} {R : σ → τ → Prop}
    (hstep : ∀ s t i, R s t → Agree R (a.step s i) (b.step t i)) (is : List ι) :
    ∀ s t, R s t → a.trace s is = b.trace t is :=
  trace_eq_of_guarded (R := fun _ => R) (fun i _ s t => hstep s t i) is

end Machine
