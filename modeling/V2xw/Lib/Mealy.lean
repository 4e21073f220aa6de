import Mathlib.Data.List.Induction
import Mathlib.Logic.Function.Basic
import Mathlib.Order.Defs.PartialOrder

/-!
# Transducers

A component whose operations always succeed is a function from a state and an input to an output
and a state. This file has its runs, the invariants of its runs, and the rule for an output that a
run produces at most once.

## Main definitions

* `Mealy.run` — the state after a list of inputs.
* `Mealy.outputs` — the output to each of a list of inputs.
* `Mealy.Always` — each input of a list meets a condition on the state it finds.
* `Mealy.heard` — the outputs to the inputs of a list that are not marked as extra.
* `Mealy.family` — a machine for each key, and each input goes to one of them.
* `Mealy.log` — what an observer keeps of the inputs and outputs of a run.

## Main results

* `Mealy.run_concat`, `Mealy.outputs_concat` — the last input of a run.
* `Mealy.run_induction`, `Mealy.Always.invariant` — invariants along runs, of all inputs and of
  those that meet a condition.
* `Mealy.heard_eq` — extra inputs that a relation absorbs are not heard.
* `Mealy.outputs_eq_of_simulation` — machines that keep a relation have equal outputs.
* `Mealy.run_family`, `Mealy.zip_outputs_family`, `Mealy.log_family`, `Mealy.Always.of_family` — a
  run of a family is a run of each of its machines.
* `Mealy.log_induction` — invariants of the inputs so far, the state and what the observer keeps.
* `Mealy.count_outputs_le_one` — what is output only until a lasting condition holds, and makes it
  hold, is output once.
-/

namespace Mealy

variable {σ ι ω α : Type*}

/-- The state after a list of inputs. -/
def run (step : σ → ι → ω × σ) (s : σ) (is : List ι) : σ := is.foldl (fun s i => (step s i).2) s

/-- The output to each of a list of inputs. -/
def outputs (step : σ → ι → ω × σ) : σ → List ι → List ω
  | _, [] => []
  | s, i :: is => (step s i).1 :: outputs step (step s i).2 is

lemma length_outputs (step : σ → ι → ω × σ) (is : List ι) :
    ∀ s, (outputs step s is).length = is.length := by
  induction is with
  | nil => exact fun s => rfl
  | cons i is ih => exact fun s => congrArg (· + 1) (ih _)

lemma run_append (step : σ → ι → ω × σ) (s : σ) (is js : List ι) :
    run step s (is ++ js) = run step (run step s is) js :=
  List.foldl_append

lemma run_concat (step : σ → ι → ω × σ) (s : σ) (is : List ι) (i : ι) :
    run step s (is ++ [i]) = (step (run step s is) i).2 :=
  run_append step s is [i]

lemma outputs_append (step : σ → ι → ω × σ) (is js : List ι) :
    ∀ s, outputs step s (is ++ js) = outputs step s is ++ outputs step (run step s is) js := by
  induction is with
  | nil => exact fun s => rfl
  | cons i is ih =>
    intro s
    rw [List.cons_append, outputs, ih, outputs, List.cons_append]
    rfl

lemma outputs_concat (step : σ → ι → ω × σ) (s : σ) (is : List ι) (i : ι) :
    outputs step s (is ++ [i]) = outputs step s is ++ [(step (run step s is) i).1] :=
  outputs_append step is [i] s

lemma forall_prefix {P : List ι → ι → Prop} {l : List ι} (d : ι)
    (h : ∀ n < l.length, P (l.take n) (l.getD n d)) : ∀ pre i, pre ++ [i] <+: l → P pre i := by
  rintro pre i ⟨post, rfl⟩
  have hlt : pre.length < (pre ++ [i] ++ post).length := by
    rw [List.append_assoc, List.length_append, List.length_append, List.length_singleton]
    omega
  have hpre := h pre.length hlt
  rwa [List.append_assoc, List.take_left' rfl, List.getD_eq_getElem?_getD,
    List.getElem?_append_right (Nat.le_refl _), Nat.sub_self] at hpre

/-- A relation that both machines keep, with equal outputs, gives equal outputs in all. -/
lemma outputs_eq_of_simulation {τ : Type*} {step : σ → ι → ω × σ} {step' : τ → ι → ω × τ}
    {R : σ → τ → Prop}
    (hstep : ∀ s t i, R s t → (step s i).1 = (step' t i).1 ∧ R (step s i).2 (step' t i).2)
    (is : List ι) : ∀ {s t}, R s t → outputs step s is = outputs step' t is ∧
      R (run step s is) (run step' t is) := by
  induction is with
  | nil => exact fun h => ⟨rfl, h⟩
  | cons i is ih =>
    intro s t h
    obtain ⟨hout, hnext⟩ := hstep s t i h
    obtain ⟨houts, hlast⟩ := ih hnext
    rw [outputs, outputs, hout, houts]
    exact ⟨rfl, hlast⟩

lemma run_induction {step : σ → ι → ω × σ} {P : σ → Prop} (hstep : ∀ s i, P s → P (step s i).2)
    {s : σ} (hs : P s) (is : List ι) : P (run step s is) := by
  induction is using List.reverseRecOn with
  | nil => exact hs
  | append_singleton is i ih =>
    rw [run_concat]
    exact hstep _ i ih

/-- An output made at most once per input, only before a lasting condition holds, and making it
hold, is made at most once in a run; and not at all from a state where the condition holds. -/
lemma count_outputs_le_one [BEq α] [LawfulBEq α] {step : σ → ι → List α × σ} {P Q : σ → Prop}
    {a : α} (hstep : ∀ s i, P s → P (step s i).2) (hlast : ∀ s i, P s → Q s → Q (step s i).2)
    (hone : ∀ s i, P s → (step s i).1.count a ≤ 1)
    (hout : ∀ s i, P s → a ∈ (step s i).1 → ¬ Q s ∧ Q (step s i).2) (is : List ι) :
    ∀ s, P s → (outputs step s is).flatten.count a ≤ 1 ∧
      (Q s → (outputs step s is).flatten.count a = 0) := by
  induction is with
  | nil => exact fun s _ => ⟨Nat.zero_le _, fun _ => rfl⟩
  | cons i is ih =>
    intro s hs
    obtain ⟨hle, hzero⟩ := ih (step s i).2 (hstep s i hs)
    rw [outputs, List.flatten_cons, List.count_append]
    by_cases hin : a ∈ (step s i).1
    · obtain ⟨hno, hyes⟩ := hout s i hs hin
      rw [hzero hyes]
      exact ⟨hone s i hs, fun h => absurd h hno⟩
    · rw [List.count_eq_zero_of_not_mem hin, Nat.zero_add]
      exact ⟨hle, fun h => hzero (hlast s i hs h)⟩

/-- Each input meets a condition on the state it finds. -/
def Always (step : σ → ι → ω × σ) (G : σ → ι → Prop) : σ → List ι → Prop
  | _, [] => True
  | s, i :: is => G s i ∧ Always step G (step s i).2 is

instance decidableAlways (step : σ → ι → ω × σ) (G : σ → ι → Prop) [∀ s i, Decidable (G s i)] :
    ∀ s is, Decidable (Always step G s is)
  | _, [] => inferInstanceAs (Decidable True)
  | s, i :: is =>
    haveI := decidableAlways step G (step s i).2 is
    inferInstanceAs (Decidable (G s i ∧ Always step G (step s i).2 is))

lemma Always.and {step : σ → ι → ω × σ} {G G' : σ → ι → Prop} (is : List ι) :
    ∀ s, Always step G s is → Always step G' s is → Always step (fun s i => G s i ∧ G' s i) s is := by
  induction is with
  | nil => exact fun _ _ _ => trivial
  | cons i is ih => exact fun s h h' => ⟨⟨h.1, h'.1⟩, ih _ h.2 h'.2⟩

lemma Always.invariant {step : σ → ι → ω × σ} {G : σ → ι → Prop} {P : σ → Prop}
    (hstep : ∀ s i, G s i → P s → P (step s i).2) (is : List ι) :
    ∀ s, Always step G s is → P s → P (run step s is) := by
  induction is with
  | nil => exact fun s _ hs => hs
  | cons i is ih => exact fun s h hs => ih _ h.2 (hstep s i h.1 hs)

/-- The inputs of a list, without those marked as extra. -/
def kept (marked : List (Bool × ι)) : List ι := (marked.filter fun m => !m.1).map Prod.snd

lemma kept_cons_false (i : ι) (marked : List (Bool × ι)) :
    kept ((false, i) :: marked) = i :: kept marked :=
  rfl

lemma kept_cons_true (i : ι) (marked : List (Bool × ι)) :
    kept ((true, i) :: marked) = kept marked :=
  rfl

lemma kept_append (marked marked' : List (Bool × ι)) :
    kept (marked ++ marked') = kept marked ++ kept marked' := by
  rw [kept, List.filter_append, List.map_append]
  rfl

/-- The outputs to the inputs of a list that are not marked as extra. -/
def heard (step : σ → ι → ω × σ) : σ → List (Bool × ι) → List ω
  | _, [] => []
  | s, m :: ms =>
    if m.1 then heard step (step s m.2).2 ms else (step s m.2).1 :: heard step (step s m.2).2 ms

/-- **Extra inputs are not heard.** Two runs on inputs that come in the order of a clock, one with
extra inputs: a relation that both keep together on every other input, with equal outputs, and that
the second keeps alone on every extra one, gives equal outputs in all. -/
lemma heard_eq {τ : Type*} [Preorder τ] {step : σ → ι → ω × σ} (clock : ι → τ)
    {R : τ → σ → σ → Prop} {G E Q : σ → ι → Prop}
    (hkept : ∀ t i s s', t ≤ clock i → R t s s' → G s i →
      (step s' i).1 = (step s i).1 ∧ R (clock i) (step s i).2 (step s' i).2 ∧ Q s' i)
    (hextra : ∀ t i s s', t ≤ clock i → R t s s' → E s' i → R (clock i) s (step s' i).2 ∧ Q s' i)
    (marked : List (Bool × ι)) :
    ∀ t s s', R t s s' → (∀ m ∈ marked, t ≤ clock m.2) →
      (marked.Pairwise fun m m' => clock m.2 ≤ clock m'.2) → Always step G s (kept marked) →
      Always (fun s m => step s m.2) (fun s m => m.1 = true → E s m.2) s' marked →
      heard step s' marked = outputs step s (kept marked) ∧
        Always step Q s' (marked.map Prod.snd) := by
  induction marked with
  | nil => exact fun t s s' _ _ _ _ _ => ⟨rfl, trivial⟩
  | cons m marked ih =>
    intro t s s' hR hle hsorted hG hE
    obtain ⟨extra, i⟩ := m
    rw [List.pairwise_cons] at hsorted
    obtain ⟨hfirst, hsorted⟩ := hsorted
    have hti := hle _ (List.mem_cons_self ..)
    cases extra with
    | true =>
      obtain ⟨hR', hQ⟩ := hextra t i s s' hti hR (hE.1 rfl)
      obtain ⟨hheard, hrest⟩ := ih (clock i) s _ hR' hfirst hsorted hG hE.2
      exact ⟨hheard, hQ, hrest⟩
    | false =>
      obtain ⟨hout, hR', hQ⟩ := hkept t i s s' hti hR hG.1
      obtain ⟨hheard, hrest⟩ := ih (clock i) _ _ hR' hfirst hsorted hG.2 hE.2
      refine ⟨?_, hQ, hrest⟩
      rw [heard, if_neg Bool.false_ne_true, hout, hheard]
      rfl

/-! ## Families -/

section Family

variable {κ : Type*} [DecidableEq κ] (key : ι → κ) (step : κ → σ → ι → ω × σ)

/-- A machine for each key. An input goes to the machine of its key. -/
def family (s : κ → σ) (i : ι) : ω × (κ → σ) :=
  ((step (key i) (s (key i)) i).1, Function.update s (key i) (step (key i) (s (key i)) i).2)

lemma family_self (s : κ → σ) (i : ι) :
    (family key step s i).2 (key i) = (step (key i) (s (key i)) i).2 := by
  simp only [family, Function.update_self]

lemma family_of_ne (s : κ → σ) {i : ι} {k : κ} (h : key i ≠ k) :
    (family key step s i).2 k = s k := by
  simp only [family, Function.update_of_ne (Ne.symm h)]

/-- The inputs of a key. -/
def inputsOf (k : κ) (is : List ι) : List ι := is.filter fun i => decide (key i = k)

/-- A run of a family is a run of each machine on its inputs. -/
lemma run_family (k : κ) (is : List ι) :
    ∀ s, run (family key step) s is k = run (step k) (s k) (inputsOf key k is) := by
  induction is with
  | nil => exact fun s => rfl
  | cons i is ih =>
    intro s
    by_cases h : key i = k
    · subst h
      have := ih (family key step s i).2
      rw [family_self] at this
      simpa only [inputsOf, List.filter_cons, decide_true, if_true, run, List.foldl_cons] using this
    · have := ih (family key step s i).2
      rw [family_of_ne key step s h] at this
      simpa only [inputsOf, List.filter_cons, decide_eq_true_eq, if_neg h, run, List.foldl_cons]
        using this

/-- What the inputs of a key come to in a run of a family is what they come to on its machine. -/
lemma zip_outputs_family (k : κ) (is : List ι) :
    ∀ s, (is.zip (outputs (family key step) s is)).filter (fun r => decide (key r.1 = k)) =
      (inputsOf key k is).zip (outputs (step k) (s k) (inputsOf key k is)) := by
  induction is with
  | nil => exact fun s => rfl
  | cons i is ih =>
    intro s
    rw [outputs, List.zip_cons_cons, List.filter_cons, ih]
    by_cases h : key i = k
    · subst h
      rw [family_self]
      simp only [inputsOf, List.filter_cons, decide_true, if_true]
      rfl
    · rw [family_of_ne key step s h]
      simp only [inputsOf, List.filter_cons, decide_eq_true_eq, if_neg h]

/-- A condition on the machine of each input holds of each machine on its inputs. -/
lemma Always.of_family {G : κ → σ → ι → Prop} (k : κ) (is : List ι) :
    ∀ s, Always (family key step) (fun s i => G (key i) (s (key i)) i) s is →
      Always (step k) (G k) (s k) (inputsOf key k is) := by
  induction is with
  | nil => exact fun s _ => trivial
  | cons i is ih =>
    intro s h
    have hrest := ih (family key step s i).2 h.2
    by_cases hk : key i = k
    · subst hk
      rw [family_self] at hrest
      simp only [inputsOf, List.filter_cons, decide_true, if_true]
      exact ⟨h.1, hrest⟩
    · rw [family_of_ne key step s hk] at hrest
      simpa only [inputsOf, List.filter_cons, decide_eq_true_eq, if_neg hk] using hrest

end Family

/-! ## Observers -/

/-- What an observer keeps of the inputs and outputs of a run. -/
def log (step : σ → ι → ω × σ) (note : α → ι → ω → α) : σ → α → List ι → α
  | _, a, [] => a
  | s, a, i :: is => log step note (step s i).2 (note a i (step s i).1) is

lemma log_append (step : σ → ι → ω × σ) (note : α → ι → ω → α) (is js : List ι) :
    ∀ s a, log step note s a (is ++ js) = log step note (run step s is) (log step note s a is) js := by
  induction is with
  | nil => exact fun s a => rfl
  | cons i is ih => exact fun s a => ih _ _

/-- An observer of one machine of a family sees a run of that machine. -/
lemma log_family {κ : Type*} [DecidableEq κ] (key : ι → κ) (step : κ → σ → ι → ω × σ)
    (note : α → ι → ω → α) (k : κ) (is : List ι) :
    ∀ s a, log (family key step) (fun a i o => if key i = k then note a i o else a) s a is =
      log (step k) note (s k) a (inputsOf key k is) := by
  induction is with
  | nil => exact fun s a => rfl
  | cons i is ih =>
    intro s a
    rw [log, ih]
    by_cases h : key i = k
    · subst h
      rw [family_self, if_pos rfl]
      simp only [inputsOf, List.filter_cons, decide_true, if_true]
      rfl
    · rw [family_of_ne key step s h, if_neg h]
      simp only [inputsOf, List.filter_cons, decide_eq_true_eq, if_neg h]

lemma always_append {step : σ → ι → ω × σ} {G : σ → ι → Prop} (is js : List ι) :
    ∀ s, Always step G s (is ++ js) ↔ Always step G s is ∧ Always step G (run step s is) js := by
  induction is with
  | nil => exact fun s => ⟨fun h => ⟨trivial, h⟩, fun h => h.2⟩
  | cons i is ih => exact fun s => (and_congr_right fun _ => ih _).trans and_assoc.symm

lemma log_induction {step : σ → ι → ω × σ} {note : α → ι → ω → α} {G : σ → ι → Prop}
    {P : List ι → σ → α → Prop} {s : σ} {a : α}
    (hstep : ∀ is i s a, P is s a → G s i → P (is ++ [i]) (step s i).2 (note a i (step s i).1))
    (h : P [] s a) (is : List ι) (hG : Always step G s is) :
    P is (run step s is) (log step note s a is) := by
  induction is using List.reverseRecOn with
  | nil => exact h
  | append_singleton is i ih =>
    obtain ⟨hG, hlast, -⟩ := (always_append is [i] s).mp hG
    rw [run_concat, log_append]
    exact hstep is i _ _ (ih hG) hlast

end Mealy
