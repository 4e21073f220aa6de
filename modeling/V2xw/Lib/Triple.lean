import V2xw.Lib.Stream

/-!
# Pre- and postconditions of procedures

Hoare triples for the procedures of `Stream.Proc`. A procedure may fail half-way, and its state
survives: a triple has a second postcondition, for the states a failure leaves.

## Main definitions

* `Stream.Proc.Triple` — from every state that meets the precondition, a success meets the
  postcondition and a failure meets the other one.

## Main results

* `Stream.Proc.Triple.bind`, `Stream.Proc.Triple.bind_get` — sequences.
* `Stream.Proc.Triple.conseq` — weaker and stronger conditions.
* `Stream.Proc.Triple.ok`, `Stream.Proc.Triple.run` — what a triple says of one run.
* `Stream.Proc.Keeps.bind` — what every part of a procedure keeps.
-/

namespace Stream.Proc

variable {σ ε α β : Type}

/-- From every state that meets `P`, the procedure ends in one that meets `Q`, or fails in one that
meets `E`. -/
def Triple (P : σ → Prop) (x : Proc σ ε α) (Q : α → σ → Prop) (E : σ → Prop) : Prop :=
  ∀ s, P s → match exec x s with
    | (.ok a, s') => Q a s'
    | (.error _, s') => E s'

namespace Triple

variable {P P' E E' : σ → Prop} {Q Q' : α → σ → Prop} {R : β → σ → Prop} {x : Proc σ ε α}
  {f : α → Proc σ ε β}

/-! ## One run -/

lemma run (h : Triple P x (fun _ => E) E) {s : σ} (hs : P s) : E (exec x s).2 := by
  have h := h s hs
  cases hx : exec x s with
  | mk outcome s' =>
    rw [hx] at h
    cases outcome <;> exact h

lemma of_forall (h : ∀ s, P s → Triple (fun t => t = s) x Q E) : Triple P x Q E :=
  fun s hs => h s hs s rfl

/-! ## Rules -/

lemma conseq (h : Triple P x Q E) (hP : ∀ s, P' s → P s) (hQ : ∀ a s, Q a s → Q' a s)
    (hE : ∀ s, E s → E' s) : Triple P' x Q' E' := by
  intro s hs
  have h := h s (hP s hs)
  cases hx : exec x s with
  | mk outcome s' =>
    rw [hx] at h
    cases outcome with
    | error e => exact hE s' h
    | ok a => exact hQ a s' h

lemma pre (h : Triple P x Q E) (hP : ∀ s, P' s → P s) : Triple P' x Q E :=
  h.conseq hP (fun _ _ h => h) fun _ h => h

lemma post (h : Triple P x Q E) (hQ : ∀ a s, Q a s → Q' a s) : Triple P x Q' E :=
  h.conseq (fun _ h => h) hQ fun _ h => h

lemma and {P' E' : σ → Prop} {Q' : α → σ → Prop} (h : Triple P x Q E)
    (h' : Triple P' x Q' E') :
    Triple (fun s => P s ∧ P' s) x (fun a s => Q a s ∧ Q' a s) fun s => E s ∧ E' s := by
  rintro s ⟨hs, hs'⟩
  have h := h s hs
  have h' := h' s hs'
  cases hx : exec x s with
  | mk outcome s' =>
    rw [hx] at h h'
    cases outcome <;> exact ⟨h, h'⟩

lemma pure {a : α} (h : ∀ s, P s → Q a s) : Triple (ε := ε) P (pure a) Q E := h

lemma modify {g : σ → σ} {Q : Unit → σ → Prop} (h : ∀ s, P s → Q () (g s)) :
    Triple (ε := ε) P (modify g) Q E := h

lemma bind (hx : Triple P x Q E) (hf : ∀ a, Triple (Q a) (f a) R E) :
    Triple P (x >>= f) R E := by
  intro s hs
  have hx := hx s hs
  rw [exec_bind]
  cases h : exec x s with
  | mk outcome s' =>
    rw [h] at hx
    cases outcome with
    | error e => exact hx
    | ok a => exact hf a s' hx

lemma bind_get {g : σ → Proc σ ε β} (h : ∀ s, P s → Triple (fun t => t = s) (g s) R E) :
    Triple P (get >>= g) R E := by
  intro s hs
  rw [exec_bind, exec_get]
  exact h s hs s rfl

end Triple

/-! ## What a procedure keeps -/

/-- The procedure keeps a property, whatever its outcome. -/
def Keeps (P : σ → Prop) (x : Proc σ ε α) : Prop := Triple P x (fun _ => P) P

namespace Keeps

variable {P : σ → Prop} {x : Proc σ ε α} {f : α → Proc σ ε β}

lemma exec (h : Keeps P x) {s : σ} (hs : P s) : P (exec x s).2 := Triple.run h hs

lemma pure (a : α) : Keeps P (pure a : Proc σ ε α) := fun _ hs => hs

lemma throw (e : ε) : Keeps P (throw e : Proc σ ε α) := fun _ hs => hs

lemma get : Keeps P (get : Proc σ ε σ) := fun _ hs => hs

lemma modify {g : σ → σ} (h : ∀ s, P s → P (g s)) : Keeps P (modify g : Proc σ ε Unit) := h

lemma bind (hx : Keeps P x) (hf : ∀ a, Keeps P (f a)) : Keeps P (x >>= f) := Triple.bind hx hf

lemma ite {p : Prop} [Decidable p] {y : Proc σ ε α} (hx : Keeps P x) (hy : Keeps P y) :
    Keeps P (if p then x else y) := by
  split
  · exact hx
  · exact hy

end Keeps

end Stream.Proc
