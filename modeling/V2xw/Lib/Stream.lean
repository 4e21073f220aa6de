import Mathlib.Data.List.Basic

/-!
# Writers, readers and their round trips

Fallible procedures on a state that survives a failure, and what they do to a stream of symbols: a
writer appends symbols to what its state holds, a reader takes symbols from what its state has
left. The states themselves (how the symbols are packed, how a position is kept) enter only through
the two relations `Sink.Holds` and `Source.At`.

## Main definitions

* `Proc` — a fallible procedure; on failure the state reached is kept.
* `Emits` — a writer succeeds wherever it is run and appends the given symbols.
* `Takes` — a reader offered the given symbols takes exactly these and returns the given value.
* `RoundTrips` — a writer that succeeds emits symbols from which a reader takes the given value.

## Main results

* `RoundTrips.bind` — the round trip along procedures.
-/

namespace Stream

variable {σ ω ρ ε α β γ : Type}

/-! ## Procedures -/

/-- A fallible procedure on a state; a failure keeps the state it was reached in. -/
abbrev Proc (σ ε α : Type) := ExceptT ε (StateM σ) α

/-- The outcome of a procedure and the state it leaves. -/
def Proc.exec (x : Proc σ ε α) (s : σ) : Except ε α × σ := StateT.run (ExceptT.run x) s

namespace Proc

@[simp]
lemma exec_pure (a : α) (s : σ) : exec (pure a : Proc σ ε α) s = (.ok a, s) := rfl

@[simp]
lemma exec_throw (e : ε) (s : σ) : exec (throw e : Proc σ ε α) s = (.error e, s) := rfl

@[simp]
lemma exec_modify (f : σ → σ) (s : σ) : exec (modify f : Proc σ ε Unit) s = (.ok (), f s) := rfl

@[simp]
lemma exec_get (s : σ) : exec (get : Proc σ ε σ) s = (.ok s, s) := rfl

@[simp]
lemma exec_set (s s' : σ) : exec (set s' : Proc σ ε Unit) s = (.ok (), s') := rfl

lemma exec_bind (x : Proc σ ε α) (f : α → Proc σ ε β) (s : σ) :
    exec (x >>= f) s = match exec x s with
      | (.ok a, s') => exec (f a) s'
      | (.error e, s') => (.error e, s') := by
  show (ExceptT.bindCont f (exec x s).1 : StateM σ (Except ε β)) (exec x s).2 = _
  rcases exec x s with ⟨a | a, s'⟩ <;> rfl

lemma exec_bind_of_ok {x : Proc σ ε α} {f : α → Proc σ ε β} {s s' : σ} {a : α}
    (h : exec x s = (.ok a, s')) : exec (x >>= f) s = exec (f a) s' := by
  rw [exec_bind, h]

lemma exec_bind_eq_ok {x : Proc σ ε α} {f : α → Proc σ ε β} {s s'' : σ} {b : β} :
    exec (x >>= f) s = (.ok b, s'') ↔
      ∃ a s', exec x s = (.ok a, s') ∧ exec (f a) s' = (.ok b, s'') := by
  rw [exec_bind]
  rcases exec x s with ⟨a | a, s'⟩ <;> simp

end Proc

open Proc

/-- The values of `n` runs of a procedure, in order. -/
def replicateM (n : ℕ) (x : Proc σ ε α) : Proc σ ε (List α) :=
  match n with
  | 0 => pure []
  | n + 1 => do
    let a ← x
    let as ← replicateM n x
    pure (a :: as)

/-! ## Streams -/

/-- States that hold the symbols written to them. -/
class Sink (ω : Type) (γ : outParam Type) where
  /-- The state holds exactly the symbols listed. -/
  Holds : ω → List γ → Prop

/-- States with symbols already taken from them and symbols left. -/
class Source (ρ : Type) (γ : outParam Type) where
  /-- The state has taken the first list and has the second one left. -/
  At : ρ → List γ → List γ → Prop

export Sink (Holds)
export Source (At)

variable [Sink ω γ] [Source ρ γ]

/-- A writer that succeeds and appends `bs` to whatever has been written. -/
def Emits (op : Proc ω ε Unit) (bs : List γ) : Prop :=
  ∀ w l, Holds w l → ∃ w', op.exec w = (.ok (), w') ∧ Holds w' (l ++ bs)

/-- A reader that takes exactly `bs` when they come next, and returns `a`. -/
def Takes (rd : Proc ρ ε α) (bs : List γ) (a : α) : Prop :=
  ∀ r done rest, At r done (bs ++ rest) → ∃ r', rd.exec r = (.ok a, r') ∧ At r' (done ++ bs) rest

/-- A writer that, where it succeeds, emits symbols a reader takes as the value `a`. -/
def RoundTrips (op : Proc ω ε Unit) (rd : Proc ρ ε α) (a : α) : Prop :=
  ∀ w l w', Holds w l → op.exec w = (.ok (), w') → ∃ bs, Emits op bs ∧ Takes rd bs a

/-! ### Emitting -/

lemma Emits.pure : Emits (pure () : Proc ω ε Unit) ([] : List γ) := by
  intro w l hw
  exact ⟨w, rfl, by rwa [List.append_nil]⟩

lemma Emits.bind {op₁ op₂ : Proc ω ε Unit} {bs₁ bs₂ : List γ} (h₁ : Emits op₁ bs₁)
    (h₂ : Emits op₂ bs₂) : Emits (op₁ >>= fun _ => op₂) (bs₁ ++ bs₂) := by
  intro w l hw
  obtain ⟨w₁, he₁, hw₁⟩ := h₁ w l hw
  obtain ⟨w₂, he₂, hw₂⟩ := h₂ w₁ _ hw₁
  refine ⟨w₂, ?_, ?_⟩
  · rw [exec_bind_of_ok he₁, he₂]
  · rwa [List.append_assoc] at hw₂

/-! ### Taking -/

lemma Takes.pure (a : α) : Takes (pure a : Proc ρ ε α) ([] : List γ) a := by
  intro r done rest hr
  exact ⟨r, rfl, by rwa [List.append_nil]⟩

lemma Takes.bind {rd : Proc ρ ε α} {f : α → Proc ρ ε β} {bs₁ bs₂ : List γ} {a : α} {b : β}
    (h₁ : Takes rd bs₁ a) (h₂ : Takes (f a) bs₂ b) : Takes (rd >>= f) (bs₁ ++ bs₂) b := by
  intro r done rest hr
  rw [List.append_assoc] at hr
  obtain ⟨r₁, he₁, hr₁⟩ := h₁ r done _ hr
  obtain ⟨r₂, he₂, hr₂⟩ := h₂ r₁ _ rest hr₁
  refine ⟨r₂, ?_, ?_⟩
  · rw [exec_bind_of_ok he₁, he₂]
  · rwa [List.append_assoc] at hr₂

lemma Takes.bind_nil {rd : Proc ρ ε α} {f : α → Proc ρ ε β} {bs : List γ} {a : α} {b : β}
    (h₁ : Takes rd bs a) (h₂ : Takes (f a) [] b) : Takes (rd >>= f) bs b := by
  have h := h₁.bind h₂
  rwa [List.append_nil] at h

lemma Takes.guard {p : Prop} [Decidable p] {e : ε} {rd : Proc ρ ε α} {bs : List γ} {a : α}
    (hp : ¬ p) (h : Takes rd bs a) : Takes (if p then MonadExcept.throw e else rd) bs a := by
  rwa [if_neg hp]

/-! ### Round trips -/

lemma Emits.roundTrips {op : Proc ω ε Unit} {rd : Proc ρ ε α} {bs : List γ} {a : α}
    (he : Emits op bs) (ht : Takes rd bs a) : RoundTrips op rd a :=
  fun _ _ _ _ _ => ⟨bs, he, ht⟩

lemma RoundTrips.pure (a : α) :
    RoundTrips (pure () : Proc ω ε Unit) (pure a : Proc ρ ε α) a :=
  Emits.pure.roundTrips (Takes.pure a)

lemma RoundTrips.throw (e : ε) (rd : Proc ρ ε α) (a : α) :
    RoundTrips (throw e : Proc ω ε Unit) rd a := by
  intro w l w' _ hop
  simp at hop

lemma RoundTrips.guard {p : Prop} [Decidable p] {e : ε} {op : Proc ω ε Unit} {rd : Proc ρ ε α}
    {a : α} (h : ¬ p → RoundTrips op rd a) :
    RoundTrips (if p then MonadExcept.throw e else op) rd a := by
  by_cases hp : p
  · rw [if_pos hp]
    exact .throw e rd a
  · rw [if_neg hp]
    exact h hp

/-- **Round trips compose.** The reader goes on from the value read back. -/
lemma RoundTrips.bind {op₁ op₂ : Proc ω ε Unit} {rd : Proc ρ ε α} {f : α → Proc ρ ε β} {a : α}
    {b : β} (h₁ : RoundTrips op₁ rd a) (h₂ : RoundTrips op₂ (f a) b) :
    RoundTrips (op₁ >>= fun _ => op₂) (rd >>= f) b := by
  intro w l w' hw hop
  obtain ⟨_, w₁, hop₁, hop₂⟩ := exec_bind_eq_ok.1 hop
  obtain ⟨bs₁, he₁, ht₁⟩ := h₁ w l w₁ hw hop₁
  obtain ⟨w₁', hop₁', hw₁⟩ := he₁ w l hw
  rw [hop₁] at hop₁'
  obtain rfl : w₁ = w₁' := (Prod.mk.inj hop₁').2
  obtain ⟨bs₂, he₂, ht₂⟩ := h₂ w₁ _ w' hw₁ hop₂
  exact ⟨bs₁ ++ bs₂, he₁.bind he₂, ht₁.bind ht₂⟩

lemma RoundTrips.bind_nil {op : Proc ω ε Unit} {rd : Proc ρ ε α} {f : α → Proc ρ ε β} {a : α}
    {b : β} (h₁ : RoundTrips op rd a) (h₂ : Takes (f a) ([] : List γ) b) :
    RoundTrips op (rd >>= f) b := by
  intro w l w' hw hop
  obtain ⟨bs, he, ht⟩ := h₁ w l w' hw hop
  exact ⟨bs, he, ht.bind_nil h₂⟩

/-! ### Consuming -/

end Stream
