import V2xw.Lib.Stream

/-!
# Failures that leave nothing behind

A procedure that fails keeps the state it failed in. It fails cleanly where that is the state it
was started in. A composition fails cleanly if its first part does and the second cannot fail, or
if the second fails cleanly and the first only reads.

## Main definitions

* `Stream.Proc.NeverFails` — a procedure without failures.
* `Stream.Proc.CleanAt` — a failure from this state leaves it as it was.
* `Stream.Proc.ReadOnly` — a procedure that changes nothing.

## Main results

* `Stream.Proc.CleanAt.bind` — a clean procedure followed by one that does not fail.
* `Stream.Proc.ReadOnly.cleanAt_bind` — a check followed by a clean procedure.
* `Stream.Proc.cleanAt_bind_iff` — behind a procedure that succeeds, only failures that undo what
  it has done are clean.
-/

namespace Stream.Proc

variable {σ ε α β : Type}

/-- The procedure succeeds from every state. -/
def NeverFails (x : Proc σ ε α) : Prop := ∀ s e s', x.exec s ≠ (.error e, s')

/-- A failure from the state `s` leaves it as it was. -/
def CleanAt (x : Proc σ ε α) (s : σ) : Prop := ∀ e s', x.exec s = (.error e, s') → s' = s

/-- The procedure changes nothing, whether it succeeds or fails. -/
def ReadOnly (x : Proc σ ε α) : Prop := ∀ s, (x.exec s).2 = s

/-! ## Procedures that do not fail -/

lemma NeverFails.pure (a : α) : NeverFails (pure a : Proc σ ε α) := by
  intro s e s' h
  rw [exec_pure] at h
  cases h

lemma NeverFails.modify (f : σ → σ) : NeverFails (modify f : Proc σ ε Unit) := by
  intro s e s' h
  rw [exec_modify] at h
  cases h

lemma NeverFails.bind {x : Proc σ ε α} {f : α → Proc σ ε β} (hx : NeverFails x)
    (hf : ∀ a, NeverFails (f a)) : NeverFails (x >>= f) := by
  intro s e s' h
  rw [exec_bind] at h
  rcases hr : x.exec s with ⟨r, t⟩
  rw [hr] at h
  cases r with
  | ok a => exact hf a t e s' h
  | error e' => exact hx s e' t hr

lemma NeverFails.forM {op : α → Proc σ ε Unit} (h : ∀ a, NeverFails (op a)) (as : List α) :
    NeverFails (as.forM op) := by
  induction as with
  | nil => exact .pure ()
  | cons a as ih => exact (h a).bind fun _ => ih

lemma NeverFails.cleanAt {x : Proc σ ε α} (hx : NeverFails x) (s : σ) : CleanAt x s :=
  fun e s' h => absurd h (hx s e s')

/-! ## Clean failures -/

lemma CleanAt.throw (e : ε) (s : σ) : CleanAt (throw e : Proc σ ε α) s := by
  intro e' s' h
  rw [exec_throw] at h
  exact (congrArg Prod.snd h).symm

lemma CleanAt.guard {p : Prop} [Decidable p] {e : ε} {x : Proc σ ε α} {s : σ}
    (h : CleanAt x s) : CleanAt (if p then MonadExcept.throw e else x) s := by
  by_cases hp : p
  · rw [if_pos hp]
    exact .throw e s
  · rwa [if_neg hp]

/-- **Clean failures compose** with what cannot fail. -/
lemma CleanAt.bind {x : Proc σ ε α} {f : α → Proc σ ε β} {s : σ} (hx : CleanAt x s)
    (hf : ∀ a, NeverFails (f a)) : CleanAt (x >>= f) s := by
  intro e s' h
  rw [exec_bind] at h
  rcases hr : x.exec s with ⟨r, t⟩
  rw [hr] at h
  cases r with
  | ok a => exact absurd h (hf a t e s')
  | error e' =>
    obtain rfl : t = s' := congrArg Prod.snd h
    exact hx e' t hr

/-! ## Procedures that only read -/

lemma ReadOnly.pure (a : α) : ReadOnly (pure a : Proc σ ε α) := fun _ => rfl

lemma ReadOnly.throw (e : ε) : ReadOnly (throw e : Proc σ ε α) := fun _ => rfl

lemma ReadOnly.get : ReadOnly (get : Proc σ ε σ) := fun _ => rfl

lemma ReadOnly.guard {p : Prop} [Decidable p] {e : ε} {x : Proc σ ε α} (h : ReadOnly x) :
    ReadOnly (if p then MonadExcept.throw e else x) := by
  by_cases hp : p
  · rw [if_pos hp]
    exact .throw e
  · rwa [if_neg hp]

lemma ReadOnly.bind {x : Proc σ ε α} {f : α → Proc σ ε β} (hx : ReadOnly x)
    (hf : ∀ a, ReadOnly (f a)) : ReadOnly (x >>= f) := by
  intro s
  have hs := hx s
  rw [exec_bind]
  rcases hr : x.exec s with ⟨r, t⟩
  rw [hr] at hs
  obtain rfl : t = s := hs
  cases r with
  | ok a => exact hf a t
  | error e => rfl

lemma ReadOnly.exec_bind_eq_ok {x : Proc σ ε α} {f : α → Proc σ ε β} {s t : σ} {b : β}
    (hx : ReadOnly x) :
    exec (x >>= f) s = (.ok b, t) ↔ ∃ a, exec x s = (.ok a, s) ∧ exec (f a) s = (.ok b, t) := by
  rw [Proc.exec_bind_eq_ok]
  constructor
  · rintro ⟨a, s', ha, hf⟩
    have hs := hx s
    rw [ha] at hs
    obtain rfl : s' = s := hs
    exact ⟨a, ha, hf⟩
  · rintro ⟨a, ha, hf⟩
    exact ⟨a, s, ha, hf⟩

/-- **A check in front** of a clean procedure leaves it clean. -/
lemma ReadOnly.cleanAt_bind {x : Proc σ ε α} {f : α → Proc σ ε β} {s : σ} (hx : ReadOnly x)
    (hf : ∀ a, CleanAt (f a) s) : CleanAt (x >>= f) s := by
  intro e s' h
  have hs := hx s
  rw [exec_bind] at h
  rcases hr : x.exec s with ⟨r, t⟩
  rw [hr] at h hs
  obtain rfl : t = s := hs
  cases r with
  | ok a => exact hf a e s' h
  | error e' => exact (congrArg Prod.snd h).symm

/-! ## Failures behind a success -/

lemma cleanAt_bind_iff {x : Proc σ ε α} {f : α → Proc σ ε β} {s t : σ} {a : α}
    (hx : x.exec s = (.ok a, t)) :
    CleanAt (x >>= f) s ↔ ∀ e s', (f a).exec t = (.error e, s') → s' = s := by
  unfold CleanAt
  rw [exec_bind_of_ok hx]

end Stream.Proc
