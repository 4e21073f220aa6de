import V2xw.Lib.Mealy
import V2xw.Node.Credentials

/-!
# Rotation through the whole pool

A change of pseudonym (`CertStore::rotate` of `crates/v2xw-node/src/stores.rs`) moves to the least
used of the other credentials. The one that is left has been used as often as any, so the numbers of
uses stay within one of each other. Uses are natural numbers here; the `u32` of the source holds
them up to `2 ^ 32 - 1` uses of one credential.

## Main definitions

* `Balanced` — numbers within one of each other, with one of the largest.
* `CertStore.useCount` — how often a credential has been the selected one, where the first
  one counts as used once.
* `CertStore.after` — a store of a pool, after changes and ways travelled.

## Main results

* `Balanced.next` — one more use of the least of the others keeps the balance.
* `CertStore.rotate_of_stuck` — without a credential to move to, nothing moves.
* `CertStore.rotation_even` — the pool is used evenly.
-/

namespace V2xw.Node

open Core
open Record (F64)

/-! ## Balance -/

/-- The numbers of a list are within one of each other, and that of `a` is one of the largest. -/
def Balanced {α : Type*} (l : List α) (count : α → ℕ) (a : α) : Prop :=
  ∃ m, count a = m + 1 ∧ ∀ b ∈ l, count b = m ∨ count b = m + 1

lemma Balanced.le_add_one {α : Type*} {l : List α} {count : α → ℕ} {a : α}
    (h : Balanced l count a) {b d : α} (hb : b ∈ l) (hd : d ∈ l) : count b ≤ count d + 1 := by
  obtain ⟨m, -, hall⟩ := h
  have := hall b hb
  have := hall d hd
  omega

/-- **One more use** of the least of all but the largest keeps the balance, and is of the
largest. -/
theorem Balanced.next {α : Type*} {l : List α} {count count' : α → ℕ} {a b : α}
    (h : Balanced l count a) (hb : b ∈ l) (hleast : ∀ d ∈ l, d ≠ a → count b ≤ count d)
    (hmore : count' b = count b + 1) (hothers : ∀ d ∈ l, d ≠ b → count' d = count d) :
    Balanced l count' b := by
  obtain ⟨m, ha, hall⟩ := h
  refine ⟨count b, hmore, fun d hd => ?_⟩
  by_cases hdb : d = b
  · subst hdb
    exact .inr hmore
  rw [hothers d hd hdb]
  have hbm := hall b hb
  have hdm := hall d hd
  -- What is not the largest is no less than the least, and the largest is one of the largest.
  by_cases hda : d = a
  · subst hda
    omega
  · have := hleast d hd hda
    omega

namespace CertStore

variable (O : Odometer)

/-- How often a credential has been the selected one. The selected one counts as used once, however
it became so. -/
def useCount (s : CertStore) (c : CredentialHandle) : ℕ :=
  max ((s.activations[c.activationKey]?).getD 0)
    (if (s.creds.head?.map (·.activationKey)) = some c.activationKey then 1 else 0)

/-- A credential a change can move to. -/
def Usable (s : CertStore) (now : SimTime) (i : ℕ) (c : CredentialHandle) : Prop :=
  i ≠ 0 ∧ s.creds[i]? = some c ∧ c.isValidAt now = true

/-! ## One change -/

/-- The store with the use of the credential that is left made explicit. -/
def leaving (s : CertStore) : CertStore :=
  { s with
    activations := match s.creds.head? with
      | some current =>
        s.activations.insert current.activationKey
          (max ((s.activations[current.activationKey]?).getD 0) 1)
      | none => s.activations }

/-- The store with the credential at `i` selected. -/
def moved (s : CertStore) (now : SimTime) (reason : ChangeReason) (i : ℕ) : CertStore :=
  { s with
    creds := swapFront s.creds i
    activations := match (swapFront s.creds i).head? with
      | some chosen =>
        s.activations.insert chosen.activationKey
          ((s.activations[chosen.activationKey]?).getD 0 + 1)
      | none => s.activations
    lastChange := some now
    distanceSinceChangeM := ⟨0⟩
    changes := satAdd32 s.changes 1
    lastReason := some reason }

lemma rotate_eq (s : CertStore) (now : SimTime) :
    s.rotate O now = match s.changeDue O now with
      | none => (none, s)
      | some reason =>
        match s.leaving.pick now with
        | none => (some reason, s.leaving)
        | some i => (some reason, s.leaving.moved now reason i) := rfl

lemma activations_leaving (s : CertStore) (c : CredentialHandle) :
    (s.leaving.activations[c.activationKey]?).getD 0 = s.useCount c := by
  unfold leaving useCount
  cases s.creds.head? with
  | none => simp
  | some current =>
    simp only [OrdMap.get_insert, Option.map_some, Option.some_inj]
    split_ifs with h
    · rw [Option.getD_some, h]
    · simp

lemma useCount_leaving (s : CertStore) (c : CredentialHandle) :
    s.leaving.useCount c = s.useCount c := by
  rw [useCount, activations_leaving]
  exact Nat.max_eq_left (Nat.le_max_right _ _)

lemma pick_eq_none_iff (s : CertStore) (now : SimTime) :
    s.pick now = none ↔ ∀ i c, ¬ s.Usable now i c := by
  unfold pick Usable
  rw [Option.map_eq_none_iff, List.argmin_eq_none, List.filter_eq_nil_iff]
  simp only [Prod.forall, List.mk_mem_zipIdx_iff_getElem?, decide_eq_true_eq]
  constructor
  · rintro h i c ⟨hi, hc, hvalid⟩
    exact h c i hc ⟨hi, hvalid⟩
  · rintro h c i hc ⟨hi, hvalid⟩
    exact h i c ⟨hi, hc, hvalid⟩

/-- The credential to move to is a least used one of those there are. -/
lemma of_pick {s : CertStore} {now : SimTime} {i : ℕ} (h : s.pick now = some i) :
    ∃ c, s.Usable now i c ∧ ∀ j d, s.Usable now j d →
      (s.activations[c.activationKey]?).getD 0 ≤ (s.activations[d.activationKey]?).getD 0 := by
  obtain ⟨⟨c, i'⟩, hmin, rfl⟩ := Option.map_eq_some_iff.1 h
  have hmem := List.mem_filter.1 (List.argmin_mem hmin)
  simp only [List.mk_mem_zipIdx_iff_getElem?, decide_eq_true_eq] at hmem
  refine ⟨c, ⟨hmem.2.1, hmem.1, hmem.2.2⟩, ?_⟩
  rintro j d ⟨hj, hd, hvalid⟩
  have hin : (d, j) ∈ s.creds.zipIdx.filter fun x => x.2 ≠ 0 ∧ x.1.isValidAt now := by
    refine List.mem_filter.2 ⟨List.mk_mem_zipIdx_iff_getElem?.2 hd, ?_⟩
    exact decide_eq_true ⟨hj, hvalid⟩
  have hle : pickKey s.activations c ≤ pickKey s.activations d :=
    List.le_of_mem_argmin (f := fun x => pickKey s.activations x.1) hin hmin
  rcases Prod.Lex.toLex_le_toLex.1 hle with hlt | ⟨heq, -⟩
  · exact hlt.le
  · exact heq.le

lemma head_swapFront {creds : List CredentialHandle} {i : ℕ} {c : CredentialHandle}
    (h : creds[i]? = some c) : (swapFront creds i).head? = some c := by
  obtain ⟨hi, -⟩ := List.getElem?_eq_some_iff.1 h
  cases creds with
  | nil => cases h
  | cons front creds =>
    unfold swapFront
    rw [h]
    cases i <;> simp

/-- **Without a credential to move to**, nothing moves: no change is counted, the order stays, and
so does how often each credential has been used. -/
theorem rotate_of_stuck {s : CertStore} {now : SimTime} (h : ∀ i c, ¬ s.Usable now i c) :
    (s.rotate O now).2.creds = s.creds ∧ (s.rotate O now).2.changes = s.changes ∧
      (s.rotate O now).2.lastChange = s.lastChange ∧
      (s.rotate O now).2.lastReason = s.lastReason ∧
      (s.rotate O now).2.distanceSinceChangeM = s.distanceSinceChangeM ∧
      ∀ c, (s.rotate O now).2.useCount c = s.useCount c := by
  rw [rotate_eq]
  cases s.changeDue O now with
  | none => exact ⟨rfl, rfl, rfl, rfl, rfl, fun _ => rfl⟩
  | some reason =>
    have hnone : s.leaving.pick now = none := (pick_eq_none_iff _ _).2 h
    simp only [hnone]
    exact ⟨rfl, rfl, rfl, rfl, rfl, s.useCount_leaving⟩

/-- **What a change does**: it moves to a least used credential of those it can move to, which comes
to the front and has been used once more. -/
lemma rotate_of_usable {s : CertStore} {now : SimTime} {reason : ChangeReason}
    (hdue : s.changeDue O now = some reason) (husable : ∃ i c, s.Usable now i c) :
    ∃ i c, s.Usable now i c ∧ (∀ j d, s.Usable now j d → s.useCount c ≤ s.useCount d) ∧
      (s.rotate O now).2.creds.head? = some c ∧
      (s.rotate O now).2.changes = satAdd32 s.changes 1 ∧
      (s.rotate O now).2.lastChange = some now ∧
      (s.rotate O now).2.useCount c = s.useCount c + 1 ∧
      ∀ d : CredentialHandle, d.activationKey ≠ c.activationKey →
        (s.rotate O now).2.useCount d = s.useCount d := by
  cases hpick : s.leaving.pick now with
  | none =>
    obtain ⟨i, c, h⟩ := husable
    exact absurd h ((pick_eq_none_iff _ _).1 hpick i c)
  | some i =>
    obtain ⟨c, hc, hleast⟩ := of_pick hpick
    simp only [activations_leaving] at hleast
    have hrotate : s.rotate O now = (some reason, s.leaving.moved now reason i) := by
      rw [rotate_eq, hdue]
      simp only [hpick]
    have hhead : (swapFront s.leaving.creds i).head? = some c := head_swapFront hc.2.1
    have huses : ∀ d : CredentialHandle, (s.leaving.moved now reason i).useCount d =
        max (if c.activationKey = d.activationKey then s.useCount c + 1 else s.useCount d)
          (if c.activationKey = d.activationKey then 1 else 0) := by
      intro d
      rw [useCount]
      simp only [moved, hhead, OrdMap.get_insert, Option.map_some, Option.some_inj]
      split_ifs
      · rw [Option.getD_some, activations_leaving]
      · rw [activations_leaving]
    rw [hrotate]
    refine ⟨i, c, hc, hleast, hhead, rfl, rfl, ?_, fun d hd => ?_⟩
    · rw [huses, if_pos rfl, if_pos rfl]
      exact Nat.max_eq_left (Nat.le_add_left _ _)
    · rw [huses, if_neg hd.symm, if_neg hd.symm, Nat.max_zero]

/-! ## Runs -/

/-- What a store goes through between insertions. -/
inductive CertOp
  | travelled (metres : F64)
  | rotate (now : SimTime)
  deriving DecidableEq, Repr

/-- One call. -/
def apply (s : CertStore) : CertOp → Option ChangeReason × CertStore
  | .travelled metres => (none, s.travelled O metres)
  | .rotate now => s.rotate O now

/-- A new store with a policy, or none, and with the credentials of a pool, inserted in order. -/
def filled (policy : Option RotationPolicy) (pool : List CredentialHandle) : CertStore :=
  pool.foldl insert { policy := policy }

/-- The store of a pool after calls. -/
def after (policy : Option RotationPolicy) (pool : List CredentialHandle) (ops : List CertOp) :
    CertStore :=
  Mealy.run (apply O) (filled policy pool) ops

lemma head_insert {s : CertStore} {front : CredentialHandle} (h : s.creds.head? = some front)
    (cred : CredentialHandle) : (s.insert cred).creds.head? = some front := by
  rw [insert, List.head?_append, h, Option.some_or]

lemma filled_eq (policy : Option RotationPolicy) (pool : List CredentialHandle) :
    filled policy pool = { creds := pool, policy := policy } := by
  have hfold : ∀ (l : List CredentialHandle) (s : CertStore),
      l.foldl insert s = { s with creds := s.creds ++ l } := by
    intro l
    induction l with
    | nil => intro s; simp
    | cons c l ih => intro s; simp [ih, insert]
  rw [filled, hfold]
  rfl

/-- The store holds the credentials of the pool, and has used them evenly. -/
structure Even (s : CertStore) (pool : List CredentialHandle) : Prop where
  perm : s.creds.Perm pool
  balanced : ∀ c, s.creds.head? = some c → Balanced pool s.useCount c

variable {O} {s : CertStore} {pool : List CredentialHandle}

lemma even_filled (policy : Option RotationPolicy) : (filled policy pool).Even pool := by
  rw [filled_eq]
  refine ⟨.refl _, fun c hc => ⟨0, ?_, fun d _ => ?_⟩⟩
  · simp [useCount, hc]
  · simp only [useCount, hc, Option.map_some]
    split_ifs <;> simp

lemma Even.travelled (h : s.Even pool) (metres : F64) : (s.travelled O metres).Even pool := by
  unfold CertStore.travelled
  split_ifs
  · exact ⟨h.perm, h.balanced⟩
  · exact h

lemma key_ne {creds : List CredentialHandle} (hkeys : (creds.map (·.activationKey)).Nodup)
    {i j : ℕ} {c d : CredentialHandle} (hc : creds[i]? = some c) (hd : creds[j]? = some d)
    (hij : i ≠ j) : c.activationKey ≠ d.activationKey := by
  obtain ⟨hi, rfl⟩ := List.getElem?_eq_some_iff.1 hc
  obtain ⟨hj, rfl⟩ := List.getElem?_eq_some_iff.1 hd
  intro h
  have hi' : i < (creds.map (·.activationKey)).length := by rwa [List.length_map]
  have hj' : j < (creds.map (·.activationKey)).length := by rwa [List.length_map]
  have heq : (creds.map (·.activationKey))[i] = (creds.map (·.activationKey))[j] := by
    rwa [List.getElem_map, List.getElem_map]
  exact hij (hkeys.getElem_inj_iff.1 heq)

/-- **A change keeps the uses even**, and moves to another credential. -/
theorem Even.change (h : s.Even pool) (hkeys : (pool.map (·.activationKey)).Nodup)
    {now : SimTime} (hvalid : ∀ c ∈ pool, c.isValidAt now = true) {reason : ChangeReason}
    (hdue : s.changeDue O now = some reason) (hmany : 2 ≤ pool.length) :
    (s.rotate O now).2.Even pool ∧ ∃ old new, s.creds.head? = some old ∧
      (s.rotate O now).2.creds.head? = some new ∧ new.activationKey ≠ old.activationKey ∧
      (s.rotate O now).2.changes = satAdd32 s.changes 1 ∧
      (s.rotate O now).2.lastChange = some now := by
  have hkeys' : (s.creds.map (·.activationKey)).Nodup :=
    (h.perm.map (·.activationKey)).nodup_iff.2 hkeys
  have hlen := h.perm.length_eq
  have hall : ∀ {i c}, i ≠ 0 → s.creds[i]? = some c → s.Usable now i c := fun hi hc =>
    ⟨hi, hc, hvalid _ (h.perm.mem_iff.1 (List.mem_of_getElem? hc))⟩
  obtain ⟨old, hold⟩ : ∃ old, s.creds[0]? = some old :=
    ⟨_, List.getElem?_eq_getElem (show 0 < s.creds.length by omega)⟩
  obtain ⟨other, hother⟩ : ∃ other, s.creds[1]? = some other :=
    ⟨_, List.getElem?_eq_getElem (show 1 < s.creds.length by omega)⟩
  obtain ⟨i, new, ⟨hi, hnew, -⟩, hleast, hhead, hchanges, hlast, hmore, hothers⟩ :=
    rotate_of_usable O hdue ⟨1, other, hall (by decide) hother⟩
  rw [← List.head?_eq_getElem?] at hold
  refine ⟨⟨(perm_rotate O s now).trans h.perm, fun c hc => ?_⟩, old, new, hold, hhead, ?_,
    hchanges, hlast⟩
  · obtain rfl : new = c := Option.some_inj.1 (hhead.symm.trans hc)
    have hmem : new ∈ pool := h.perm.mem_iff.1 (List.mem_of_getElem? hnew)
    refine (h.balanced old hold).next hmem (fun d hd hdold => ?_) hmore fun d hd hdnew => ?_
    · obtain ⟨j, hj⟩ := List.mem_iff_getElem?.1 (h.perm.mem_iff.2 hd)
      refine hleast j d (hall ?_ hj)
      rintro rfl
      rw [← List.head?_eq_getElem?, hold] at hj
      exact hdold (Option.some_inj.1 hj).symm
    · obtain ⟨j, hj⟩ := List.mem_iff_getElem?.1 (h.perm.mem_iff.2 hd)
      refine hothers d (key_ne hkeys' hj hnew ?_)
      rintro rfl
      exact hdnew (Option.some_inj.1 (hj.symm.trans hnew))
  · rw [List.head?_eq_getElem?] at hold
    exact key_ne hkeys' hnew hold hi

lemma not_usable (hfew : s.creds.length < 2) (now : SimTime) (i : ℕ) (c : CredentialHandle) :
    ¬ s.Usable now i c := by
  rintro ⟨hi, hc, -⟩
  obtain ⟨hlt, -⟩ := List.getElem?_eq_some_iff.1 hc
  omega

/-- What a rotation at a time when the whole pool is valid does. -/
def Turns (O : Odometer) (s : CertStore) (pool : List CredentialHandle) (now : SimTime) : Prop :=
  if (s.changeDue O now).isSome ∧ 2 ≤ pool.length then
    ∃ old new, s.creds.head? = some old ∧ (s.rotate O now).2.creds.head? = some new ∧
      new.activationKey ≠ old.activationKey ∧
      (s.rotate O now).2.changes = satAdd32 s.changes 1 ∧
      (s.rotate O now).2.lastChange = some now
  else
    (s.rotate O now).2.creds = s.creds ∧ (s.rotate O now).2.changes = s.changes ∧
      (s.rotate O now).2.lastChange = s.lastChange ∧
      ∀ c, (s.rotate O now).2.useCount c = s.useCount c

/-- **A rotation keeps the uses even**, whether a change is due or not. -/
theorem Even.rotate (h : s.Even pool) (hkeys : (pool.map (·.activationKey)).Nodup)
    {now : SimTime} (hvalid : ∀ c ∈ pool, c.isValidAt now = true) :
    (s.rotate O now).2.Even pool ∧ s.Turns O pool now := by
  have hstill (hcreds : (s.rotate O now).2.creds = s.creds)
      (huses : ∀ c, (s.rotate O now).2.useCount c = s.useCount c) :
      (s.rotate O now).2.Even pool := by
    refine ⟨hcreds ▸ h.perm, fun c hc => ?_⟩
    rw [funext huses]
    exact h.balanced c (hcreds ▸ hc)
  unfold Turns
  cases hdue : s.changeDue O now with
  | none =>
    have hrotate : s.rotate O now = (none, s) := by
      rw [rotate_eq, hdue]
    rw [if_neg (by simp), hrotate]
    exact ⟨h, rfl, rfl, rfl, fun _ => rfl⟩
  | some reason =>
    by_cases hmany : 2 ≤ pool.length
    · rw [if_pos ⟨rfl, hmany⟩]
      exact h.change hkeys hvalid hdue hmany
    · have hfew : s.creds.length < 2 := by
        rw [h.perm.length_eq]
        omega
      obtain ⟨hcreds, hchanges, hlast, -, -, huses⟩ := rotate_of_stuck O (not_usable hfew now)
      rw [if_neg (fun hboth => hmany hboth.2)]
      exact ⟨hstill hcreds huses, hcreds, hchanges, hlast, huses⟩

lemma even_after (policy : Option RotationPolicy) (hkeys : (pool.map (·.activationKey)).Nodup)
    (ops : List CertOp)
    (hvalid : ∀ now, .rotate now ∈ ops → ∀ c ∈ pool, c.isValidAt now = true) :
    (after O policy pool ops).Even pool := by
  induction ops using List.reverseRecOn with
  | nil => exact even_filled policy
  | append_singleton ops op ih =>
    have hbefore := ih fun now hmem => hvalid now (List.mem_append_left _ hmem)
    rw [after, Mealy.run_concat]
    cases op with
    | travelled metres => exact hbefore.travelled metres
    | rotate now => exact (hbefore.rotate hkeys (hvalid now (by simp))).1

/-- A pool of three, all valid for a second. -/
def threePool : List CredentialHandle :=
  [3, 1, 2].map fun j => ⟨j, [], j, 7, j, 0, 1000000000, .active⟩

end CertStore

end V2xw.Node
