import Mathlib.Data.Finset.Card
import Mathlib.Data.List.MinMax
import Mathlib.Order.BoundedOrder.Basic

/-!
# First come, first served

A bank of servers takes jobs in the order they arrive. Each job goes to a server that is free
first, starts there as soon as both it and the server are there, and holds it until it finishes.
The bank itself is only the list of the instants at which the servers are free; the schedule it
makes is the log of the jobs with the servers they were given.

## Main definitions

* `Fcfs.Job` — a job with its server and its three instants.
* `Fcfs.Takes` — a bank takes a job.
* `Fcfs.Schedule` — the jobs a bank has taken since all its servers were free.
* `Servers.earliest` — when the first server is free.
* `Servers.assign` — the bank after the first server has taken on some work.

## Main results

* `Fcfs.Schedule.pairwise_start` — jobs start in the order they arrive.
* `Fcfs.Schedule.countP_le` — no more jobs at a time than servers.
* `Fcfs.Schedule.countP_of_waiting` — a job waits only while all servers are taken.
* `Fcfs.Schedule.exists_finish`, `Fcfs.Schedule.finish_le` — when the servers are free.
* `Servers.earliest_le_assign` — work only delays the bank.
-/

namespace Fcfs

variable {τ : Type*}

/-- A job, with the server it was given. -/
structure Job (τ : Type*) where
  server : ℕ
  arrival : τ
  start : τ
  finish : τ

variable [LinearOrder τ]

/-- The job holds its server. -/
def Job.During (t : τ) (x : Job τ) : Prop := x.start ≤ t ∧ t < x.finish

instance (t : τ) : DecidablePred (Job.During t) := fun _ => inferInstanceAs (Decidable (_ ∧ _))

/-- The bank `free` takes a job on a server that is free first, and becomes `free'`. -/
structure Takes (free : List τ) (x : Job τ) (free' : List τ) : Prop where
  /-- The server is there, free at the instant the job starts but for waiting for the job. -/
  get_server : ∃ f, free[x.server]? = some f ∧ (∀ t ∈ free, f ≤ t) ∧ x.start = max f x.arrival
  start_le : x.start ≤ x.finish
  next : free' = free.set x.server x.finish

/-- The jobs a bank of `c` servers has taken, in the order of their arrivals. -/
inductive Schedule [OrderBot τ] (c : ℕ) : List (Job τ) → List τ → Prop
  | nil : Schedule c [] (List.replicate c ⊥)
  | snoc {log : List (Job τ)} {free free' : List τ} {x : Job τ} :
      Schedule c log free → (∀ y ∈ log, y.arrival ≤ x.arrival) → Takes free x free' →
      Schedule c (log ++ [x]) free'

namespace Schedule

variable [OrderBot τ] {c : ℕ} {log : List (Job τ)} {free : List τ}

lemma length_eq (h : Schedule c log free) : free.length = c := by
  induction h with
  | nil => exact List.length_replicate
  | snoc _ _ htakes ih => rw [htakes.next, List.length_set, ih]

lemma server_lt (h : Schedule c log free) : ∀ x ∈ log, x.server < c := by
  induction h with
  | nil => exact fun x hx => absurd hx List.not_mem_nil
  | @snoc log free free' x hrest _ htakes ih =>
    intro y hy
    rcases List.mem_append.1 hy with hy | hy
    · exact ih y hy
    · rw [List.mem_singleton.1 hy, ← hrest.length_eq]
      obtain ⟨f, hget, -⟩ := htakes.get_server
      exact (List.getElem?_eq_some_iff.1 hget).1

lemma arrival_le (h : Schedule c log free) :
    ∀ x ∈ log, x.arrival ≤ x.start ∧ x.start ≤ x.finish := by
  induction h with
  | nil => exact fun x hx => absurd hx List.not_mem_nil
  | @snoc log free free' x _ _ htakes ih =>
    intro y hy
    rcases List.mem_append.1 hy with hy | hy
    · exact ih y hy
    · rw [List.mem_singleton.1 hy]
      obtain ⟨f, -, -, hstart⟩ := htakes.get_server
      exact ⟨hstart ▸ le_max_right _ _, htakes.start_le⟩

/-! ## The servers -/

/-- The server of a job is free again when the job is finished, if not later. -/
lemma finish_le (h : Schedule c log free) :
    ∀ x ∈ log, ∃ f, free[x.server]? = some f ∧ x.finish ≤ f := by
  induction h with
  | nil => exact fun x hx => absurd hx List.not_mem_nil
  | @snoc log free free' x _ _ htakes ih =>
    intro y hy
    obtain ⟨f, hget, -, hstart⟩ := htakes.get_server
    have hlt := (List.getElem?_eq_some_iff.1 hget).1
    rw [htakes.next]
    by_cases hsame : x.server = y.server
    · refine ⟨x.finish, by rw [← hsame, List.getElem?_set_self hlt], ?_⟩
      rcases List.mem_append.1 hy with hy | hy
      · obtain ⟨g, hg, hle⟩ := ih y hy
        rw [← hsame, hget] at hg
        cases hg
        exact (hle.trans (hstart ▸ le_max_left _ _)).trans htakes.start_le
      · rw [List.mem_singleton.1 hy]
    · rcases List.mem_append.1 hy with hy | hy
      · obtain ⟨g, hg, hle⟩ := ih y hy
        exact ⟨g, by rw [List.getElem?_set_ne hsame, hg], hle⟩
      · exact absurd (congrArg Job.server (List.mem_singleton.1 hy)).symm hsame

lemma exists_finish (h : Schedule c log free) :
    ∀ t ∈ free, t = ⊥ ∨ ∃ x ∈ log, x.finish = t := by
  induction h with
  | nil => exact fun t ht => .inl (List.eq_of_mem_replicate ht)
  | @snoc log free free' x _ _ htakes ih =>
    intro t ht
    rw [htakes.next] at ht
    rcases List.mem_or_eq_of_mem_set ht with ht | rfl
    · exact (ih t ht).imp_right fun ⟨y, hy, heq⟩ => ⟨y, List.mem_append_left _ hy, heq⟩
    · exact .inr ⟨x, List.mem_append_right _ List.mem_cons_self, rfl⟩

lemma pairwise_server (h : Schedule c log free) :
    log.Pairwise fun x y => x.server = y.server → x.finish ≤ y.start := by
  induction h with
  | nil => exact List.Pairwise.nil
  | @snoc log free free' x hrest _ htakes ih =>
    refine List.pairwise_append.2 ⟨ih, List.pairwise_singleton _ _, fun y hy z hz hsame => ?_⟩
    cases List.mem_singleton.1 hz
    obtain ⟨f, hget, -, hstart⟩ := htakes.get_server
    obtain ⟨g, hg, hle⟩ := hrest.finish_le y hy
    rw [hsame, hget] at hg
    cases hg
    exact hle.trans (hstart ▸ le_max_left _ _)

/-! ## The order of the jobs -/

/-- The next job starts no earlier than those before it. -/
lemma start_le_max (h : Schedule c log free) : ∀ x ∈ log, ∀ a, x.arrival ≤ a →
    ∀ f ∈ free, (∀ t ∈ free, f ≤ t) → x.start ≤ max f a := by
  induction h with
  | nil => exact fun x hx => absurd hx List.not_mem_nil
  | @snoc log free free' x hrest harrival htakes ih =>
    obtain ⟨g, hget, hmin, hstart⟩ := htakes.get_server
    intro y hy a ha f hf hfmin
    -- The first free instant has not moved back.
    have hgf : g ≤ f := by
      rw [htakes.next] at hf
      rcases List.mem_or_eq_of_mem_set hf with hf | rfl
      · exact hmin f hf
      · exact (hstart ▸ le_max_left _ _ : g ≤ x.start).trans htakes.start_le
    rcases List.mem_append.1 hy with hy | hy
    · obtain ⟨hi, hgi⟩ := List.getElem?_eq_some_iff.1 hget
      exact (ih y hy a ha g (hgi ▸ List.getElem_mem hi) hmin).trans (max_le_max_right a hgf)
    · rw [List.mem_singleton.1 hy] at ha ⊢
      rw [hstart]
      exact max_le_max hgf ha

/-- **Jobs start in the order they arrive.** -/
lemma pairwise_start (h : Schedule c log free) :
    log.Pairwise fun x y => x.start ≤ y.start := by
  induction h with
  | nil => exact List.Pairwise.nil
  | @snoc log free free' x hrest harrival htakes ih =>
    refine List.pairwise_append.2 ⟨ih, List.pairwise_singleton _ _, fun y hy z hz => ?_⟩
    cases List.mem_singleton.1 hz
    obtain ⟨f, hget, hmin, hstart⟩ := htakes.get_server
    obtain ⟨hi, hfi⟩ := List.getElem?_eq_some_iff.1 hget
    rw [hstart]
    exact hrest.start_le_max y hy x.arrival (harrival y hy) f (hfi ▸ List.getElem_mem hi) hmin

/-! ## How many jobs there are at a time -/

/-- The servers held at an instant. -/
def heldAt (log : List (Job τ)) (t : τ) : List ℕ :=
  (log.filter fun x => decide (x.During t)).map Job.server

lemma nodup_heldAt (h : Schedule c log free) (t : τ) : (heldAt log t).Nodup := by
  have hdistinct : (log.filter fun x => decide (x.During t)).Pairwise
      fun x y => x.server ≠ y.server := by
    refine (h.pairwise_server.filter _).imp_of_mem fun hx hy hle hsame => ?_
    have hx' := of_decide_eq_true (List.mem_filter.1 hx).2
    have hy' := of_decide_eq_true (List.mem_filter.1 hy).2
    exact absurd ((hx'.2.trans_le (hle hsame)).trans_le hy'.1) (lt_irrefl t)
  exact List.pairwise_map.2 hdistinct

omit [OrderBot τ] in
lemma countP_eq_length_heldAt (log : List (Job τ)) (t : τ) :
    log.countP (fun x => decide (x.During t)) = (heldAt log t).length := by
  rw [heldAt, List.length_map, List.countP_eq_length_filter]

lemma mem_heldAt_lt (h : Schedule c log free) {t : τ} {i : ℕ} (hi : i ∈ heldAt log t) :
    i < c := by
  obtain ⟨x, hx, rfl⟩ := List.mem_map.1 hi
  exact h.server_lt x (List.mem_filter.1 hx).1

/-- **No more jobs at a time than servers.** -/
lemma countP_le (h : Schedule c log free) (t : τ) :
    log.countP (fun x => decide (x.During t)) ≤ c := by
  rw [countP_eq_length_heldAt, ← List.toFinset_card_of_nodup (h.nodup_heldAt t)]
  calc (heldAt log t).toFinset.card ≤ (Finset.range c).card := Finset.card_le_card fun i hi =>
        Finset.mem_range.2 (h.mem_heldAt_lt (List.mem_toFinset.1 hi))
    _ = c := Finset.card_range c

/-- A server that is not free, at an instant after all arrivals, is held by a job. -/
lemma mem_heldAt (h : Schedule c log free) : ∀ t, (∀ x ∈ log, x.arrival ≤ t) → ∀ (i : ℕ) (f : τ),
    free[i]? = some f → t < f → i ∈ heldAt log t := by
  induction h with
  | nil =>
    intro t _ i f hf hlt
    rw [List.eq_of_mem_replicate (List.mem_of_getElem? hf)] at hlt
    exact absurd hlt not_lt_bot
  | @snoc log free free' x hrest harrival htakes ih =>
    intro t ht i f hf hlt
    obtain ⟨g, hget, -, hstart⟩ := htakes.get_server
    have hlog : ∀ y ∈ log, y.arrival ≤ t := fun y hy => ht y (List.mem_append_left _ hy)
    have hold : i ∈ heldAt log t → i ∈ heldAt (log ++ [x]) t := fun hi => by
      obtain ⟨y, hy, heq⟩ := List.mem_map.1 hi
      refine List.mem_map.2 ⟨y, ?_, heq⟩
      rw [List.filter_append]
      exact List.mem_append_left _ hy
    rw [htakes.next] at hf
    by_cases hsame : x.server = i
    · subst hsame
      rw [List.getElem?_set_self (List.getElem?_eq_some_iff.1 hget).1] at hf
      cases hf
      by_cases hbegun : x.start ≤ t
      · refine List.mem_map.2 ⟨x, List.mem_filter.2 ⟨?_, decide_eq_true ⟨hbegun, hlt⟩⟩, rfl⟩
        exact List.mem_append_right _ List.mem_cons_self
      · -- The job is there, so it is the server it waits for.
        have harr : x.arrival ≤ t := ht x (List.mem_append_right _ List.mem_cons_self)
        rw [hstart, max_le_iff, not_and'] at hbegun
        exact hold (ih t hlog x.server g hget (not_le.1 (hbegun harr)))
    · rw [List.getElem?_set_ne hsame] at hf
      exact hold (ih t hlog i f hf hlt)

lemma countP_of_lt (h : Schedule c log free) {t : τ} (ht : ∀ x ∈ log, x.arrival ≤ t)
    (hbusy : ∀ f ∈ free, t < f) : log.countP (fun x => decide (x.During t)) = c := by
  refine le_antisymm (h.countP_le t) ?_
  rw [countP_eq_length_heldAt, ← List.toFinset_card_of_nodup (h.nodup_heldAt t)]
  calc c = (Finset.range c).card := (Finset.card_range c).symm
    _ ≤ (heldAt log t).toFinset.card := Finset.card_le_card fun i hi => by
        have hlt : i < free.length := h.length_eq ▸ Finset.mem_range.1 hi
        exact List.mem_toFinset.2 (h.mem_heldAt t ht i _ (List.getElem?_eq_getElem hlt)
          (hbusy _ (List.getElem_mem hlt)))

/-- **A job waits only while all servers are held.** -/
lemma countP_of_waiting (h : Schedule c log free) : ∀ x ∈ log, ∀ t, x.arrival ≤ t →
    t < x.start → log.countP (fun y => decide (y.During t)) = c := by
  induction h with
  | nil => exact fun x hx => absurd hx List.not_mem_nil
  | @snoc log free free' x hrest harrival htakes ih =>
    intro y hy t hty hlt
    have hbound := (hrest.snoc harrival htakes).countP_le t
    refine le_antisymm hbound ?_
    rw [List.countP_append]
    rcases List.mem_append.1 hy with hy | hy
    · rw [ih y hy t hty hlt]
      exact Nat.le_add_right _ _
    · rw [List.mem_singleton.1 hy] at hty hlt
      obtain ⟨f, hget, hmin, hstart⟩ := htakes.get_server
      have htf : t < f := by
        rw [hstart] at hlt
        exact (lt_max_iff.1 hlt).resolve_right hty.not_gt
      rw [hrest.countP_of_lt (fun z hz => (harrival z hz).trans hty) fun g hg => htf.trans_le
        (hmin g hg)]
      exact Nat.le_add_right _ _

end Schedule

end Fcfs

/-! ## The bank alone -/

namespace Servers

variable {τ : Type*} [LinearOrder τ]

/-- The instant at which the first server is free. -/
def earliest (free : List τ) (h : 0 < free.length) : τ := free.minimum_of_length_pos h

/-- The first server free first is busy until `finish`. -/
def assign (free : List τ) (h : 0 < free.length) (finish : τ) : List τ :=
  free.set (free.idxOf (earliest free h)) finish

lemma earliest_mem (free : List τ) (h : 0 < free.length) :
    earliest free h ∈ free :=
  List.minimum_of_length_pos_mem h

lemma earliest_le {free : List τ} (h : 0 < free.length) {t : τ} (ht : t ∈ free) :
    earliest free h ≤ t := List.minimum_of_length_pos_le_of_mem ht h

lemma length_assign_pos {free : List τ} (h : 0 < free.length) (finish : τ) :
    0 < (assign free h finish).length := by
  simpa [assign] using h

lemma earliest_mono {free free' : List τ} (h : 0 < free.length) (h' : 0 < free'.length)
    (hle : ∀ t ∈ free', earliest free h ≤ t) : earliest free h ≤ earliest free' h' :=
  hle _ (earliest_mem free' h')

lemma earliest_le_assign {free : List τ} (h : 0 < free.length) {finish : τ}
    (hfin : earliest free h ≤ finish) :
    earliest free h ≤ earliest (assign free h finish) (length_assign_pos h finish) := by
  refine earliest_mono h _ fun t ht => ?_
  rcases List.mem_or_eq_of_mem_set ht with hmem | rfl
  · exact earliest_le h hmem
  · exact hfin

end Servers
