import V2xw.Lib.OrdMap
import Mathlib.Algebra.Order.Monoid.Defs
import Mathlib.Data.List.Sort
import Mathlib.Data.Prod.Lex

/-!
# Shortest paths by settling nodes

The search for a shortest path in a directed graph with arcs of non-negative cost. The frontier is a
queue of costs with nodes, least first. A node that gets cheaper is queued once more, and the
entries that this makes obsolete are dropped when they come up. The search settles a bounded number
of nodes.

## Main definitions

* `ShortestPath.Walk` — the walks from a source, with what they cost.
* `ShortestPath.Search`, `ShortestPath.relax`, `ShortestPath.run` — the search.
* `ShortestPath.Trace` — the path that the recorded predecessors of a node spell out.

## Main results

* `ShortestPath.Core.relax`, `ShortestPath.Core.pop` — what the two parts of a round preserve.
* `ShortestPath.Inv.least` — no walk is cheaper than what is queued.
* `ShortestPath.run_spec` — the search finds the cheapest walk, or there is none, or as many nodes
  as it may settle are no dearer.
-/

namespace ShortestPath

variable {α K : Type}

/-! ## The search -/

/-- What a queued entry costs. -/
def cost (e : K ×ₗ α) : K := (ofLex e).1

/-- The node of a queued entry. -/
def node (e : K ×ₗ α) : α := (ofLex e).2

lemma eq_of_node_of_cost {e e' : K ×ₗ α} (hnode : node e = node e') (hcost : cost e = cost e') :
    e = e' :=
  ofLex.injective (Prod.ext hcost hnode)

lemma mem_dropWhile {β : Type} {p : β → Bool} {l : List β} {x : β} (hx : x ∈ l)
    (hp : p x = false) :
    x ∈ l.dropWhile p := by
  rw [← List.takeWhile_append_dropWhile (p := p) (l := l)] at hx
  rcases List.mem_append.1 hx with hx | hx
  · exact absurd (List.all_eq_true.1 List.all_takeWhile x hx) (by rw [hp]; exact Bool.false_ne_true)
  · exact hx

variable [LinearOrder α]

/-- The costs known so far, the predecessors that gave them, and the frontier. -/
structure Search (α K : Type) [LinearOrder α] where
  best : OrdMap α K
  previous : OrdMap α α
  heap : List (K ×ₗ α)

section Rounds

variable [LinearOrder K]

/-- A cost is better than the known one. -/
def Search.improves (s : Search α K) (v : α) (candidate : K) : Bool :=
  match s.best[v]? with
  | none => true
  | some current => candidate < current

/-- A node is known to cost less than a queued entry says. -/
def stale (best : OrdMap α K) (e : K ×ₗ α) : Bool :=
  match best[node e]? with
  | none => false
  | some b => b < cost e

/-- A node becomes known, or cheaper, through another. -/
def Search.lower (s : Search α K) (u v : α) (candidate : K) : Search α K :=
  ⟨s.best.insert v candidate, s.previous.insert v u,
    s.heap.orderedInsert (· ≤ ·) (toLex (candidate, v))⟩

/-- The search before the first round. -/
def Search.init (source : α) (start : K) : Search α K :=
  ⟨(∅ : OrdMap α K).insert source start, ∅, [toLex (start, source)]⟩

section Add

variable [Add K]

/-- An arc out of a node of known cost. -/
def relax (u : α) (c : K) (s : Search α K) (a : α × K) : Search α K :=
  if s.improves a.1 (c + a.2) then s.lower u a.1 (c + a.2) else s

/-- Settles at most `n` nodes: the cost of the target with the predecessors, `none` if the frontier
or the bound runs out first. -/
def run (arcs : α → List (α × K)) (target : α) : ℕ → Search α K → Option (K × OrdMap α α)
  | n, s =>
    match s.heap.dropWhile (stale s.best) with
    | [] => none
    | e :: heap =>
      if node e = target then some (cost e, s.previous)
      else
        match n with
        | 0 => none
        | n + 1 => run arcs target n
            ((arcs (node e)).foldl (relax (node e) (cost e)) { s with heap := heap })

end Add

section Lookups

variable {s : Search α K}

lemma get_lower (u v w : α) (c : K) :
    (s.lower u v c).best[w]? = if v = w then some c else s.best[w]? :=
  OrdMap.get_insert _ _ _ _

lemma previous_lower (u v w : α) (c : K) :
    (s.lower u v c).previous[w]? = if v = w then some u else s.previous[w]? :=
  OrdMap.get_insert _ _ _ _

lemma lt_of_improves {v : α} {c d : K} (h : s.improves v c) (hd : s.best[v]? = some d) :
    c < d := by
  rw [Search.improves, hd] at h
  exact of_decide_eq_true h

lemma stale_eq_false {best : OrdMap α K} {v : α} {d : K} (h : best[v]? = some d) :
    stale best (toLex (d, v)) = false := by
  have hnode : node (toLex (d, v)) = v := rfl
  rw [stale, hnode, h]
  exact decide_eq_false (lt_irrefl d)

end Lookups

end Rounds

/-! ## Walks -/

section Walks

variable [AddCommMonoid K] (arcs : α → List (α × K)) (source : α) (start : K)

/-- A walk from the source to a node, with its cost and its nodes from the end. -/
inductive Walk : α → K → List α → Prop
  | source : Walk source start [source]
  | arc {u v : α} {c step : K} {l : List α} : Walk u c l → (v, step) ∈ arcs u →
      Walk v (c + step) (v :: l)

/-- The path to a node along the recorded predecessors, from its end, with its cost. -/
inductive Trace (previous : OrdMap α α) : α → K → List α → Prop
  | source : Trace previous source start [source]
  | arc {u v : α} {c step : K} {l : List α} : Trace previous u c l → previous[v]? = some u →
      v ≠ source → (v, step) ∈ arcs u → Trace previous v (c + step) (v :: l)

end Walks

section Traces

variable [AddCommMonoid K] {arcs : α → List (α × K)} {source target : α} {start : K}
  {previous previous' : OrdMap α α}

lemma Trace.walk {v : α} {c : K} {l : List α} (h : Trace arcs source start previous v c l) :
    Walk arcs source start v c l := by
  induction h with
  | source => exact .source
  | arc _ _ _ harc ih => exact ih.arc harc

lemma Trace.exists_cons {v : α} {c : K} {l : List α}
    (h : Trace arcs source start previous v c l) : ∃ t, l = v :: t := by
  cases h with
  | source => exact ⟨[], rfl⟩
  | arc => exact ⟨_, rfl⟩

lemma Trace.congr {v : α} {c : K} {l : List α} (h : Trace arcs source start previous v c l) :
    (∀ u ∈ l, previous'[u]? = previous[u]?) → Trace arcs source start previous' v c l := by
  induction h with
  | source => exact fun _ => .source
  | arc _ hprev hne harc ih =>
    intro hsame
    obtain ⟨hv, hl⟩ := List.forall_mem_cons.1 hsame
    exact .arc (ih hl) (hv.trans hprev) hne harc

lemma Trace.exists_previous {v : α} {c : K} {l : List α}
    (h : Trace arcs source start previous v c l) :
    ∀ u ∈ l, u ≠ source → ∃ p, previous[u]? = some p := by
  induction h with
  | source => exact fun u hu hne => absurd (List.mem_singleton.1 hu) hne
  | arc _ hprev _ _ ih => exact List.forall_mem_cons.2 ⟨fun _ => ⟨_, hprev⟩, ih⟩

/-- A path along the predecessors has no more nodes than there are predecessors, and the source. -/
lemma Trace.length_le {v : α} {c : K} {l : List α} (h : Trace arcs source start previous v c l)
    (hnodup : l.Nodup) : l.length ≤ previous.size + 1 := by
  have hsub : l.toFinset.erase source ⊆ OrdMap.keySet previous := by
    intro u hu
    obtain ⟨hne, hu⟩ := Finset.mem_erase.1 hu
    exact OrdMap.mem_keySet.2 (h.exists_previous u (List.mem_toFinset.1 hu) hne)
  have hcard := Finset.card_le_card hsub
  have herase := Finset.pred_card_le_card_erase (s := l.toFinset) (a := source)
  rw [OrdMap.card_keySet] at hcard
  rw [List.toFinset_card_of_nodup hnodup] at herase
  omega

end Traces

/-! ## What a round preserves -/

section Rounds

variable [AddCommMonoid K] [LinearOrder K] {arcs : α → List (α × K)} {source target : α}
  {start : K}

variable (arcs source start) in
/-- The nodes settled so far, none of them dearer than the floor, and a frontier above it. -/
structure Core (settled : List α) (floor : K) (s : Search α K) : Prop where
  nodup : settled.Nodup
  known : s.best[source]? = some start
  traced : ∀ v d, s.best[v]? = some d →
    ∃ l, Trace arcs source start s.previous v d l ∧ l.Nodup ∧ ∀ u ∈ l, u = v ∨ u ∈ settled
  labelled : ∀ u ∈ settled, ∃ d ≤ floor, s.best[u]? = some d
  floor_le : ∀ e ∈ s.heap, floor ≤ cost e
  queued : ∀ v d, s.best[v]? = some d → v ∉ settled → toLex (d, v) ∈ s.heap
  above : ∀ e ∈ s.heap, ∃ d ≤ cost e, s.best[node e]? = some d ∧ (node e ∈ settled → d < cost e)
  sorted : s.heap.Pairwise (· ≤ ·)
  distinct : s.heap.Nodup

variable (arcs) in
/-- The arcs out of a settled node have been relaxed. -/
def Closed (settled : List α) (s : Search α K) : Prop :=
  ∀ u ∈ settled, ∀ d, s.best[u]? = some d → ∀ a ∈ arcs u, ∃ d' ≤ d + a.2, s.best[a.1]? = some d'

variable {settled : List α} {floor : K} {s s' : Search α K}

omit [LinearOrder α] in
lemma Walk.start_le [IsOrderedAddMonoid K] (hnonneg : ∀ u, ∀ a ∈ arcs u, 0 ≤ a.2) {v : α}
    {c : K} {l : List α} (h : Walk arcs source start v c l) : start ≤ c := by
  induction h with
  | source => exact le_rfl
  | arc _ harc ih => exact ih.trans (le_add_of_nonneg_right (hnonneg _ _ harc))

/-- A node that gets cheaper is not settled, and keeps everything in order. -/
lemma Core.lower [IsOrderedAddMonoid K] (h : Core arcs source start settled floor s)
    (hnonneg : ∀ u, ∀ a ∈ arcs u, 0 ≤ a.2) {u : α} (hu : u ∈ settled)
    (hfloor : s.best[u]? = some floor) {a : α × K} (ha : a ∈ arcs u)
    (himproves : s.improves a.1 (floor + a.2)) :
    a.1 ∉ settled ∧ Core arcs source start settled floor (s.lower u a.1 (floor + a.2)) := by
  obtain ⟨v, step⟩ := a
  have hge : floor ≤ floor + step := le_add_of_nonneg_right (hnonneg u _ ha)
  have hunsettled : v ∉ settled := by
    intro hv
    obtain ⟨d, hd, hbest⟩ := h.labelled v hv
    exact absurd (lt_of_improves himproves hbest) (not_lt.2 (hd.trans hge))
  obtain ⟨lu, htrace, hnodup, hlu⟩ := h.traced u floor hfloor
  have hsource : v ≠ source := by
    rintro rfl
    exact absurd (lt_of_improves himproves h.known)
      (not_lt.2 ((htrace.walk.start_le hnonneg).trans hge))
  -- the paths of the other nodes do not go through this one
  have hsame : ∀ (w : α) (l : List α), (∀ x ∈ l, x = w ∨ x ∈ settled) → w ≠ v →
      ∀ x ∈ l, (s.lower u v (floor + step)).previous[x]? = s.previous[x]? := by
    intro w l hl hw x hx
    rw [previous_lower, if_neg]
    rintro rfl
    exact (hl _ hx).elim (fun h => hw h.symm) hunsettled
  have hnew : toLex (floor + step, v) ∉ s.heap := by
    intro hmem
    obtain ⟨d, hd, hbest, _⟩ := h.above _ hmem
    exact absurd (lt_of_improves himproves hbest) (not_lt.2 hd)
  refine ⟨hunsettled, ⟨h.nodup, ?_, ?_, ?_, ?_, ?_, ?_, ?_, ?_⟩⟩
  · rw [get_lower, if_neg hsource]
    exact h.known
  · intro w d hd
    rw [get_lower] at hd
    split_ifs at hd with hw
    · obtain rfl := Option.some.inj hd
      subst hw
      have hlu' : ∀ x ∈ lu, x ∈ settled := fun x hx => (hlu x hx).elim (fun h => h ▸ hu) id
      refine ⟨v :: lu, .arc (htrace.congr (hsame u lu hlu fun h => hunsettled (h ▸ hu)))
        ?_ hsource ha,
        List.nodup_cons.2 ⟨fun hv => hunsettled (hlu' v hv), hnodup⟩, ?_⟩
      · rw [previous_lower, if_pos rfl]
      · exact List.forall_mem_cons.2 ⟨.inl rfl, fun x hx => .inr (hlu' x hx)⟩
    · obtain ⟨l, ht, hn, hl⟩ := h.traced w d hd
      exact ⟨l, ht.congr (hsame w l hl (Ne.symm hw)), hn, hl⟩
  · intro w hw
    rw [get_lower, if_neg fun hv : v = w => hunsettled (hv ▸ hw)]
    exact h.labelled w hw
  · intro e he
    rcases List.mem_orderedInsert (· ≤ ·) |>.1 he with rfl | he
    · exact hge
    · exact h.floor_le e he
  · intro w d hd hw
    rw [get_lower] at hd
    refine (List.mem_orderedInsert (· ≤ ·)).2 ?_
    split_ifs at hd with hvw
    · obtain rfl := Option.some.inj hd
      exact .inl (by rw [hvw])
    · exact .inr (h.queued w d hd hw)
  · intro e he
    rcases List.mem_orderedInsert (· ≤ ·) |>.1 he with rfl | he
    · refine ⟨floor + step, le_rfl, ?_, fun hv => absurd hv hunsettled⟩
      rw [get_lower]
      exact if_pos rfl
    · obtain ⟨d, hd, hbest, hstale⟩ := h.above e he
      by_cases hv : v = node e
      · refine ⟨floor + step, ?_, by rw [get_lower, if_pos hv],
          fun hsettled => absurd (hv ▸ hsettled) hunsettled⟩
        exact ((lt_of_improves himproves (hv ▸ hbest)).trans_le hd).le
      · exact ⟨d, hd, by rwa [get_lower, if_neg hv], hstale⟩
  · exact List.Pairwise.orderedInsert _ _ h.sorted
  · exact (List.perm_orderedInsert _ _ _).nodup_iff.2 (List.nodup_cons.2 ⟨hnew, h.distinct⟩)

/-- The known costs have only gone down. -/
def Search.Below (s' s : Search α K) : Prop :=
  ∀ (v : α) (d : K), s.best[v]? = some d → ∃ d' ≤ d, s'.best[v]? = some d'

/-- **Relaxing the arcs of a node** that has just been settled. -/
lemma Core.relax [IsOrderedAddMonoid K] (h : Core arcs source start settled floor s)
    (hnonneg : ∀ u, ∀ a ∈ arcs u, 0 ≤ a.2) {u : α} (hu : u ∈ settled)
    (hfloor : s.best[u]? = some floor) {a : α × K} (ha : a ∈ arcs u) :
    Core arcs source start settled floor (ShortestPath.relax u floor s a) ∧
      (ShortestPath.relax u floor s a).Below s ∧
      (∀ w ∈ settled, (ShortestPath.relax u floor s a).best[w]? = s.best[w]?) ∧
      ∃ d ≤ floor + a.2, (ShortestPath.relax u floor s a).best[a.1]? = some d := by
  unfold ShortestPath.relax
  split_ifs with himproves
  · obtain ⟨hunsettled, hcore⟩ := h.lower hnonneg hu hfloor ha himproves
    refine ⟨hcore, fun v d hd => ?_, fun w hw => ?_, floor + a.2, le_rfl, ?_⟩
    · rw [get_lower]
      split_ifs with hv
      · exact ⟨_, (lt_of_improves himproves (hv ▸ hd)).le, rfl⟩
      · exact ⟨d, le_rfl, hd⟩
    · rw [get_lower, if_neg fun hv : a.1 = w => hunsettled (hv ▸ hw)]
    · rw [get_lower, if_pos rfl]
  · refine ⟨h, fun v d hd => ⟨d, le_rfl, hd⟩, fun _ _ => rfl, ?_⟩
    rw [Search.improves] at himproves
    cases hbest : s.best[a.1]? with
    | none => exact absurd (by rw [hbest]) himproves
    | some d =>
      rw [hbest] at himproves
      exact ⟨d, not_lt.1 fun hlt => himproves (decide_eq_true hlt), rfl⟩

lemma Core.foldl_relax [IsOrderedAddMonoid K] (hnonneg : ∀ u, ∀ a ∈ arcs u, 0 ≤ a.2) {u : α}
    (hu : u ∈ settled) (as : List (α × K)) : ∀ {s : Search α K},
    Core arcs source start settled floor s → s.best[u]? = some floor → as ⊆ arcs u →
      Core arcs source start settled floor (as.foldl (ShortestPath.relax u floor) s) ∧
        (as.foldl (ShortestPath.relax u floor) s).Below s ∧
        (∀ w ∈ settled, (as.foldl (ShortestPath.relax u floor) s).best[w]? = s.best[w]?) ∧
        ∀ a ∈ as, ∃ d ≤ floor + a.2,
          (as.foldl (ShortestPath.relax u floor) s).best[a.1]? = some d := by
  induction as with
  | nil =>
    exact fun h _ _ => ⟨h, fun v d hd => ⟨d, le_rfl, hd⟩, fun _ _ => rfl,
      fun _ h => absurd h List.not_mem_nil⟩
  | cons a as ih =>
    intro s h hfloor hsub
    obtain ⟨ha, hsub⟩ := List.cons_subset.1 hsub
    obtain ⟨hcore, hbelow, hsame, d, hd, hbest⟩ := h.relax hnonneg hu hfloor ha
    obtain ⟨hcore', hbelow', hsame', hrelaxed⟩ := ih hcore ((hsame u hu).trans hfloor) hsub
    refine ⟨hcore', fun v d hd => ?_, fun w hw => (hsame' w hw).trans (hsame w hw),
      List.forall_mem_cons.2 ⟨?_, hrelaxed⟩⟩
    · obtain ⟨d₁, hle₁, hd₁⟩ := hbelow v d hd
      obtain ⟨d₂, hle₂, hd₂⟩ := hbelow' v d₁ hd₁
      exact ⟨d₂, hle₂.trans hle₁, hd₂⟩
    · obtain ⟨d', hle, hd'⟩ := hbelow' _ d hbest
      exact ⟨d', hle.trans hd, hd'⟩

/-- **Settling the least entry** that is not stale. -/
lemma Core.pop (h : Core arcs source start settled floor s) {e : K ×ₗ α} {heap : List (K ×ₗ α)}
    (hpop : s.heap.dropWhile (stale s.best) = e :: heap) :
    s.best[node e]? = some (cost e) ∧ node e ∉ settled ∧ floor ≤ cost e ∧
      (∀ v d, s.best[v]? = some d → v ∉ settled → cost e ≤ d) ∧
      Core arcs source start (node e :: settled) (cost e) { s with heap := heap } := by
  have hsub : (e :: heap).Sublist s.heap := hpop ▸ List.dropWhile_sublist _
  have he : e ∈ s.heap := hsub.subset List.mem_cons_self
  have hfresh : stale s.best e = false := by
    have hhead := List.head?_dropWhile_not (stale s.best) s.heap
    rw [hpop] at hhead
    exact hhead
  obtain ⟨d, hd, hbest, hstale⟩ := h.above e he
  rw [stale, hbest] at hfresh
  obtain rfl : d = cost e := le_antisymm hd (not_lt.1 (of_decide_eq_false hfresh))
  have hunsettled : node e ∉ settled := fun hmem => lt_irrefl _ (hstale hmem)
  have hfloor := h.floor_le e he
  have hsorted := h.sorted.sublist hsub
  have hdistinct := h.distinct.sublist hsub
  have hleast : ∀ e' ∈ heap, cost e ≤ cost e' := fun e' he' =>
    Prod.Lex.monotone_fst_ofLex (List.rel_of_pairwise_cons hsorted he')
  have hqueued : ∀ v d, s.best[v]? = some d → v ∉ settled → toLex (d, v) ∈ e :: heap :=
    fun v d hv hmem => hpop ▸ mem_dropWhile (h.queued v d hv hmem) (stale_eq_false hv)
  refine ⟨hbest, hunsettled, hfloor, fun v d hv hmem => ?_,
    List.nodup_cons.2 ⟨hunsettled, h.nodup⟩, h.known, ?_, ?_, hleast, ?_, ?_, hsorted.of_cons,
    hdistinct.of_cons⟩
  · rcases List.mem_cons.1 (hqueued v d hv hmem) with heq | hmem
    · exact (congrArg cost heq).ge
    · exact hleast _ hmem
  · intro v c hv
    obtain ⟨l, ht, hn, hl⟩ := h.traced v c hv
    exact ⟨l, ht, hn, fun u hu => (hl u hu).imp_right (List.mem_cons_of_mem _)⟩
  · refine List.forall_mem_cons.2 ⟨⟨cost e, le_rfl, hbest⟩, fun u hu => ?_⟩
    obtain ⟨c, hc, hu⟩ := h.labelled u hu
    exact ⟨c, hc.trans hfloor, hu⟩
  · intro v c hv hmem
    refine (List.mem_cons.1 (hqueued v c hv fun hs => hmem (List.mem_cons_of_mem _ hs))).resolve_left
      fun heq => hmem ?_
    rw [← heq]
    exact List.mem_cons_self
  · intro e' he'
    obtain ⟨c, hc, hbest', hstale'⟩ := h.above e' (hsub.subset (List.mem_cons_of_mem _ he'))
    refine ⟨c, hc, hbest', fun hmem => ?_⟩
    rcases List.mem_cons.1 hmem with heq | hmem
    · -- an entry of the settled node that was queued at another cost
      obtain rfl : cost e = c := Option.some.inj (hbest.symm.trans (heq ▸ hbest'))
      refine lt_of_le_of_ne hc fun hcost => (List.nodup_cons.1 hdistinct).1 ?_
      rwa [eq_of_node_of_cost heq.symm hcost]
    · exact hstale' hmem

/-! ## The search -/

variable (arcs source start) in
/-- The invariant of the rounds. -/
structure Inv (settled : List α) (floor : K) (s : Search α K) : Prop where
  core : Core arcs source start settled floor s
  closed : Closed arcs settled s

lemma inv_init : Inv arcs source start [] start (Search.init source start) := by
  have hget : ∀ v : α, (Search.init source start).best[v]? =
      if source = v then some start else none := by
    intro v
    rw [Search.init, OrdMap.get_insert, Std.ExtTreeMap.getElem?_empty]
  refine ⟨⟨List.nodup_nil, ?_, ?_, fun _ h => absurd h List.not_mem_nil, ?_, ?_, ?_,
    List.pairwise_singleton _ _, List.nodup_singleton _⟩, fun _ h => absurd h List.not_mem_nil⟩
  · rw [hget, if_pos rfl]
  · intro v d hd
    rw [hget] at hd
    split_ifs at hd with hv
    obtain rfl := Option.some.inj hd
    subst hv
    exact ⟨[source], .source, List.nodup_singleton _, fun u hu => .inl (List.mem_singleton.1 hu)⟩
  · intro e he
    obtain rfl := List.mem_singleton.1 he
    exact le_rfl
  · intro v d hd _
    rw [hget] at hd
    split_ifs at hd with hv
    obtain rfl := Option.some.inj hd
    subst hv
    exact List.mem_singleton_self _
  · intro e he
    obtain rfl := List.mem_singleton.1 he
    exact ⟨start, le_rfl, (hget source).trans (if_pos rfl), fun h => absurd h List.not_mem_nil⟩

/-- **No walk is cheaper** than what the search knows of its end, or of a node that is not settled.

**Proof sketch.** Induction on the walk. As long as its end is settled, the arc out of it has been
relaxed. -/
lemma Inv.least [IsOrderedAddMonoid K] (h : Inv arcs source start settled floor s)
    (hnonneg : ∀ u, ∀ a ∈ arcs u, 0 ≤ a.2) {v : α} {c : K} {l : List α}
    (hwalk : Walk arcs source start v c l) :
    (v ∈ settled ∧ ∃ d ≤ c, s.best[v]? = some d) ∨
      ∃ u ∉ settled, ∃ d ≤ c, s.best[u]? = some d := by
  have hcase : ∀ (v : α) (c : K), (∃ d ≤ c, s.best[v]? = some d) →
      (v ∈ settled ∧ ∃ d ≤ c, s.best[v]? = some d) ∨
        ∃ u ∉ settled, ∃ d ≤ c, s.best[u]? = some d := by
    intro v c hd
    by_cases hv : v ∈ settled
    · exact .inl ⟨hv, hd⟩
    · exact .inr ⟨v, hv, hd⟩
  induction hwalk with
  | source => exact hcase _ _ ⟨start, le_rfl, h.core.known⟩
  | @arc u w c step l _ harc ih =>
    rcases ih with ⟨hu, d, hd, hbest⟩ | ⟨u', hu', d, hd, hbest⟩
    · obtain ⟨d', hd', hw⟩ := h.closed u hu d hbest _ harc
      exact hcase w _ ⟨d', hd'.trans (by gcongr), hw⟩
    · exact .inr ⟨u', hu', d, hd.trans (le_add_of_nonneg_right (hnonneg u _ harc)), hbest⟩

/-- A round: the least entry is settled and its arcs are relaxed. -/
lemma Inv.round [IsOrderedAddMonoid K] (h : Inv arcs source start settled floor s)
    (hnonneg : ∀ u, ∀ a ∈ arcs u, 0 ≤ a.2) {e : K ×ₗ α} {heap : List (K ×ₗ α)}
    (hpop : s.heap.dropWhile (stale s.best) = e :: heap) :
    Inv arcs source start (node e :: settled) (cost e)
      ((arcs (node e)).foldl (ShortestPath.relax (node e) (cost e)) { s with heap := heap }) := by
  obtain ⟨hbest, _, _, _, hcore⟩ := h.core.pop hpop
  obtain ⟨hcore', hbelow, hsame, hrelaxed⟩ :=
    hcore.foldl_relax hnonneg List.mem_cons_self (arcs (node e)) hbest (List.Subset.refl _)
  refine ⟨hcore', List.forall_mem_cons.2 ⟨fun d hd a ha => ?_, fun u hu d hd a ha => ?_⟩⟩
  · rw [hsame _ List.mem_cons_self] at hd
    obtain rfl : cost e = d := Option.some.inj (hbest.symm.trans hd)
    exact hrelaxed a ha
  · rw [hsame u (List.mem_cons_of_mem _ hu)] at hd
    obtain ⟨d₁, hle, hd₁⟩ := h.closed u hu d hd a ha
    obtain ⟨d₂, hle', hd₂⟩ := hbelow _ d₁ hd₁
    exact ⟨d₂, hle'.trans hle, hd₂⟩

variable (arcs source start target) in
/-- A node that a walk reaches at no more than any walk to the target costs. -/
def NoDearer (v : α) : Prop :=
  ∃ d l, Walk arcs source start v d l ∧ ∀ c l', Walk arcs source start target c l' → d ≤ c

lemma Inv.unreachable [IsOrderedAddMonoid K] (h : Inv arcs source start settled floor s)
    (hnonneg : ∀ u, ∀ a ∈ arcs u, 0 ≤ a.2) (htarget : target ∉ settled)
    (hempty : s.heap.dropWhile (stale s.best) = []) (c : K) (l : List α) :
    ¬ Walk arcs source start target c l := by
  intro hwalk
  rcases h.least hnonneg hwalk with ⟨hmem, _⟩ | ⟨u, hu, d, _, hbest⟩
  · exact htarget hmem
  · have hmem := mem_dropWhile (h.core.queued u d hbest hu) (stale_eq_false hbest)
    rw [hempty] at hmem
    exact List.not_mem_nil hmem

lemma Inv.cost_le [IsOrderedAddMonoid K] (h : Inv arcs source start settled floor s)
    (hnonneg : ∀ u, ∀ a ∈ arcs u, 0 ≤ a.2) (htarget : target ∉ settled) {e : K ×ₗ α}
    {heap : List (K ×ₗ α)} (hpop : s.heap.dropWhile (stale s.best) = e :: heap) {c : K} {l : List α}
    (hwalk : Walk arcs source start target c l) : cost e ≤ c := by
  obtain ⟨_, _, _, hleast, _⟩ := h.core.pop hpop
  rcases h.least hnonneg hwalk with ⟨hmem, _⟩ | ⟨u, hu, d, hd, hbest⟩
  · exact absurd hmem htarget
  · exact (hleast u d hbest hu).trans hd

lemma Inv.found [IsOrderedAddMonoid K] (h : Inv arcs source start settled floor s)
    (hnonneg : ∀ u, ∀ a ∈ arcs u, 0 ≤ a.2) (htarget : target ∉ settled) {e : K ×ₗ α}
    {heap : List (K ×ₗ α)} (hpop : s.heap.dropWhile (stale s.best) = e :: heap)
    (heq : node e = target) :
    (∃ l, Trace arcs source start s.previous target (cost e) l ∧ l.Nodup) ∧
      ∀ c l, Walk arcs source start target c l → cost e ≤ c := by
  obtain ⟨hbest, _⟩ := h.core.pop hpop
  obtain ⟨l, htrace, hnodup, _⟩ := h.core.traced _ _ (heq ▸ hbest)
  exact ⟨⟨l, htrace, hnodup⟩, fun _ _ hwalk => h.cost_le hnonneg htarget hpop hwalk⟩

lemma Inv.noDearer [IsOrderedAddMonoid K] (h : Inv arcs source start settled floor s)
    (hnonneg : ∀ u, ∀ a ∈ arcs u, 0 ≤ a.2) (htarget : target ∉ settled) {e : K ×ₗ α}
    {heap : List (K ×ₗ α)} (hpop : s.heap.dropWhile (stale s.best) = e :: heap) {u : α}
    (hu : u ∈ node e :: settled) : NoDearer arcs source target start u := by
  obtain ⟨_, _, _, _, hcore⟩ := h.core.pop hpop
  obtain ⟨d, hd, hbest⟩ := hcore.labelled u hu
  obtain ⟨l, htrace, _, _⟩ := hcore.traced u d hbest
  exact ⟨d, l, htrace.walk, fun _ _ hwalk => hd.trans (h.cost_le hnonneg htarget hpop hwalk)⟩

/-- **The search** finds a cheapest walk to the target. If it finds none then there is none, or the
bound has run out on nodes that are no dearer.

**Proof sketch.** Induction on the bound. The least entry that is not stale costs no more than any
walk to the target, since the target is not settled yet, and so does every settled node. If no entry
is left then every node that a walk reaches is settled. -/
lemma run_spec [IsOrderedAddMonoid K] (hnonneg : ∀ u, ∀ a ∈ arcs u, 0 ≤ a.2) (n : ℕ) :
    ∀ {settled : List α} {floor : K} {s : Search α K}, Inv arcs source start settled floor s →
      target ∉ settled →
      match run arcs target n s with
      | some (d, previous) =>
        (∃ l, Trace arcs source start previous target d l ∧ l.Nodup) ∧
          ∀ c l, Walk arcs source start target c l → d ≤ c
      | none => (∀ c l, ¬ Walk arcs source start target c l) ∨
          ∃ l : List α, l.Nodup ∧ l.length = settled.length + n + 1 ∧
            ∀ v ∈ l, v ≠ target ∧ NoDearer arcs source target start v := by
  induction n with
  | zero =>
    intro settled floor s h htarget
    rw [run]
    cases hpop : s.heap.dropWhile (stale s.best) with
    | nil => exact .inl (h.unreachable hnonneg htarget hpop)
    | cons e heap =>
      have hunsettled := (h.core.pop hpop).2.1
      dsimp only
      split_ifs with heq
      · exact h.found hnonneg htarget hpop heq
      · refine .inr ⟨node e :: settled, List.nodup_cons.2 ⟨hunsettled, h.core.nodup⟩, rfl,
          fun v hv => ⟨?_, h.noDearer hnonneg htarget hpop hv⟩⟩
        rintro rfl
        exact (List.mem_cons.1 hv).elim (fun h => heq h.symm) htarget
  | succ n ih =>
    intro settled floor s h htarget
    rw [run]
    cases hpop : s.heap.dropWhile (stale s.best) with
    | nil => exact .inl (h.unreachable hnonneg htarget hpop)
    | cons e heap =>
      dsimp only
      split_ifs with heq
      · exact h.found hnonneg htarget hpop heq
      · have hspec := ih (h.round hnonneg hpop) fun hmem =>
          (List.mem_cons.1 hmem).elim (fun h => heq h.symm) htarget
        have hlength : (node e :: settled).length + n + 1 = settled.length + (n + 1) + 1 := by
          rw [List.length_cons]
          omega
        rwa [hlength] at hspec

end Rounds

end ShortestPath
