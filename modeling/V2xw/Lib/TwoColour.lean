import V2xw.Lib.OrdMap
import Mathlib.Combinatorics.SimpleGraph.Connectivity.Connected

/-!
# Colouring a graph with two colours

Breadth-first search from one node after the other, in which each new node gets the other colour
than the one it is found from. On a graph that has a colouring with two colours the result is one:
on each component it agrees with any such colouring, or is the opposite everywhere.

## Main definitions

* `TwoColour.spread` — the search from a coloured queue.
* `TwoColour.colourAll` — the searches from all nodes.

## Main results

* `TwoColour.Inv.visit` — what a node that is found preserves.
* `TwoColour.spread_spec` — what a search comes to.
* `TwoColour.colourAll_spec` — what all searches come to.
-/

namespace TwoColour

variable {α : Type} [LinearOrder α]

/-! ## The searches -/

/-- A neighbour of a node of colour `c` is coloured and queued unless it has a colour. -/
def visit (c : UInt8) (s : OrdMap α UInt8 × List α) (next : α) : OrdMap α UInt8 × List α :=
  if s.1.contains next then s else (s.1.insert next (1 - c), s.2 ++ [next])

/-- The search in at most as many rounds as the fuel. -/
def spread (adj : α → List α) : ℕ → OrdMap α UInt8 → List α → Option (OrdMap α UInt8)
  | _, colour, [] => some colour
  | 0, _, _ :: _ => none
  | fuel + 1, colour, current :: queue =>
    match colour[current]? with
    | none => none
    | some c =>
      let s := (adj current).foldl (visit c) (colour, queue)
      spread adj fuel s.1 s.2

/-- The search from a node that has no colour yet. -/
def colourFrom (adj : α → List α) (fuel : ℕ) (colour : OrdMap α UInt8) (root : α) :
    Option (OrdMap α UInt8) :=
  if colour.contains root then some colour else spread adj fuel (colour.insert root 0) [root]

/-- The searches from all nodes. -/
def colourAll (adj : α → List α) (nodes : List α) : Option (OrdMap α UInt8) :=
  nodes.foldlM (colourFrom adj nodes.length) ∅

/-! ## What a search preserves -/

/-- A colouring in which neighbours differ. -/
def Proper (G : SimpleGraph α) (f : α → Bool) : Prop := ∀ a b, G.Adj a b → f a ≠ f b

/-- The invariant: every coloured node is reached from a root, and its neighbours are coloured
unless it is still open. On a component, the colours differ where any proper colouring does. -/
structure Inv (G : SimpleGraph α) (nodes roots : List α) (colour : OrdMap α UInt8)
    (opened : List α) : Prop where
  bit : ∀ (v : α) (c : UInt8), colour[v]? = some c → c = 0 ∨ c = 1
  known : ∀ (v : α) (c : UInt8), colour[v]? = some c → v ∈ nodes
  coloured : ∀ v ∈ opened, ∃ c : UInt8, colour[v]? = some c
  closed : ∀ (v : α) (c : UInt8), colour[v]? = some c → v ∉ opened → ∀ w, G.Adj v w →
    ∃ d : UInt8, colour[w]? = some d
  rooted : ∀ (v : α) (c : UInt8), colour[v]? = some c → ∃ r ∈ roots, G.Reachable r v
  agrees : ∀ f, Proper G f → ∀ (v w : α) (c d : UInt8), colour[v]? = some c →
    colour[w]? = some d → G.Reachable v w → (c = d ↔ f v = f w)

/-- Colours that are given are kept. -/
def Keeps (colour colour' : OrdMap α UInt8) : Prop :=
  ∀ (v : α) (c : UInt8), colour[v]? = some c → colour'[v]? = some c

lemma size_insert_of_none {colour : OrdMap α UInt8} {v : α} (h : colour[v]? = none) (c : UInt8) :
    (colour.insert v c).size = colour.size + 1 := by
  rw [Std.ExtTreeMap.size_insert, if_neg]
  rw [OrdMap.contains_eq_false_iff.2 h]
  exact Bool.false_ne_true

/-- The other of two colours, against the other of two sides. -/
lemma other_iff {c d : UInt8} (hc : c = 0 ∨ c = 1) (hd : d = 0 ∨ d = 1) (a b x : Bool)
    (h : c = d ↔ a = x) (hne : a ≠ b) : 1 - c = d ↔ b = x := by
  rcases hc with rfl | rfl <;> rcases hd with rfl | rfl <;> revert a b x <;> decide

lemma Keeps.trans {colour colour' colour'' : OrdMap α UInt8} (h : Keeps colour colour')
    (h' : Keeps colour' colour'') : Keeps colour colour'' :=
  fun v c hc => h' v c (h v c hc)

lemma keeps_insert {colour : OrdMap α UInt8} {v : α} (h : colour[v]? = none) (c : UInt8) :
    Keeps colour (colour.insert v c) := by
  intro w d hd
  rw [OrdMap.get_insert, if_neg, hd]
  rintro rfl
  rw [h] at hd
  exact absurd hd (Option.some_ne_none _).symm

section Search

variable {G : SimpleGraph α} {nodes roots : List α} {colour : OrdMap α UInt8} {opened : List α}

/-- A node becomes coloured, and open. -/
lemma Inv.insert (h : Inv G nodes roots colour opened) {v : α} {c : UInt8}
    (hv : colour[v]? = none) (hbit : c = 0 ∨ c = 1) (hnodes : v ∈ nodes)
    (hroot : ∃ r ∈ roots, G.Reachable r v) {opened' : List α} (hopened : v ∈ opened')
    (hmem : ∀ w ∈ opened, w ∈ opened') (hmem' : ∀ w ∈ opened', w = v ∨ w ∈ opened)
    (hagrees : ∀ f, Proper G f → ∀ (w : α) (d : UInt8), colour[w]? = some d → G.Reachable v w →
      (c = d ↔ f v = f w)) :
    Inv G nodes roots (colour.insert v c) opened' := by
  have hcases : ∀ (w : α) (d : UInt8), (colour.insert v c)[w]? = some d →
      w = v ∧ d = c ∨ w ≠ v ∧ colour[w]? = some d := by
    intro w d hd
    rw [OrdMap.get_insert] at hd
    split_ifs at hd with heq
    · exact .inl ⟨heq.symm, (Option.some.inj hd).symm⟩
    · exact .inr ⟨Ne.symm heq, hd⟩
  have hkeeps := keeps_insert hv c
  have hself : (colour.insert v c)[v]? = some c := by rw [OrdMap.get_insert, if_pos rfl]
  refine ⟨fun w d hd => ?_, fun w d hd => ?_, fun w hw => ?_, fun w d hd hw u hu => ?_,
    fun w d hd => ?_, fun f hf w u d e hd he hreach => ?_⟩
  · obtain ⟨_, rfl⟩ | ⟨_, hd⟩ := hcases w d hd
    · exact hbit
    · exact h.bit w d hd
  · obtain ⟨rfl, _⟩ | ⟨_, hd⟩ := hcases w d hd
    · exact hnodes
    · exact h.known w d hd
  · obtain rfl | hw := hmem' w hw
    · exact ⟨c, hself⟩
    · exact (h.coloured w hw).imp fun d hd => hkeeps w d hd
  · obtain ⟨rfl, _⟩ | ⟨_, hd⟩ := hcases w d hd
    · exact absurd hopened hw
    · exact (h.closed w d hd (fun hmem'' => hw (hmem w hmem'')) u hu).imp fun e he => hkeeps u e he
  · obtain ⟨rfl, _⟩ | ⟨_, hd⟩ := hcases w d hd
    · exact hroot
    · exact h.rooted w d hd
  · obtain ⟨rfl, rfl⟩ | ⟨_, hd'⟩ := hcases w d hd <;> obtain ⟨rfl, rfl⟩ | ⟨_, he'⟩ := hcases u e he
    · exact ⟨fun _ => rfl, fun _ => rfl⟩
    · exact hagrees f hf u e he' hreach
    · rw [eq_comm, hagrees f hf w d hd' hreach.symm, eq_comm]
    · exact h.agrees f hf w u d e hd' he' hreach

/-- **A neighbour is visited.** -/
lemma Inv.visit {current : α} {queue : List α} (h : Inv G nodes roots colour (current :: queue))
    {c : UInt8} (hc : colour[current]? = some c) {next : α} (hadj : G.Adj current next)
    (hnodes : next ∈ nodes) :
    Inv G nodes roots (visit c (colour, queue) next).1
        (current :: (visit c (colour, queue) next).2) ∧
      Keeps colour (visit c (colour, queue) next).1 ∧
      (∃ d, (visit c (colour, queue) next).1[next]? = some d) ∧
      (visit c (colour, queue) next).1.size + queue.length =
        colour.size + (visit c (colour, queue) next).2.length := by
  unfold TwoColour.visit
  cases hnext : colour[next]? with
  | some d =>
    have hcontains : colour.contains next = true := by
      rw [← Bool.not_eq_false, OrdMap.contains_eq_false_iff, hnext]
      exact Option.some_ne_none d
    rw [if_pos hcontains]
    exact ⟨h, fun _ _ hd => hd, ⟨d, hnext⟩, rfl⟩
  | none =>
    have hcontains := OrdMap.contains_eq_false_iff.2 hnext
    rw [if_neg (by rw [hcontains]; exact Bool.false_ne_true)]
    have hbit := h.bit current c hc
    have hother : (1 : UInt8) - c = 0 ∨ 1 - c = 1 := by rcases hbit with rfl | rfl <;> decide
    refine ⟨h.insert hnext hother hnodes ?_ ?_ ?_ ?_ ?_, keeps_insert hnext _, ⟨1 - c, ?_⟩, ?_⟩
    · obtain ⟨r, hr, hreach⟩ := h.rooted current c hc
      exact ⟨r, hr, hreach.trans hadj.reachable⟩
    · simp
    · simp only [List.mem_cons, List.mem_append]
      tauto
    · simp only [List.mem_cons, List.mem_append]
      tauto
    · -- the new node differs from the one it is found from, in colour and in any proper colouring
      intro f hf w d hd hreach
      have hcur := h.agrees f hf current w c d hc hd (hadj.reachable.trans hreach)
      have hne := hf current next hadj
      exact other_iff hbit (h.bit w d hd) (f current) (f next) (f w) hcur hne
    · rw [OrdMap.get_insert, if_pos rfl]
    · dsimp only
      rw [size_insert_of_none hnext, List.length_append, List.length_singleton]
      omega

lemma Inv.foldl_visit {current : α} {c : UInt8} (next : List α) :
    ∀ {colour : OrdMap α UInt8} {queue : List α}, Inv G nodes roots colour (current :: queue) →
      colour[current]? = some c → (∀ w ∈ next, G.Adj current w ∧ w ∈ nodes) →
      let s := next.foldl (TwoColour.visit c) (colour, queue)
      Inv G nodes roots s.1 (current :: s.2) ∧ Keeps colour s.1 ∧
        (∀ w ∈ next, ∃ d, s.1[w]? = some d) ∧
        s.1.size + queue.length = colour.size + s.2.length := by
  induction next with
  | nil =>
    exact fun h _ _ => ⟨h, fun _ _ hd => hd, fun _ hw => absurd hw List.not_mem_nil, rfl⟩
  | cons w next ih =>
    intro colour queue h hc hnext
    obtain ⟨⟨hadj, hnodes⟩, hnext⟩ := List.forall_mem_cons.1 hnext
    obtain ⟨hinv, hkeeps, ⟨d, hd⟩, hsize⟩ := h.visit hc hadj hnodes
    obtain ⟨hinv', hkeeps', hall, hsize'⟩ := ih hinv (hkeeps _ _ hc) hnext
    refine ⟨hinv', hkeeps.trans hkeeps', List.forall_mem_cons.2 ⟨⟨d, hkeeps' _ _ hd⟩, hall⟩,
      ?_⟩
    rw [Prod.mk.eta] at hsize'
    rw [List.foldl_cons]
    omega

/-- There are at most as many coloured nodes as nodes. -/
lemma Inv.size_le (h : Inv G nodes roots colour opened) : colour.size ≤ nodes.length := by
  rw [← OrdMap.card_keySet]
  refine (Finset.card_le_card fun v hv => ?_).trans (List.toFinset_card_le nodes)
  obtain ⟨c, hc⟩ := OrdMap.mem_keySet.1 hv
  exact List.mem_toFinset.2 (h.known v c hc)

/-- **A search** ends with all neighbours of coloured nodes coloured.

**Proof sketch.** Induction on the fuel. Each round takes a node from the queue, and each new node
is coloured and queued at the same time, so that there are at most as many rounds as nodes. -/
lemma spread_spec {adj : α → List α} (hadj : ∀ v w, w ∈ adj v ↔ G.Adj v w)
    (hnodes : ∀ v w, G.Adj v w → w ∈ nodes) (fuel : ℕ) :
    ∀ {colour : OrdMap α UInt8} {queue : List α}, Inv G nodes roots colour queue →
      nodes.length + queue.length ≤ fuel + colour.size →
      ∃ colour', spread adj fuel colour queue = some colour' ∧ Inv G nodes roots colour' [] ∧
        Keeps colour colour' := by
  induction fuel with
  | zero =>
    intro colour queue h hfuel
    have hsize := h.size_le
    cases queue with
    | nil => exact ⟨colour, by rw [spread], h, fun _ _ hd => hd⟩
    | cons v queue =>
      rw [List.length_cons] at hfuel
      omega
  | succ fuel ih =>
    intro colour queue h hfuel
    cases queue with
    | nil => exact ⟨colour, by rw [spread], h, fun _ _ hd => hd⟩
    | cons current queue =>
      obtain ⟨c, hc⟩ := h.coloured current List.mem_cons_self
      obtain ⟨hinv, hkeeps, hall, hsize⟩ := Inv.foldl_visit (adj current) h hc fun w hw =>
        ⟨(hadj current w).1 hw, hnodes current w ((hadj current w).1 hw)⟩
      have hinv' : Inv G nodes roots ((adj current).foldl (TwoColour.visit c) (colour, queue)).1
          ((adj current).foldl (TwoColour.visit c) (colour, queue)).2 := by
        refine ⟨hinv.bit, hinv.known, fun v hv => hinv.coloured v (List.mem_cons_of_mem _ hv),
          fun v d hd hv w hw => ?_, hinv.rooted, hinv.agrees⟩
        by_cases heq : v = current
        · subst heq
          exact hall w ((hadj v w).2 hw)
        · exact hinv.closed v d hd (fun hmem => (List.mem_cons.1 hmem).elim heq hv) w hw
      rw [List.length_cons] at hfuel
      obtain ⟨colour', hspread, hdone, hkeeps'⟩ := ih hinv' (by omega)
      exact ⟨colour', by rw [spread, hc]; exact hspread, hdone, hkeeps.trans hkeeps'⟩

/-- With no node open, a component is coloured as a whole or not at all. -/
lemma Inv.reachable (h : Inv G nodes roots colour []) {v w : α} (hreach : G.Reachable v w)
    {c : UInt8} (hc : colour[v]? = some c) : ∃ d, colour[w]? = some d := by
  obtain ⟨walk⟩ := hreach
  induction walk generalizing c with
  | nil => exact ⟨c, hc⟩
  | cons hadj _ ih =>
    obtain ⟨d, hd⟩ := h.closed _ c hc List.not_mem_nil _ hadj
    exact ih hd

lemma Inv.mono {roots' : List α} (h : Inv G nodes roots colour opened) (hsub : roots ⊆ roots') :
    Inv G nodes roots' colour opened :=
  ⟨h.bit, h.known, h.coloured, h.closed,
    fun v c hc => (h.rooted v c hc).imp fun _ hr => ⟨hsub hr.1, hr.2⟩, h.agrees⟩

/-- A search from one more node. -/
lemma colourFrom_spec {adj : α → List α} (hadj : ∀ v w, w ∈ adj v ↔ G.Adj v w)
    (hnodes : ∀ v w, G.Adj v w → w ∈ nodes) (h : Inv G nodes roots colour []) {root : α}
    (hroot : root ∈ nodes) :
    ∃ colour', colourFrom adj nodes.length colour root = some colour' ∧
      Inv G nodes (roots ++ [root]) colour' [] ∧ Keeps colour colour' ∧
      (∃ c, colour'[root]? = some c) ∧
      ((∀ r ∈ roots, ¬ G.Reachable r root) → colour'[root]? = some 0) := by
  have h' := h.mono (List.subset_append_left roots [root])
  unfold colourFrom
  cases hget : colour[root]? with
  | some c =>
    have hcontains : colour.contains root = true := by
      rw [← Bool.not_eq_false, OrdMap.contains_eq_false_iff, hget]
      exact Option.some_ne_none c
    rw [if_pos hcontains]
    refine ⟨colour, rfl, h', fun _ _ hd => hd, ⟨c, hget⟩, fun hno => ?_⟩
    obtain ⟨r, hr, hreach⟩ := h.rooted root c hget
    exact absurd hreach (hno r hr)
  | none =>
    have hcontains := OrdMap.contains_eq_false_iff.2 hget
    rw [if_neg (by rw [hcontains]; exact Bool.false_ne_true)]
    have hinv : Inv G nodes (roots ++ [root]) (colour.insert root 0) [root] := by
      refine h'.insert hget (.inl rfl) hroot ⟨root, by simp, .refl root⟩ (by simp)
        (by simp) (by simp)
        fun f _ w d hd hreach => ?_
      obtain ⟨e, he⟩ := h.reachable hreach.symm hd
      exact absurd (hget.symm.trans he) (Option.some_ne_none e).symm
    have hsize : (colour.insert root 0).size = colour.size + 1 := by
      exact size_insert_of_none hget 0
    obtain ⟨colour', hspread, hdone, hkeeps⟩ := spread_spec hadj hnodes nodes.length hinv (by
      rw [hsize, List.length_singleton]
      omega)
    have hzero : colour'[root]? = some 0 := hkeeps _ _ (by rw [OrdMap.get_insert, if_pos rfl])
    exact ⟨colour', hspread, hdone, (keeps_insert hget 0).trans hkeeps, ⟨0, hzero⟩, fun _ => hzero⟩

lemma foldlM_colourFrom {adj : α → List α} (hadj : ∀ v w, w ∈ adj v ↔ G.Adj v w)
    (hnodes : ∀ v w, G.Adj v w → w ∈ nodes) (rest : List α) : ∀ {roots : List α}
      {colour : OrdMap α UInt8}, Inv G nodes roots colour [] → (∀ v ∈ rest, v ∈ nodes) →
      ∃ colour', rest.foldlM (colourFrom adj nodes.length) colour = some colour' ∧
        Inv G nodes (roots ++ rest) colour' [] ∧ Keeps colour colour' ∧
        (∀ v ∈ rest, ∃ c, colour'[v]? = some c) ∧
        ∀ pre v post, rest = pre ++ v :: post →
          (∀ r ∈ roots ++ pre, ¬ G.Reachable r v) → colour'[v]? = some 0 := by
  induction rest with
  | nil =>
    intro roots colour h _
    refine ⟨colour, rfl, by rwa [List.append_nil], fun _ _ hd => hd,
      fun _ hv => absurd hv List.not_mem_nil, fun pre v post heq => ?_⟩
    exact absurd heq (by simp)
  | cons root rest ih =>
    intro roots colour h hrest
    obtain ⟨hroot, hrest⟩ := List.forall_mem_cons.1 hrest
    obtain ⟨colour₁, hfrom, hinv, hkeeps, ⟨c, hc⟩, hzero⟩ := colourFrom_spec hadj hnodes h hroot
    obtain ⟨colour', hfold, hinv', hkeeps', hall, hfirst⟩ := ih hinv hrest
    refine ⟨colour', by rw [List.foldlM_cons, hfrom]; exact hfold, ?_, hkeeps.trans hkeeps',
      List.forall_mem_cons.2 ⟨⟨c, hkeeps' _ _ hc⟩, hall⟩, fun pre v post heq hno => ?_⟩
    · rwa [List.append_assoc] at hinv'
    · cases pre with
      | nil =>
        obtain ⟨rfl, _⟩ := List.cons.inj heq
        rw [List.append_nil] at hno
        exact hkeeps' _ _ (hzero hno)
      | cons p pre =>
        obtain ⟨rfl, hrest'⟩ := List.cons.inj heq
        exact hfirst pre v post hrest' (by rwa [List.append_assoc])

/-- **The searches** colour every node, the first node of each component with zero, and in a
component two nodes alike just where any proper colouring does. -/
lemma colourAll_spec {adj : α → List α} (hadj : ∀ v w, w ∈ adj v ↔ G.Adj v w)
    (hnodes : ∀ v w, G.Adj v w → w ∈ nodes) :
    ∃ colour, colourAll adj nodes = some colour ∧ Inv G nodes nodes colour [] ∧
      (∀ v ∈ nodes, ∃ c, colour[v]? = some c) ∧
      ∀ pre v post, nodes = pre ++ v :: post → (∀ r ∈ pre, ¬ G.Reachable r v) →
        colour[v]? = some 0 := by
  have hinit : Inv G nodes [] (∅ : OrdMap α UInt8) [] := by
    have hnone : ∀ (v : α) (c : UInt8), (∅ : OrdMap α UInt8)[v]? ≠ some c := by
      intro v c
      rw [Std.ExtTreeMap.getElem?_empty]
      exact (Option.some_ne_none c).symm
    exact ⟨fun v c hc => absurd hc (hnone v c), fun v c hc => absurd hc (hnone v c),
      fun _ hv => absurd hv List.not_mem_nil, fun v c hc => absurd hc (hnone v c),
      fun v c hc => absurd hc (hnone v c), fun _ _ v _ c _ hc => absurd hc (hnone v c)⟩
  obtain ⟨colour, hfold, hinv, _, hall, hfirst⟩ :=
    foldlM_colourFrom hadj hnodes nodes hinit fun _ hv => hv
  exact ⟨colour, hfold, hinv, hall, hfirst⟩

end Search

end TwoColour
