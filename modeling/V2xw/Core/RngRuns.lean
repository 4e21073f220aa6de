import V2xw.Core.Rng

/-!
# Draws and schedules

What happens to the stream of a key depends on the operations on that key alone: the slots and the
guards of different keys are apart. So a run of the registry is a run of one cell for each key, and
in a cell the stream of a long-lived key is in one place only, at the position behind all draws so
far.

## Main definitions

* `Core.Cell` — the slot and the guards of one key.

## Main results

* `Core.material_injective` — the key of a stream determines the entity and the domain code.
* `Core.Draws.replies_eq` — the replies to the operations on a key.
* `Core.draws_ignore_scheduling` — what the tasks that draw from a key obtain.
* `Core.frame_held_twice` — a single-use scope checked out twice.
-/

namespace V2xw.Core

open Layout

/-! ## Key material -/

/-- The entity whose bytes are given. -/
def EntityRef.decode : Bytes → EntityRef
  | 0x01 :: bs => .actor (take bs)
  | 0x02 :: bs => .node (take bs)
  | 0x03 :: bs => .link (take (bs.take 4)) (take (bs.drop 4))
  | 0x04 :: bs => .linkFrame (take (bs.take 4)) (take ((bs.drop 4).take 4)) (take (bs.drop 8))
  | 0x05 :: bs => .lane (take bs)
  | 0x06 :: bs => .signal (take bs)
  | 0x07 :: bs => .custom (take (bs.take 2)) (take (bs.drop 2))
  | _ => .global

lemma take_two {α β : Type} [Word α] [Word β] (a : α) (b : β) {n : ℕ} (hn : Word.width α = n) :
    (take ((put a ++ put b).take n) : α) = a ∧ (take ((put a ++ put b).drop n) : β) = b := by
  have hlength : (put a).length = n := (length_put a).trans hn
  rw [List.take_left' hlength, List.drop_left' hlength, take_put, take_put]
  exact ⟨rfl, rfl⟩

lemma EntityRef.decode_encode (e : EntityRef) : decode e.encode = e := by
  cases e with
  | global => rfl
  | actor a => exact congrArg _ (take_put a)
  | node n => exact congrArg _ (take_put n)
  | link tx rx =>
    obtain ⟨htx, hrx⟩ := take_two tx rx (n := 4) rfl
    rw [encode, decode, htx, hrx]
  | linkFrame tx rx frame =>
    have hlength : (put tx).length = 4 := length_put tx
    obtain ⟨hrx, hframe⟩ := take_two rx frame (n := 4) rfl
    rw [encode, decode, List.append_assoc, List.take_left' hlength,
      List.drop_left' hlength, take_put,
      hrx, show (8 : ℕ) = 4 + 4 from rfl, ← List.drop_drop, List.drop_left' hlength, hframe]
  | lane l => exact congrArg _ (take_put l)
  | signal s => exact congrArg _ (take_put s)
  | custom kind id =>
    obtain ⟨hkind, hid⟩ := take_two kind id (n := 2) rfl
    rw [encode, decode, hkind, hid]

lemma material_injective {masterSeed : UInt64} {domain domain' : RngDomain}
    {entity entity' : EntityRef}
    (h : material masterSeed domain entity = material masterSeed domain' entity') :
    domain.code = domain'.code ∧ entity = entity' := by
  rw [material, material, List.append_assoc, List.append_assoc] at h
  obtain ⟨hcode, hentity⟩ := List.append_inj (List.append_cancel_left h)
    ((length_put _).trans (length_put _).symm)
  constructor
  · rw [← take_put domain.code, hcode, take_put]
  · rw [← EntityRef.decode_encode entity, hentity, EntityRef.decode_encode]

variable {c : Cipher}

/-! ## Streams -/

lemma RngStream.map_fst_drawAll (ds : List Draw) :
    ∀ s : RngStream, (s.drawAll c ds).1.map Prod.fst = ds := by
  induction ds with
  | nil => exact fun s => rfl
  | cons d ds ih => exact fun s => congrArg (d :: ·) (ih _)

lemma RngStream.drawAll_append (ds es : List Draw) :
    ∀ s : RngStream, s.drawAll c (ds ++ es) =
      ((s.drawAll c ds).1 ++ ((s.drawAll c ds).2.drawAll c es).1,
        ((s.drawAll c ds).2.drawAll c es).2) := by
  induction ds with
  | nil => exact fun s => rfl
  | cons d ds ih =>
    intro s
    rw [List.cons_append, drawAll, ih]
    rfl

/-! ## Cells -/

/-- The slot and the guards of one key. -/
structure Cell where
  slot : Option (Option RngStream)
  guards : ℕ → Option RngGuard

namespace Cell

def new : Cell := ⟨none, fun _ => none⟩

/-- Sets the guard with a handle. -/
def hold (x : Cell) (handle : ℕ) (g : Option RngGuard) : Cell :=
  { x with guards := Function.update x.guards handle g }

variable (c) in
/-- An operation on the cell of a key. -/
def step (masterSeed : UInt64) (key : Key) (x : Cell) (op : RngOp) : Reply × Cell :=
  match op.action with
  | .checkout handle =>
    if key.2.isSingleUse then
      (.granted, x.hold handle (some ⟨false, key, some (.derive c masterSeed key)⟩))
    else
      match x.slot.getD (some (.derive c masterSeed key)) with
      | some s => (.granted, { x with slot := some none }.hold handle (some ⟨true, key, some s⟩))
      | none => (.refused, x)
  | .draw handle ds =>
    match x.guards handle with
    | some ⟨home, key, some stream⟩ =>
      (.drawn (stream.drawAll c ds).1,
        x.hold handle (some ⟨home, key, some (stream.drawAll c ds).2⟩))
    | _ => (.noGuard, x)
  | .drop handle =>
    match x.guards handle with
    | some ⟨true, _, some s⟩ => (.dropped, { x with slot := some (some s) }.hold handle none)
    | some _ => (.dropped, x.hold handle none)
    | none => (.noGuard, x)
  | .stream ds =>
    if key.2.isSingleUse then (.refused, x)
    else
      match x.slot.getD (some (.derive c masterSeed key)) with
      | some s => (.drawn (s.drawAll c ds).1, { x with slot := some (some (s.drawAll c ds).2) })
      | none => (.refused, x)

end Cell

namespace Draws

/-- The cell of a key. -/
def cell (s : Draws) (key : Key) : Cell := ⟨s.registry.slot key, s.guards key⟩

/-- A guard is held under its own key. -/
def Keyed (s : Draws) : Prop := ∀ key handle g, s.guards key handle = some g → g.key = key

lemma slot_insert (r : RngRegistry) (key key' : Key) (v : Option RngStream) :
    (r.insert key v).slot key' = if key' = key then some v else r.slot key' := by
  unfold RngRegistry.slot RngRegistry.insert
  by_cases h : key' = key
  · subst h
    simp
  · rw [if_neg h]
    by_cases hshard : shardOf key' = shardOf key
    · simp only [hshard, Function.update_self, Function.update_of_ne h]
    · simp only [Function.update_of_ne hshard]

lemma cell_hold (s : Draws) (key : Key) (handle : ℕ) (g : Option RngGuard) :
    (s.hold key handle g).cell = Function.update s.cell key ((s.cell key).hold handle g) := by
  funext key'
  by_cases h : key' = key
  · subst h
    rw [Function.update_self]
    simp only [cell, hold, Cell.hold, Function.update_self]
  · rw [Function.update_of_ne h]
    simp only [cell, hold, Function.update_of_ne h]

lemma cell_insert (s : Draws) (key : Key) (v : Option RngStream) :
    Draws.cell { s with registry := s.registry.insert key v } =
      Function.update s.cell key { s.cell key with slot := some v } := by
  funext key'
  by_cases h : key' = key
  · subst h
    rw [Function.update_self]
    simp only [cell, slot_insert, if_true]
  · rw [Function.update_of_ne h]
    simp only [cell, slot_insert, if_neg h]

/-- The registry is one cell for each key. -/
structure Cells (masterSeed : UInt64) (s : Draws) (xs : Key → Cell) : Prop where
  masterSeed_eq : s.registry.masterSeed = masterSeed
  cell_eq : s.cell = xs
  keyed : s.Keyed

lemma keyed_hold {s : Draws} (h : s.Keyed) (key : Key) (handle : ℕ) {g : Option RngGuard}
    (hg : ∀ g' ∈ g, g'.key = key) : (s.hold key handle g).Keyed := by
  intro key' handle' g' hg'
  by_cases hkey : key' = key
  · subst hkey
    simp only [hold, Function.update_self] at hg'
    by_cases hhandle : handle' = handle
    · subst hhandle
      rw [Function.update_self] at hg'
      exact hg g' hg'
    · rw [Function.update_of_ne hhandle] at hg'
      exact h key' handle' g' hg'
  · simp only [hold, Function.update_of_ne hkey] at hg'
    exact h key' handle' g' hg'

lemma Cells.hold {masterSeed : UInt64} {s : Draws} {xs : Key → Cell} (h : Cells masterSeed s xs)
    (key : Key) (handle : ℕ) {g : Option RngGuard} (hg : ∀ g' ∈ g, g'.key = key) :
    Cells masterSeed (s.hold key handle g) (Function.update xs key ((xs key).hold handle g)) := by
  refine ⟨h.masterSeed_eq, ?_, keyed_hold h.keyed key handle hg⟩
  rw [cell_hold, h.cell_eq]

lemma Cells.insert {masterSeed : UInt64} {s : Draws} {xs : Key → Cell} (h : Cells masterSeed s xs)
    (key : Key) (v : Option RngStream) :
    Cells masterSeed { s with registry := s.registry.insert key v }
      (Function.update xs key { xs key with slot := some v }) := by
  refine ⟨h.masterSeed_eq, ?_, h.keyed⟩
  rw [cell_insert, h.cell_eq]

lemma Cells.insert_hold {masterSeed : UInt64} {s : Draws} {xs : Key → Cell}
    (h : Cells masterSeed s xs) (key : Key) (v : Option RngStream) (handle : ℕ) {g : Option RngGuard}
    (hg : ∀ g' ∈ g, g'.key = key) :
    Cells masterSeed ({ s with registry := s.registry.insert key v }.hold key handle g)
      (Function.update xs key ({ xs key with slot := some v }.hold handle g)) := by
  have hhold := (h.insert key v).hold key handle hg
  rwa [Function.update_self, Function.update_idem] at hhold

/-- An operation moves the cell of its key alone, as an operation on that cell. -/
lemma Cells.step {masterSeed : UInt64} {s : Draws} {xs : Key → Cell} (h : Cells masterSeed s xs)
    (op : RngOp) :
    (Draws.step c s op).1 = (Mealy.family RngOp.key (Cell.step c masterSeed) xs op).1 ∧
      Cells masterSeed (Draws.step c s op).2
        (Mealy.family RngOp.key (Cell.step c masterSeed) xs op).2 := by
  obtain ⟨key, action⟩ := op
  have hslot : s.registry.slot key = (xs key).slot := by
    rw [← h.cell_eq]
    rfl
  have hguards : s.guards key = (xs key).guards := by
    rw [← h.cell_eq]
    rfl
  have hstay : Cells masterSeed s (Function.update xs key (xs key)) := by
    rwa [Function.update_eq_self]
  unfold Draws.step Mealy.family Cell.step
  cases action with
  | checkout handle =>
    dsimp only
    unfold RngRegistry.checkout
    rw [h.masterSeed_eq, hslot]
    cases hsingle : key.2.isSingleUse with
    | true => exact ⟨rfl, h.hold key handle (by rintro _ ⟨⟩; rfl)⟩
    | false =>
      simp only [Bool.false_eq_true, if_false]
      cases (xs key).slot with
      | none => exact ⟨rfl, h.insert_hold key none handle (by rintro _ ⟨⟩; rfl)⟩
      | some v =>
        cases v with
        | none => exact ⟨rfl, hstay⟩
        | some stream => exact ⟨rfl, h.insert_hold key none handle (by rintro _ ⟨⟩; rfl)⟩
  | draw handle ds =>
    dsimp only
    rw [hguards]
    cases hguard : (xs key).guards handle with
    | none => exact ⟨rfl, hstay⟩
    | some g =>
      obtain ⟨home, key', stream⟩ := g
      cases stream with
      | none => exact ⟨rfl, hstay⟩
      | some stream =>
        have hkey : key' = key := h.keyed key handle _ ((congrFun hguards handle).trans hguard)
        exact ⟨rfl, h.hold key handle (by rintro _ ⟨⟩; exact hkey)⟩
  | drop handle =>
    dsimp only
    rw [hguards]
    cases hguard : (xs key).guards handle with
    | none => exact ⟨rfl, hstay⟩
    | some g =>
      obtain ⟨home, key', stream⟩ := g
      have hkey : key' = key := h.keyed key handle _ ((congrFun hguards handle).trans hguard)
      cases home with
      | false => exact ⟨rfl, h.hold key handle fun _ h => absurd h (Option.not_mem_none _)⟩
      | true =>
        cases stream with
        | none => exact ⟨rfl, h.hold key handle fun _ h => absurd h (Option.not_mem_none _)⟩
        | some stream =>
          subst hkey
          exact ⟨rfl, h.insert_hold key' (some stream) handle fun _ h =>
            absurd h (Option.not_mem_none _)⟩
  | stream ds =>
    dsimp only
    unfold RngRegistry.stream
    rw [h.masterSeed_eq, hslot]
    cases hsingle : key.2.isSingleUse with
    | true => exact ⟨rfl, hstay⟩
    | false =>
      simp only [Bool.false_eq_true, if_false]
      cases (xs key).slot with
      | none => exact ⟨rfl, h.insert key _⟩
      | some v =>
        cases v with
        | none => exact ⟨rfl, hstay⟩
        | some stream => exact ⟨rfl, h.insert key _⟩

lemma cells_new (masterSeed : UInt64) : Cells masterSeed (new masterSeed) fun _ => Cell.new :=
  ⟨rfl, funext fun _ => by rw [cell, RngRegistry.slot]; rfl, fun _ _ _ h => nomatch h⟩

lemma cells_after (masterSeed : UInt64) (ops : List RngOp) :
    Mealy.outputs (Draws.step c) (new masterSeed) ops =
        Mealy.outputs (Mealy.family RngOp.key (Cell.step c masterSeed)) (fun _ => Cell.new) ops ∧
      Cells masterSeed (after c masterSeed ops)
        (Mealy.run (Mealy.family RngOp.key (Cell.step c masterSeed)) (fun _ => Cell.new) ops) :=
  Mealy.outputs_eq_of_simulation (fun _ _ op h => h.step op) ops (cells_new masterSeed)

lemma replies_eq (masterSeed : UInt64) (ops : List RngOp) (key : Key) :
    replies c masterSeed ops key = (Mealy.inputsOf RngOp.key key ops).zip
      (Mealy.outputs (Cell.step c masterSeed key) Cell.new (Mealy.inputsOf RngOp.key key ops)) := by
  rw [replies, (cells_after masterSeed ops).1]
  exact Mealy.zip_outputs_family RngOp.key (Cell.step c masterSeed) key ops _

end Draws

/-! ## Long-lived keys -/

variable {masterSeed : UInt64} {key : Key}

/-- The stream of a long-lived key is in its slot, or with the one guard that is live. -/
def Cell.Holds (c : Cipher) (masterSeed : UInt64) (key : Key) (x : Cell) (s : RngStream) : Prop :=
  (x.slot.getD (some (.derive c masterSeed key)) = some s ∧ x.guards = fun _ => none) ∨
    (x.slot = some none ∧
      ∃ handle, x.guards = Function.update (fun _ => none) handle (some ⟨true, key, some s⟩))

/-- An operation delivers the next draws of the stream, and leaves it behind them. -/
lemma Cell.Holds.step (hkey : key.2.isSingleUse = false) {x : Cell} {s : RngStream}
    (h : x.Holds c masterSeed key s) (op : RngOp) :
    (s.drawAll c ((Cell.step c masterSeed key x op).1.values.map Prod.fst)).1 =
        (Cell.step c masterSeed key x op).1.values ∧
      (Cell.step c masterSeed key x op).2.Holds c masterSeed key
        (s.drawAll c ((Cell.step c masterSeed key x op).1.values.map Prod.fst)).2 := by
  have hdrawn (ds : List Draw) : s.drawAll c ((s.drawAll c ds).1.map Prod.fst) = s.drawAll c ds := by
    rw [RngStream.map_fst_drawAll]
  obtain ⟨key', action⟩ := op
  unfold Cell.step
  obtain ⟨hslot, hguards⟩ | ⟨hslot, handle', hguards⟩ := h
  · cases action with
    | checkout handle =>
      simp only [hkey, hslot, Bool.false_eq_true, if_false]
      refine ⟨rfl, .inr ⟨rfl, handle, ?_⟩⟩
      show Function.update x.guards _ _ = _
      rw [hguards]
      rfl
    | draw handle ds =>
      simp only [hguards]
      exact ⟨rfl, .inl ⟨hslot, hguards⟩⟩
    | drop handle =>
      simp only [hguards]
      exact ⟨rfl, .inl ⟨hslot, hguards⟩⟩
    | stream ds =>
      simp only [hkey, hslot, Bool.false_eq_true, if_false]
      rw [Reply.values, hdrawn]
      exact ⟨rfl, .inl ⟨rfl, hguards⟩⟩
  · cases action with
    | checkout handle =>
      simp only [hkey, hslot, Option.getD_some, Bool.false_eq_true, if_false]
      exact ⟨rfl, .inr ⟨hslot, handle', hguards⟩⟩
    | draw handle ds =>
      by_cases hhandle : handle = handle'
      · subst hhandle
        simp only [hguards, Function.update_self]
        rw [Reply.values, hdrawn]
        refine ⟨rfl, .inr ⟨hslot, handle, ?_⟩⟩
        show Function.update x.guards _ _ = _
        rw [hguards, Function.update_idem]
      · simp only [hguards, Function.update_of_ne hhandle]
        exact ⟨rfl, .inr ⟨hslot, handle', hguards⟩⟩
    | drop handle =>
      by_cases hhandle : handle = handle'
      · subst hhandle
        simp only [hguards, Function.update_self]
        refine ⟨rfl, .inl ⟨rfl, ?_⟩⟩
        show Function.update (Function.update _ _ _) _ _ = _
        rw [Function.update_idem]
        exact Function.update_eq_self handle fun _ => none
      · simp only [hguards, Function.update_of_ne hhandle]
        exact ⟨rfl, .inr ⟨hslot, handle', hguards⟩⟩
    | stream ds =>
      simp only [hkey, hslot, Option.getD_some, Bool.false_eq_true, if_false]
      exact ⟨rfl, .inr ⟨hslot, handle', hguards⟩⟩

/-- What a run delivers are the draws of the stream, in order. -/
lemma Cell.holds_run (hkey : key.2.isSingleUse = false) (ops : List RngOp) :
    let vs := (Mealy.outputs (Cell.step c masterSeed key) Cell.new ops).flatMap Reply.values
    ((RngStream.derive c masterSeed key).drawAll c (vs.map Prod.fst)).1 = vs ∧
      (Mealy.run (Cell.step c masterSeed key) Cell.new ops).Holds c masterSeed key
        ((RngStream.derive c masterSeed key).drawAll c (vs.map Prod.fst)).2 := by
  induction ops using List.reverseRecOn with
  | nil => exact ⟨rfl, .inl ⟨rfl, rfl⟩⟩
  | append_singleton ops op ih =>
    obtain ⟨hvs, hholds⟩ := ih
    obtain ⟨hdrawn, hholds⟩ := hholds.step hkey op
    dsimp only
    rw [Mealy.outputs_concat, Mealy.run_concat, List.flatMap_append, List.flatMap_singleton,
      List.map_append, RngStream.drawAll_append, hvs, hdrawn]
    exact ⟨rfl, hholds⟩

lemma Cell.Holds.slot_eq {x : Cell} {s : RngStream} (h : x.Holds c masterSeed key s) {handle : ℕ}
    {g : RngGuard} (hg : x.guards handle = some g) : x.slot = some none := by
  obtain ⟨_, hguards⟩ | ⟨hslot, _⟩ := h
  · rw [hguards] at hg
    cases hg
  · exact hslot

namespace Draws

lemma values_eq (hkey : key.2.isSingleUse = false) (ops : List RngOp) :
    ((RngStream.derive c masterSeed key).drawAll c
      (((replies c masterSeed ops key).flatMap fun r => r.2.values).map Prod.fst)).1 =
        (replies c masterSeed ops key).flatMap fun r => r.2.values := by
  have hvalues : (replies c masterSeed ops key).flatMap (fun r => r.2.values) =
      (Mealy.outputs (Cell.step c masterSeed key) Cell.new
        (Mealy.inputsOf RngOp.key key ops)).flatMap Reply.values := by
    rw [replies_eq, ← List.flatMap_map, List.map_snd_zip (Mealy.length_outputs _ _ _).le]
  rw [hvalues]
  exact (Cell.holds_run hkey _).1

/-- A long-lived key whose guard is live is refused, and nothing moves. -/
lemma refused_of_live (hkey : key.2.isSingleUse = false) {ops : List RngOp} {handle : ℕ}
    {g : RngGuard}
    (hg : (after c masterSeed ops).guards key handle = some g) :
    (∀ handle', step c (after c masterSeed ops) ⟨key, .checkout handle'⟩ =
        (.refused, after c masterSeed ops)) ∧
      ∀ ds, step c (after c masterSeed ops) ⟨key, .stream ds⟩ =
        (.refused, after c masterSeed ops) := by
  obtain ⟨_, hcells⟩ := cells_after (c := c) masterSeed ops
  have hslot : (after c masterSeed ops).registry.slot key = some none := by
    have hcell := congrFun hcells.cell_eq key
    rw [Mealy.run_family] at hcell
    have hholds := (@Cell.holds_run c masterSeed key hkey
      (Mealy.inputsOf RngOp.key key ops)).2
    rw [← hcell] at hholds
    exact hholds.slot_eq hg
  have hcheckout : (after c masterSeed ops).registry.checkout c key = none := by
    rw [RngRegistry.checkout, hkey, hslot]
    rfl
  have hstream (ds : List Draw) : (after c masterSeed ops).registry.stream c key ds = none := by
    rw [RngRegistry.stream, hkey, hslot]
    rfl
  constructor
  · intro handle'
    unfold step
    dsimp only
    rw [hcheckout]
  · intro ds
    unfold step
    dsimp only
    rw [hstream]

lemma checkout_singleUse (hkey : key.2.isSingleUse = true) (s : Draws) (handle : ℕ) :
    (step c s ⟨key, .checkout handle⟩).1 = .granted := by
  have hcheckout : s.registry.checkout c key =
      some (⟨false, key, some (.derive c s.registry.masterSeed key)⟩, s.registry) := by
    rw [RngRegistry.checkout, if_pos hkey]
  unfold step
  dsimp only
  rw [hcheckout]

lemma stream_singleUse (hkey : key.2.isSingleUse = true) (s : Draws) (ds : List Draw) :
    step c s ⟨key, .stream ds⟩ = (.refused, s) := by
  have hstream : s.registry.stream c key ds = none := by
    rw [RngRegistry.stream, if_pos hkey]
  unfold step
  dsimp only
  rw [hstream]

end Draws

/-! ## Single-use keys -/

/-- The guard that an operation uses. -/
def Action.handle? : Action → Option ℕ
  | .checkout handle => some handle
  | .draw handle _ => some handle
  | .drop handle => some handle
  | .stream _ => none

/-- What an operation draws through a guard. -/
def valuesThrough (key : Key) (handle : ℕ) (r : RngOp × Reply) : List (Draw × Value) :=
  if r.1.key = key ∧ r.1.action.handle? = some handle then r.2.values else []

namespace Draws

lemma guards_hold (s : Draws) {key key' : Key} {handle handle' : ℕ}
    (h : ¬ (key' = key ∧ handle' = handle)) (g : Option RngGuard) :
    (s.hold key' handle' g).guards key handle = s.guards key handle := by
  by_cases hkey : key = key'
  · subst hkey
    have hne : handle ≠ handle' := fun heq => h ⟨rfl, heq.symm⟩
    simp only [hold, Function.update_self, Function.update_of_ne hne]
  · simp only [hold, Function.update_of_ne hkey]

/-- The other operations leave a guard as it is. -/
lemma guards_step {op : RngOp} {handle : ℕ}
    (hop : ¬ (op.key = key ∧ op.action.handle? = some handle)) (s : Draws) :
    (step c s op).2.guards key handle = s.guards key handle := by
  obtain ⟨key', action⟩ := op
  unfold step
  cases action with
  | checkout handle' =>
    have hne : ¬ (key' = key ∧ handle' = handle) := fun h => hop ⟨h.1, congrArg some h.2⟩
    dsimp only
    split
    · rfl
    · exact guards_hold _ hne _
  | draw handle' ds =>
    have hne : ¬ (key' = key ∧ handle' = handle) := fun h => hop ⟨h.1, congrArg some h.2⟩
    dsimp only
    split
    · exact guards_hold _ hne _
    · rfl
  | drop handle' =>
    have hne : ¬ (key' = key ∧ handle' = handle) := fun h => hop ⟨h.1, congrArg some h.2⟩
    dsimp only
    split
    · exact guards_hold _ hne _
    · rfl
  | stream ds =>
    dsimp only
    split
    · rfl
    · rfl

/-- Draws through a guard that is neither dropped nor checked out again are consecutive. -/
lemma valuesThrough_eq {handle : ℕ} {home : Bool} {ops : List RngOp}
    (hops : ∀ op ∈ ops, op.key = key → op.action ≠ .checkout handle ∧ op.action ≠ .drop handle) :
    ∀ {s : Draws} {stream : RngStream}, s.guards key handle = some ⟨home, key, some stream⟩ →
      (stream.drawAll c (((ops.zip (Mealy.outputs (step c) s ops)).flatMap
        (valuesThrough key handle)).map Prod.fst)).1 =
          (ops.zip (Mealy.outputs (step c) s ops)).flatMap (valuesThrough key handle) := by
  induction ops with
  | nil => exact fun _ => rfl
  | cons op ops ih =>
    intro s stream hg
    obtain ⟨hfirst, hrest⟩ := List.forall_mem_cons.1 hops
    rw [Mealy.outputs, List.zip_cons_cons, List.flatMap_cons]
    by_cases hthis : op.key = key ∧ op.action.handle? = some handle
    · obtain ⟨key', action⟩ := op
      obtain ⟨rfl, haction⟩ := hthis
      cases action with
      | checkout handle' =>
        exact absurd (congrArg Action.checkout (Option.some.inj haction)) (hfirst rfl).1
      | drop handle' => exact absurd (congrArg Action.drop (Option.some.inj haction)) (hfirst rfl).2
      | stream ds => cases haction
      | draw handle' ds =>
        obtain rfl : handle' = handle := Option.some.inj haction
        have hstep : step c s ⟨key', .draw handle' ds⟩ = (.drawn (stream.drawAll c ds).1,
            s.hold key' handle' (some ⟨home, key', some (stream.drawAll c ds).2⟩)) := by
          unfold step
          dsimp only
          rw [hg]
        have hvalues : valuesThrough key' handle' (⟨key', .draw handle' ds⟩,
            .drawn (stream.drawAll c ds).1) = (stream.drawAll c ds).1 :=
          if_pos ⟨rfl, rfl⟩
        have hnext : (s.hold key' handle' (some ⟨home, key', some (stream.drawAll c ds).2⟩)).guards
            key' handle' = some ⟨home, key', some (stream.drawAll c ds).2⟩ := by
          simp only [hold, Function.update_self]
        rw [hstep, hvalues, List.map_append, RngStream.map_fst_drawAll, RngStream.drawAll_append,
          ih hrest hnext]
    · have hvalues : valuesThrough key handle (op, (step c s op).1) = [] := if_neg hthis
      rw [hvalues, List.nil_append]
      exact ih hrest ((guards_step hthis s).trans hg)

/-- Draws through the guard of a single-use scope start with the first word of its keystream. -/
lemma valuesThrough_checkout (hkey : key.2.isSingleUse = true) (pre : List RngOp)
    {mid : List RngOp}
    {handle : ℕ}
    (hmid : ∀ op ∈ mid, op.key = key → op.action ≠ .checkout handle ∧ op.action ≠ .drop handle) :
    ((RngStream.derive c masterSeed key).drawAll c
      (((mid.zip (Mealy.outputs (step c) (after c masterSeed (pre ++ [⟨key, .checkout handle⟩]))
        mid)).flatMap (valuesThrough key handle)).map Prod.fst)).1 =
      (mid.zip (Mealy.outputs (step c) (after c masterSeed (pre ++ [⟨key, .checkout handle⟩]))
        mid)).flatMap (valuesThrough key handle) := by
  have hseed := (cells_after (c := c) masterSeed pre).2.masterSeed_eq
  have hcheckout : (after c masterSeed pre).registry.checkout c key =
      some (⟨false, key, some (.derive c masterSeed key)⟩, (after c masterSeed pre).registry) := by
    rw [RngRegistry.checkout, if_pos hkey, hseed]
  have hstep : (step c (after c masterSeed pre) ⟨key, .checkout handle⟩).2 =
      (after c masterSeed pre).hold key handle
        (some ⟨false, key, some (.derive c masterSeed key)⟩) := by
    unfold step
    dsimp only
    rw [hcheckout]
  have hguard : (after c masterSeed (pre ++ [⟨key, .checkout handle⟩])).guards key handle =
      some ⟨false, key, some (.derive c masterSeed key)⟩ := by
    rw [after, Mealy.run_concat]
    refine (congrArg (fun s : Draws => s.guards key handle) hstep).trans ?_
    simp only [hold, Function.update_self]
  exact valuesThrough_eq hmid hguard

end Draws

/-! ## Schedules -/

/-- What the tasks that draw from a key obtain depends on the operations on that key alone. The
values of a long-lived key are consecutive draws of its keystream, and it is refused while its guard
is live. The values through a guard of a single-use scope are consecutive draws from the first word
of its keystream, and it has no slot to draw from. Keys with one keystream are of one entity and one
domain code. -/
theorem draws_ignore_scheduling (c : Cipher) (hsha256 : Function.Injective c.sha256)
    (masterSeed : UInt64) :
    (∀ ops ops' key, Mealy.inputsOf RngOp.key key ops = Mealy.inputsOf RngOp.key key ops' →
      Draws.replies c masterSeed ops key = Draws.replies c masterSeed ops' key) ∧
    (∀ ops (key : Key), key.2.isSingleUse = false →
      ((RngStream.derive c masterSeed key).drawAll c
        (((Draws.replies c masterSeed ops key).flatMap fun r => r.2.values).map Prod.fst)).1 =
          (Draws.replies c masterSeed ops key).flatMap fun r => r.2.values) ∧
    (∀ ops (key : Key) handle g, key.2.isSingleUse = false →
      (Draws.after c masterSeed ops).guards key handle = some g →
        (∀ handle', Draws.step c (Draws.after c masterSeed ops) ⟨key, .checkout handle'⟩ =
          (.refused, Draws.after c masterSeed ops)) ∧
        ∀ ds, Draws.step c (Draws.after c masterSeed ops) ⟨key, .stream ds⟩ =
          (.refused, Draws.after c masterSeed ops)) ∧
    (∀ (pre mid : List RngOp) (key : Key) handle, key.2.isSingleUse = true →
      (∀ op ∈ mid, op.key = key → op.action ≠ .checkout handle ∧ op.action ≠ .drop handle) →
        let held := Draws.after c masterSeed (pre ++ [⟨key, .checkout handle⟩])
        let values := (mid.zip (Mealy.outputs (Draws.step c) held mid)).flatMap
          (valuesThrough key handle)
        ((RngStream.derive c masterSeed key).drawAll c (values.map Prod.fst)).1 = values) ∧
    (∀ ops (key : Key), key.2.isSingleUse = true →
      (∀ handle, (Draws.step c (Draws.after c masterSeed ops) ⟨key, .checkout handle⟩).1 = .granted) ∧
        ∀ ds, Draws.step c (Draws.after c masterSeed ops) ⟨key, .stream ds⟩ =
          (.refused, Draws.after c masterSeed ops)) ∧
    ∀ key key' : Key,
      (RngStream.derive c masterSeed key).key = (RngStream.derive c masterSeed key').key →
        key.1.code = key'.1.code ∧ key.2 = key'.2 := by
  refine ⟨?_, ?_, ?_, ?_, ?_, ?_⟩
  · intro ops ops' key hops
    rw [Draws.replies_eq, Draws.replies_eq, hops]
  · intro ops key hkey
    exact Draws.values_eq hkey ops
  · intro ops key handle g hkey hg
    exact Draws.refused_of_live hkey hg
  · intro pre mid key handle hkey hmid
    exact Draws.valuesThrough_checkout hkey pre hmid
  · intro ops key hkey
    exact ⟨Draws.checkout_singleUse hkey _, Draws.stream_singleUse hkey _⟩
  · intro key key' h
    exact material_injective (hsha256 h)

/-- A digest and a keystream for which runs evaluate. -/
def countingCipher : Cipher where
  sha256 := id
  chacha12 _ i := UInt32.ofNat i

theorem draws_ignore_scheduling_counting :
    (RngStream.derive countingCipher 7 (.gnss, .node 1)).key ≠
      (RngStream.derive countingCipher 7 (.gnss, .actor 1)).key := by
  intro h
  obtain ⟨_, _, _, _, _, hkeys⟩ :=
    draws_ignore_scheduling countingCipher Function.injective_id 7
  exact absurd (hkeys (.gnss, .node 1) (.gnss, .actor 1) h).2 (by decide)

/-- Two tasks check a frame on a link out at once, and draw the same word. -/
theorem frame_held_twice :
    let key : Key := (.fading, .linkFrame 1 2 0)
    ((Draws.after countingCipher 7 [⟨key, .checkout 0⟩]).guards key 0).isSome = true ∧
      Mealy.outputs (Draws.step countingCipher) (Draws.new 7)
          [⟨key, .checkout 0⟩, ⟨key, .checkout 1⟩, ⟨key, .draw 0 [.u32]⟩, ⟨key, .draw 1 [.u32]⟩] =
        [.granted, .granted, .drawn [(.u32, .u32 0)], .drawn [(.u32, .u32 0)]] := by
  decide +kernel

end V2xw.Core
