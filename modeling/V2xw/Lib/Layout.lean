import Mathlib.Algebra.BigOperators.Group.List.Basic
import Mathlib.Data.List.Basic
import Mathlib.Data.List.Flatten
import Mathlib.Tactic.Ring

/-!
# Binary layouts

Fixed-width little-endian fields, and tables of them. A table of rows is laid out column by column:
all first fields, then all second fields, and so on; a record is a table of one row. A layout is the
list of its columns, each of which knows the bytes of its field and how to put them back into a row,
and it is complete when every row is recovered from its own bytes.

Each column of a table starts where the ones before it end. If the columns come with decreasing
widths, each of which divides those before it, then all of them are aligned as soon as the table is.

Tables are read back in the two orders decoders use: whole columns one after another, or row by row
with the offset of each column computed from the number of rows.

## Main definitions

* `Layout.Word` — fixed-width values, with their little-endian bytes `Layout.put`.
* `Layout.readAt`, `Layout.poke` — a bounds-checked read and an overwrite.
* `Layout.Column`, `Layout.Table` — the columns of a layout and complete layouts.
* `Layout.emit` — the bytes of a table.
* `Layout.Table.fillColumns`, `Layout.Table.readRows`, `Layout.Table.readRecord` — reading back.
* `Layout.Placed` — a column at an offset.
* `Layout.placed` — the columns of a table, with their offsets.

## Main results

* `Layout.length_emit` — the size of a table.
* `Layout.Table.fillColumns_emit`, `Layout.Table.readRows_emit`, `Layout.Table.readRecord_emit` —
  what was laid out is read back.
* `Layout.standsIn_placed` — the columns are where they are said to be.
* `Layout.aligned_placed` — they are aligned.
-/

namespace Layout

/-- A string of bytes. -/
abbrev Bytes := List UInt8

/-! ## Little-endian numbers -/

/-- The `w` low bytes of `n`, least significant first. -/
def leBytes : ℕ → ℕ → Bytes
  | 0, _ => []
  | w + 1, n => UInt8.ofNat n :: leBytes w (n / 256)

/-- The number whose bytes, least significant first, are given. -/
def leNat : Bytes → ℕ
  | [] => 0
  | b :: bs => b.toNat + 256 * leNat bs

@[simp]
lemma length_leBytes (w n : ℕ) : (leBytes w n).length = w := by
  induction w generalizing n with
  | zero => rfl
  | succ w ih => rw [leBytes, List.length_cons, ih]

lemma leNat_leBytes {w n : ℕ} (h : n < 256 ^ w) : leNat (leBytes w n) = n := by
  induction w generalizing n with
  | zero =>
    rw [pow_zero] at h
    rw [leBytes, leNat]
    omega
  | succ w ih =>
    have hq : n / 256 < 256 ^ w := Nat.div_lt_of_lt_mul (by rwa [pow_succ'] at h)
    rw [leBytes, leNat, ih hq, UInt8.toNat_ofNat']
    omega

/-! ## Words -/

/-- A type whose values fill a fixed number of bytes. -/
class Word (α : Type) where
  width : ℕ
  /-- The bit pattern as a number. -/
  toNat : α → ℕ
  /-- The value with a bit pattern. -/
  ofNat : ℕ → α
  width_pos : 0 < width
  toNat_lt : ∀ a, toNat a < 256 ^ width
  ofNat_toNat : ∀ a, ofNat (toNat a) = a

instance : Word UInt8 where
  width := 1
  toNat := UInt8.toNat
  ofNat := UInt8.ofNat
  width_pos := by decide
  toNat_lt a := a.toNat_lt
  ofNat_toNat _ := UInt8.ofNat_toNat

instance : Word UInt16 where
  width := 2
  toNat := UInt16.toNat
  ofNat := UInt16.ofNat
  width_pos := by decide
  toNat_lt a := a.toNat_lt
  ofNat_toNat _ := UInt16.ofNat_toNat

instance : Word UInt32 where
  width := 4
  toNat := UInt32.toNat
  ofNat := UInt32.ofNat
  width_pos := by decide
  toNat_lt a := a.toNat_lt
  ofNat_toNat _ := UInt32.ofNat_toNat

instance : Word UInt64 where
  width := 8
  toNat := UInt64.toNat
  ofNat := UInt64.ofNat
  width_pos := by decide
  toNat_lt a := a.toNat_lt
  ofNat_toNat _ := UInt64.ofNat_toNat

/-- Signed words travel as their two's complement. -/
instance : Word Int16 where
  width := 2
  toNat a := a.toUInt16.toNat
  ofNat n := Int16.ofUInt16 (UInt16.ofNat n)
  width_pos := by decide
  toNat_lt a := a.toUInt16.toNat_lt
  ofNat_toNat a := by rw [UInt16.ofNat_toNat]

instance : Word Int32 where
  width := 4
  toNat a := a.toUInt32.toNat
  ofNat n := Int32.ofUInt32 (UInt32.ofNat n)
  width_pos := by decide
  toNat_lt a := a.toUInt32.toNat_lt
  ofNat_toNat a := by rw [UInt32.ofNat_toNat]

instance : Word Int64 where
  width := 8
  toNat a := a.toUInt64.toNat
  ofNat n := Int64.ofUInt64 (UInt64.ofNat n)
  width_pos := by decide
  toNat_lt a := a.toUInt64.toNat_lt
  ofNat_toNat a := by rw [UInt64.ofNat_toNat]

lemma leBytes_leNat (bs : Bytes) : leBytes bs.length (leNat bs) = bs := by
  induction bs with
  | nil => rfl
  | cons b bs ih =>
    have hb := b.toNat_lt
    have hlow : UInt8.ofNat (b.toNat + 256 * leNat bs) = b := by
      rw [← UInt8.toNat_inj, UInt8.toNat_ofNat']
      omega
    have hhigh : (b.toNat + 256 * leNat bs) / 256 = leNat bs := by omega
    rw [List.length_cons, leNat, leBytes, hlow, hhigh, ih]

lemma leNat_lt (bs : Bytes) : leNat bs < 256 ^ bs.length := by
  induction bs with
  | nil => exact Nat.one_pos
  | cons b bs ih =>
    have hb := b.toNat_lt
    rw [leNat, List.length_cons, pow_succ]
    omega

/-- A fixed number of bytes. -/
structure Octets (n : ℕ) where
  bytes : Bytes
  length_eq : bytes.length = n
  deriving DecidableEq, Repr

/-- Octets travel as they are. -/
instance (n : ℕ) [NeZero n] : Word (Octets n) where
  width := n
  toNat a := leNat a.bytes
  ofNat k := ⟨leBytes n k, length_leBytes n k⟩
  width_pos := Nat.pos_of_neZero n
  toNat_lt a := by
    have h := leNat_lt a.bytes
    rwa [a.length_eq] at h
  ofNat_toNat a := by
    obtain ⟨bs, rfl⟩ := a
    exact congrArg (fun x => Octets.mk x.1 x.2)
      (Subtype.ext (leBytes_leNat bs) : (⟨_, length_leBytes _ _⟩ : {x : Bytes // x.length = _}) =
        ⟨bs, rfl⟩)

section Words

variable {α : Type} [Word α]

/-- The bytes of a word. -/
def put (a : α) : Bytes := leBytes (Word.width α) (Word.toNat a)

/-- The word with the given bytes. -/
def take (b : Bytes) : α := Word.ofNat (leNat b)

@[simp]
lemma length_put (a : α) : (put a).length = Word.width α := length_leBytes _ _

@[simp]
lemma take_put (a : α) : take (put a) = a := by
  rw [take, put, leNat_leBytes (Word.toNat_lt a), Word.ofNat_toNat]

end Words

/-! ## Bounds-checked reads -/

section Reads

variable {ε : Type} (fail : ℕ → ℕ → ℕ → ε)

/-- The `n` bytes at an offset. A read past the end fails with the offset, the bytes it needs and
the bytes there are. -/
def readAt (body : Bytes) (off n : ℕ) : Except ε Bytes :=
  if off + n ≤ body.length then .ok ((body.drop off).take n)
  else .error (fail off n (body.length - off))

lemma readAt_of_drop {body x rest : Bytes} {off n : ℕ} (h : body.drop off = x ++ rest)
    (hn : x.length = n) (hpos : 0 < n) : readAt fail body off n = .ok x := by
  have hlen : body.length - off = x.length + rest.length := by
    rw [← List.length_drop, h, List.length_append]
  rw [readAt, if_pos (by omega), h, ← hn, List.take_left]

end Reads

lemma drop_add_of_drop {body x rest : Bytes} {off n : ℕ} (h : body.drop off = x ++ rest)
    (hn : x.length = n) : body.drop (off + n) = rest := by
  rw [← List.drop_drop, h, ← hn, List.drop_left]

/-- A buffer with the bytes at an offset overwritten. -/
def poke (buf : Bytes) (off : ℕ) (x : Bytes) : Bytes :=
  buf.take off ++ (x ++ buf.drop (off + x.length))

/-! ## Columns -/

/-- One field of the rows of a table. -/
structure Column (ρ : Type) where
  width : ℕ
  /-- The bytes of the field of a row. -/
  bytes : ρ → Bytes
  /-- The row with the field set from its bytes. -/
  fill : Bytes → ρ → ρ
  width_pos : 0 < width
  length_bytes : ∀ r, (bytes r).length = width

variable {ρ : Type}

/-- The column of a field, from its accessors. -/
def field {α : Type} [Word α] (get : ρ → α) (set : α → ρ → ρ) : Column ρ where
  width := Word.width α
  bytes r := put (get r)
  fill b r := set (take b) r
  width_pos := Word.width_pos
  length_bytes r := length_put (get r)

@[simp]
lemma field_fill {α : Type} [Word α] (get : ρ → α) (set : α → ρ → ρ) (r r' : ρ) :
    (field get set).fill ((field get set).bytes r) r' = set (get r) r' := by
  show set (take (put (get r))) r' = set (get r) r'
  rw [take_put]

/-- A column of `n` zero bytes a row. -/
def reserved (n : ℕ) (hn : 0 < n) : Column ρ where
  width := n
  bytes _ := List.replicate n 0
  fill _ r := r
  width_pos := hn
  length_bytes _ := List.length_replicate

/-- The bytes a row takes over all columns. -/
def stride (cols : List (Column ρ)) : ℕ := (cols.map Column.width).sum

/-- The bytes of a table: its columns, one after another. -/
def emit (cols : List (Column ρ)) (rows : List ρ) : Bytes :=
  cols.flatMap fun c => rows.flatMap c.bytes

@[simp]
lemma emit_nil (rows : List ρ) : emit [] rows = [] := rfl

@[simp]
lemma emit_cons (c : Column ρ) (cs : List (Column ρ)) (rows : List ρ) :
    emit (c :: cs) rows = rows.flatMap c.bytes ++ emit cs rows := List.flatMap_cons

lemma emit_append (cs cs' : List (Column ρ)) (rows : List ρ) :
    emit (cs ++ cs') rows = emit cs rows ++ emit cs' rows := List.flatMap_append

lemma length_flatMap_of_width {f : ρ → Bytes} {w : ℕ} (hf : ∀ r, (f r).length = w)
    (rows : List ρ) : (rows.flatMap f).length = w * rows.length := by
  induction rows with
  | nil => rfl
  | cons r rows ih =>
    rw [List.flatMap_cons, List.length_append, hf, ih, List.length_cons, Nat.mul_succ]
    omega

lemma length_column (c : Column ρ) (rows : List ρ) :
    (rows.flatMap c.bytes).length = c.width * rows.length :=
  length_flatMap_of_width c.length_bytes rows

/-- **The size of a table** is its stride times the number of its rows. -/
@[simp]
lemma length_emit (cols : List (Column ρ)) (rows : List ρ) :
    (emit cols rows).length = stride cols * rows.length := by
  induction cols with
  | nil => simp [stride]
  | cons c cs ih =>
    rw [emit_cons, List.length_append, length_column, ih, stride, stride, List.map_cons,
      List.sum_cons, Nat.add_mul]

/-! ## Complete layouts -/

/-- A row with every field set, in order, from the bytes of another row. -/
def refill (cols : List (Column ρ)) (r r₀ : ρ) : ρ :=
  cols.foldl (fun acc c => c.fill (c.bytes r) acc) r₀

@[simp]
lemma refill_nil (r r₀ : ρ) : refill [] r r₀ = r₀ := rfl

@[simp]
lemma refill_cons (c : Column ρ) (cs : List (Column ρ)) (r r₀ : ρ) :
    refill (c :: cs) r r₀ = refill cs r (c.fill (c.bytes r) r₀) := rfl

/-- A layout from whose columns every row is recovered. -/
structure Table (ρ : Type) where
  /-- The columns, in the order they are laid out. -/
  columns : List (Column ρ)
  /-- The row whose fields have not been read yet. -/
  empty : ρ
  complete : ∀ r, refill columns r empty = r

namespace Table

variable {ε : Type} (fail : ℕ → ℕ → ℕ → ε) (body : Bytes)

/-! ## Reading column by column -/

/-- Reads one column into the rows. -/
def fillColumn (c : Column ρ) : ℕ → List ρ → Except ε (List ρ)
  | _, [] => .ok []
  | p, r :: rs => do
    let v ← readAt fail body p c.width
    let rs' ← fillColumn c (p + c.width) rs
    .ok (c.fill v r :: rs')

/-- Reads columns into the rows, one after another. -/
def fillAll : List (Column ρ) → ℕ → List ρ → Except ε (List ρ)
  | [], _, rows => .ok rows
  | c :: cs, p, rows => do
    let rows' ← fillColumn fail body c p rows
    fillAll cs (p + c.width * rows.length) rows'

/-- Reads a table of `n` rows at an offset, column by column. -/
def fillColumns (t : Table ρ) (p n : ℕ) : Except ε (List ρ) :=
  fillAll fail body t.columns p (List.replicate n t.empty)

/-! ## Reading row by row -/

/-- Reads the fields of row `i` of a table of `n` rows into a row. -/
def readFields (n i : ℕ) : List (Column ρ) → ℕ → ρ → Except ε ρ
  | [], _, r => .ok r
  | c :: cs, p, r => do
    let v ← readAt fail body (p + c.width * i) c.width
    readFields n i cs (p + c.width * n) (c.fill v r)

/-- Reads row `i` of a table of `n` rows at an offset. -/
def readRow (t : Table ρ) (p n i : ℕ) : Except ε ρ :=
  readFields fail body n i t.columns p t.empty

/-- Reads a table of `n` rows at an offset, row by row. -/
def readRows (t : Table ρ) (p n : ℕ) : Except ε (List ρ) :=
  (List.range n).mapM fun i => t.readRow fail body p n i

/-- Reads a record at an offset. -/
def readRecord (t : Table ρ) (p : ℕ) : Except ε ρ := t.readRow fail body p 1 0

/-- Reads `n` records that start `step` bytes apart. -/
def readRecords (t : Table ρ) (p step n : ℕ) : Except ε (List ρ) :=
  (List.range n).mapM fun i => t.readRecord fail body (p + step * i)

/-! ## What was laid out is read back -/

section Emitted

variable {body} {rest : Bytes}

/-- A column read back into the rows it came from. -/
lemma fillColumn_emit (c : Column ρ) (g : ρ → ρ) (rows : List ρ) :
    ∀ {p : ℕ}, body.drop p = rows.flatMap c.bytes ++ rest →
      fillColumn fail body c p (rows.map g) = .ok (rows.map fun r => c.fill (c.bytes r) (g r)) := by
  induction rows with
  | nil => intro p _; rfl
  | cons r rows ih =>
    intro p h
    rw [List.flatMap_cons, List.append_assoc] at h
    have hread := readAt_of_drop fail h (c.length_bytes r) c.width_pos
    have hrest := ih (drop_add_of_drop h (c.length_bytes r))
    rw [List.map_cons, fillColumn, hread]
    show (fillColumn fail body c (p + c.width) (rows.map g)).bind _ = _
    rw [hrest]
    rfl

/-- Columns read back into the rows they came from. -/
lemma fillAll_emit (cols : List (Column ρ)) (rows : List ρ) :
    ∀ {p : ℕ} (g : ρ → ρ), body.drop p = emit cols rows ++ rest →
      fillAll fail body cols p (rows.map g) = .ok (rows.map fun r => refill cols r (g r)) := by
  induction cols with
  | nil => intro p g _; rfl
  | cons c cs ih =>
    intro p g h
    rw [emit_cons, List.append_assoc] at h
    have hcol := fillColumn_emit fail c g rows h
    have hrest := ih (fun r => c.fill (c.bytes r) (g r))
      (drop_add_of_drop h (length_column c rows))
    rw [fillAll, hcol, List.length_map]
    exact hrest

/-- **A table laid out at an offset is read back column by column.** -/
lemma fillColumns_emit (t : Table ρ) {p : ℕ} {rows : List ρ}
    (h : body.drop p = emit t.columns rows ++ rest) :
    t.fillColumns fail body p rows.length = .ok rows := by
  have hfill := fillAll_emit fail t.columns rows (fun _ => t.empty) h
  rw [List.map_const'] at hfill
  rw [fillColumns, hfill]
  simp only [t.complete, List.map_id']

/-- The block of row `i` stands `i` widths into blocks of one width. -/
lemma drop_flatMap {f : ρ → Bytes} {w : ℕ} (hf : ∀ r, (f r).length = w) {rows : List ρ} {i : ℕ}
    {r : ρ} (hr : rows[i]? = some r) :
    (rows.flatMap f).drop (w * i) = f r ++ (rows.drop (i + 1)).flatMap f := by
  induction rows generalizing i with
  | nil => simp at hr
  | cons r' rows ih =>
    cases i with
    | zero =>
      obtain rfl : r' = r := by simpa using hr
      rfl
    | succ i =>
      have hsplit : w * (i + 1) = (f r').length + w * i := by
        rw [hf, Nat.mul_succ, Nat.add_comm]
      rw [List.flatMap_cons, hsplit, ← List.drop_drop, List.drop_left]
      exact ih (by simpa using hr)

lemma drop_add_flatMap {f : ρ → Bytes} {w : ℕ} (hf : ∀ r, (f r).length = w) {rows : List ρ}
    {i p : ℕ} {r : ρ} (hr : rows[i]? = some r) (h : body.drop p = rows.flatMap f ++ rest) :
    body.drop (p + w * i) = f r ++ ((rows.drop (i + 1)).flatMap f ++ rest) := by
  have hi : i < rows.length := (List.getElem?_eq_some_iff.1 hr).1
  have hle : w * i ≤ (rows.flatMap f).length := by
    rw [length_flatMap_of_width hf]
    exact Nat.mul_le_mul_left _ hi.le
  rw [← List.drop_drop, h, List.drop_append_of_le_length hle, drop_flatMap hf hr,
    List.append_assoc]

lemma drop_field {cols : List (Column ρ)} {k : ℕ} {c : Column ρ} (hc : cols[k]? = some c)
    {rows : List ρ} {i : ℕ} {r : ρ} (hr : rows[i]? = some r) {p : ℕ}
    (h : body.drop p = emit cols rows ++ rest) :
    ∃ rest', body.drop (p + stride (cols.take k) * rows.length + c.width * i) =
      c.bytes r ++ rest' := by
  have hsplit : cols = cols.take k ++ c :: cols.drop (k + 1) := by
    obtain ⟨hlt, hget⟩ := List.getElem?_eq_some_iff.1 hc
    rw [← hget, List.cons_getElem_drop_succ, List.take_append_drop]
  rw [hsplit, emit_append, emit_cons, List.append_assoc, List.append_assoc] at h
  exact ⟨_, drop_add_flatMap c.length_bytes hr
    (drop_add_of_drop h (length_emit (cols.take k) rows))⟩

/-- The fields of one row read back. -/
lemma readFields_emit (cols : List (Column ρ)) {rows : List ρ} {i : ℕ} {r : ρ}
    (hr : rows[i]? = some r) :
    ∀ {p : ℕ} (r₀ : ρ), body.drop p = emit cols rows ++ rest →
      readFields fail body rows.length i cols p r₀ = .ok (refill cols r r₀) := by
  induction cols with
  | nil => intro p r₀ _; rfl
  | cons c cs ih =>
    intro p r₀ h
    rw [emit_cons, List.append_assoc] at h
    have hat := drop_add_flatMap c.length_bytes hr h
    have hread := readAt_of_drop fail hat (c.length_bytes r) c.width_pos
    rw [readFields, hread]
    exact ih _ (drop_add_of_drop h (length_column c rows))

lemma readRow_emit (t : Table ρ) {p i : ℕ} {rows : List ρ} {r : ρ} (hr : rows[i]? = some r)
    (h : body.drop p = emit t.columns rows ++ rest) :
    t.readRow fail body p rows.length i = .ok r := by
  rw [readRow, readFields_emit fail t.columns hr t.empty h, t.complete]

lemma mapM_range {α : Type} {f : ℕ → Except ε α} {xs : List α}
    (h : ∀ i x, xs[i]? = some x → f i = .ok x) : (List.range xs.length).mapM f = .ok xs := by
  induction xs generalizing f with
  | nil => rfl
  | cons x xs ih =>
    have hrest : (List.range xs.length).mapM (f ∘ Nat.succ) = .ok xs :=
      ih fun i y hy => h (i + 1) y (by simpa using hy)
    rw [List.length_cons, List.range_succ_eq_map, List.mapM_cons, List.mapM_map, hrest,
      h 0 x rfl]
    rfl

/-- **A table laid out at an offset is read back row by row.** -/
lemma readRows_emit (t : Table ρ) {p : ℕ} {rows : List ρ}
    (h : body.drop p = emit t.columns rows ++ rest) :
    t.readRows fail body p rows.length = .ok rows :=
  mapM_range fun _ _ hr => t.readRow_emit fail hr h

/-- **A record laid out at an offset is read back.** -/
lemma readRecord_emit (t : Table ρ) {p : ℕ} {r : ρ}
    (h : body.drop p = emit t.columns [r] ++ rest) : t.readRecord fail body p = .ok r :=
  t.readRow_emit fail (show [r][0]? = some r from rfl) h

/-- **Records laid out one after another, each followed by the same padding, are read back.** -/
lemma readRecords_emit (t : Table ρ) {p step : ℕ} {rows : List ρ} {pad : Bytes}
    (hstep : stride t.columns + pad.length = step)
    (h : body.drop p = rows.flatMap (fun r => emit t.columns [r] ++ pad) ++ rest) :
    t.readRecords fail body p step rows.length = .ok rows := by
  have hwidth : ∀ r, (emit t.columns [r] ++ pad).length = step := by
    intro r
    rw [List.length_append, length_emit, List.length_singleton, Nat.mul_one, hstep]
  refine mapM_range fun i r hr => ?_
  have hat := drop_add_flatMap hwidth hr h
  rw [List.append_assoc] at hat
  exact t.readRecord_emit fail hat

end Emitted

end Table

/-! ## Where the columns of a table stand -/

section Offsets

/-- A column that was laid out. -/
structure Placed where
  off : ℕ
  width : ℕ
  bytes : Bytes

namespace Placed

/-- The column starts at a multiple of the size of its elements. -/
def Aligned (x : Placed) : Prop := x.width ∣ x.off

/-- The column is in a body. -/
def StandsIn (x : Placed) (body : Bytes) : Prop := ∃ rest, body.drop x.off = x.bytes ++ rest

end Placed

variable {ρ : Type} {cols : List (Column ρ)} {rows : List ρ} {p : ℕ}

/-- The columns of a table that starts at an offset. -/
def placed (rows : List ρ) : List (Column ρ) → ℕ → List Placed
  | [], _ => []
  | c :: cs, p =>
    ⟨p, c.width, rows.flatMap c.bytes⟩ :: placed rows cs (p + c.width * rows.length)

lemma standsIn_placed {body : Bytes} (cols : List (Column ρ)) :
    ∀ {p : ℕ} {rest : Bytes}, body.drop p = emit cols rows ++ rest →
      ∀ x ∈ placed rows cols p, x.StandsIn body := by
  induction cols with
  | nil => exact fun _ x hx => absurd hx List.not_mem_nil
  | cons c cs ih =>
    intro p rest h x hx
    rw [emit_cons, List.append_assoc] at h
    rcases List.mem_cons.1 hx with rfl | hx
    · exact ⟨_, h⟩
    · exact ih (drop_add_of_drop h (length_column c rows)) x hx

/-- **Columns of decreasing widths are aligned** in a table that is. -/
lemma aligned_placed (cols : List (Column ρ)) :
    ∀ {p : ℕ}, cols.Pairwise (fun c c' => c'.width ∣ c.width) → (∀ c ∈ cols, c.width ∣ p) →
      ∀ x ∈ placed rows cols p, x.Aligned := by
  induction cols with
  | nil => exact fun _ _ x hx => absurd hx List.not_mem_nil
  | cons c cs ih =>
    intro p hw hp x hx
    obtain ⟨hc, hcs⟩ := List.pairwise_cons.1 hw
    rcases List.mem_cons.1 hx with rfl | hx
    · exact hp c List.mem_cons_self
    · refine ih hcs (fun c' hc' => ?_) x hx
      have hdvd : c'.width ∣ c.width * rows.length := Dvd.dvd.mul_right (hc c' hc') _
      exact Nat.dvd_add (hp c' (List.mem_cons_of_mem _ hc')) hdvd

end Offsets

end Layout
