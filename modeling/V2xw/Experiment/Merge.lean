import V2xw.Experiment.Document

/-!
# Base and overlay

A scenario may name a base. The overlay is merged onto it as a document: mappings key by key, and
anything else by replacing the value. A `null` of the overlay deletes the key of the base. A mapping
that the base has no mapping for is copied as it stands, with the deletions it holds.

## Main definitions

* `merge` — the merge of an overlay onto a base.
* `Rule` — what the merge is for, path by path.
* `Deletes` — each `null` of the overlay stands in a mapping that the base has too.

## Main results

* `getKey_merge` — the merged document, key by key.
* `rule_merge_iff` — the merge obeys the rule exactly when each `null` can delete.
-/

namespace V2xw.Experiment

/-! ## The merge -/

namespace Json

/-- The value at a path of object keys. -/
def valueAt : List String → Json → Option Json
  | [], doc => some doc
  | key :: path, doc => (doc.getKey key).bind (valueAt path)

def isNull : Json → Bool
  | .null => true
  | _ => false

def isObject : Json → Bool
  | .object _ => true
  | _ => false

end Json

/-- A field is inserted: in the place of the one with its key, or else in the order of the keys. -/
def insertField (key : String) (value : Json) (fields : List (String × Json)) :
    List (String × Json) :=
  if (fields.lookup key).isSome then fields.map fun f => if f.1 = key then (key, value) else f
  else fields.takeWhile (fun f => f.1 < key) ++ (key, value) :: fields.dropWhile fun f => f.1 < key

/-- The fields without the one with a key. -/
def removeField (key : String) (fields : List (String × Json)) : List (String × Json) :=
  fields.filter fun f => f.1 ≠ key

mutual

/-- Merges an overlay onto a base. -/
def merge (base : Json) : Json → Json
  | .object o =>
    match base with
    | .object b => .object (mergeFields b o)
    | _ => .object o
  | overlay => overlay

/-- Merges the fields of an overlay, one after the other. -/
def mergeFields (out : List (String × Json)) : List (String × Json) → List (String × Json)
  | [] => out
  | f :: o => mergeFields (mergeField out f) o

/-- Merges a field of an overlay: `null` removes the key, and a key the base lacks is copied. -/
def mergeField (out : List (String × Json)) : String × Json → List (String × Json)
  | (key, value) =>
    if value.isNull then removeField key out
    else
      match out.lookup key with
      | some existing => insertField key (merge existing value) out
      | none => insertField key value out

end

/-! ## Fields -/

section Fields

variable {fields : List (String × Json)} {key a : String} {value : Json}

lemma lookup_insertField :
    (insertField key value fields).lookup a = if a = key then some value else fields.lookup a := by
  unfold insertField
  split_ifs with hsome ha ha
  · subst ha
    induction fields with
    | nil => cases hsome
    | cons f fields ih =>
      obtain ⟨k, v⟩ := f
      by_cases hk : k = a
      · simp [hk]
      · have hne : (a == k) = false := beq_false_of_ne (Ne.symm hk)
        simp only [List.lookup_cons, hne] at hsome
        simp only [List.map_cons, hk, if_false, List.lookup_cons, hne]
        exact ih hsome
  · clear hsome
    induction fields with
    | nil => rfl
    | cons f fields ih =>
      obtain ⟨k, v⟩ := f
      by_cases hk : k = key
      · have hne : (a == key) = false := beq_false_of_ne ha
        simp only [List.map_cons, hk, if_true, List.lookup_cons, hne]
        exact ih
      · simp only [List.map_cons, hk, if_false, List.lookup_cons]
        cases a == k with
        | true => rfl
        | false => exact ih
  · subst ha
    have hnone : fields.lookup a = none := Option.not_isSome_iff_eq_none.1 hsome
    rw [← List.takeWhile_append_dropWhile (p := fun f : String × Json => decide (f.1 < a))
      (l := fields), List.lookup_append] at hnone
    rw [List.lookup_append, (Option.or_eq_none_iff.1 hnone).1]
    simp
  · have hne : (a == key) = false := beq_false_of_ne ha
    rw [List.lookup_append]
    simp only [List.lookup_cons, hne]
    rw [← List.lookup_append, List.takeWhile_append_dropWhile]

lemma lookup_removeField :
    (removeField key fields).lookup a = if a = key then none else fields.lookup a := by
  unfold removeField
  induction fields with
  | nil => simp
  | cons f fields ih =>
    obtain ⟨k, v⟩ := f
    by_cases hk : k = key
    · rw [List.filter_cons_of_neg (by simpa using hk), ih]
      split_ifs with ha
      · rfl
      · have hne : (a == k) = false := beq_false_of_ne (hk ▸ ha)
        simp only [List.lookup_cons, hne]
    · rw [List.filter_cons_of_pos (by simpa using hk)]
      simp only [List.lookup_cons]
      by_cases hak : a = k
      · rw [hak, beq_self_eq_true, if_neg hk]
      · rw [beq_false_of_ne hak]
        exact ih

lemma mem_of_lookup (h : fields.lookup key = some value) : (key, value) ∈ fields := by
  induction fields with
  | nil => cases h
  | cons f fields ih =>
    obtain ⟨k, v⟩ := f
    by_cases hk : key = k
    · subst hk
      simp only [List.lookup_cons, beq_self_eq_true, Option.some.injEq] at h
      exact h ▸ List.mem_cons_self
    · simp only [List.lookup_cons, beq_false_of_ne hk] at h
      exact List.mem_cons_of_mem _ (ih h)

lemma lookup_of_mem (hnd : (fields.map Prod.fst).Nodup) (h : (key, value) ∈ fields) :
    fields.lookup key = some value := by
  induction fields with
  | nil => cases h
  | cons f fields ih =>
    obtain ⟨k, v⟩ := f
    rw [List.map_cons, List.nodup_cons] at hnd
    rcases List.mem_cons.1 h with heq | hin
    · cases heq
      simp only [List.lookup_cons, beq_self_eq_true]
    · have hk : key ≠ k := by
        rintro rfl
        exact hnd.1 (List.mem_map.2 ⟨_, hin, rfl⟩)
      simp only [List.lookup_cons, beq_false_of_ne hk]
      exact ih hnd.2 hin

/-- A field that is there may be inserted again. -/
lemma insertField_of_lookup (hnd : (fields.map Prod.fst).Nodup)
    (h : fields.lookup key = some value) : insertField key value fields = fields := by
  rw [insertField, if_pos (by rw [h]; rfl)]
  refine (List.map_congr_left fun f hf => ?_).trans (List.map_id _)
  split_ifs with hk
  · have hf' : fields.lookup key = some f.2 := lookup_of_mem hnd (by rw [← hk]; exact hf)
    rw [h] at hf'
    rw [← hk, Option.some.inj hf']
    rfl
  · rfl

lemma removeField_of_lookup (h : fields.lookup key = none) : removeField key fields = fields := by
  refine List.filter_eq_self.2 fun f hf => ?_
  rw [decide_eq_true_iff]
  rintro rfl
  rw [List.lookup_eq_none_iff] at h
  simpa using h f hf

lemma nodup_insertField (hnd : (fields.map Prod.fst).Nodup) :
    ((insertField key value fields).map Prod.fst).Nodup := by
  unfold insertField
  split_ifs with hsome
  · have hkeys : (fields.map fun f => if f.1 = key then (key, value) else f).map Prod.fst =
        fields.map Prod.fst := by
      rw [List.map_map]
      refine List.map_congr_left fun f _ => ?_
      simp only [Function.comp_apply]
      split_ifs with hk
      · exact hk.symm
      · rfl
    rw [hkeys]
    exact hnd
  · have hperm : (fields.takeWhile (fun f => f.1 < key) ++
        (key, value) :: fields.dropWhile fun f => f.1 < key).Perm ((key, value) :: fields) := by
      refine List.perm_middle.trans ?_
      rw [List.takeWhile_append_dropWhile]
    refine (hperm.map Prod.fst).nodup_iff.2 (List.nodup_cons.2 ⟨fun hin => hsome ?_, hnd⟩)
    obtain ⟨⟨k, v⟩, hf, hk⟩ := List.mem_map.1 hin
    obtain rfl : k = key := hk
    rw [lookup_of_mem hnd hf]
    rfl

end Fields

/-! ## The merged document, key by key -/

/-- What the merge makes of a key that the overlay has. -/
def combine (existing : Option Json) (value : Json) : Option Json :=
  if value.isNull then none else some (existing.elim value fun e => merge e value)

lemma merge_of_base {base : Json} (h : base.isObject = false) (overlay : Json) :
    merge base overlay = overlay := by
  cases overlay <;> cases base <;> first | rfl | cases h

lemma merge_of_overlay (base : Json) {overlay : Json} (h : overlay.isObject = false) :
    merge base overlay = overlay := by
  cases overlay <;> first | rfl | cases h

lemma lookup_mergeField {out : List (String × Json)} {key a : String} {value : Json} :
    (mergeField out (key, value)).lookup a =
      if a = key then combine (out.lookup key) value else out.lookup a := by
  rw [mergeField, combine]
  split
  · rw [lookup_removeField]
  · cases out.lookup key with
    | none => exact lookup_insertField
    | some e => exact lookup_insertField

lemma lookup_mergeFields {o : List (String × Json)} (hnd : (o.map Prod.fst).Nodup) (a : String) :
    ∀ out, (mergeFields out o).lookup a =
      (o.lookup a).elim (out.lookup a) fun v => combine (out.lookup a) v := by
  induction o with
  | nil => exact fun out => rfl
  | cons f o ih =>
    obtain ⟨k, v⟩ := f
    obtain ⟨hk, hnd⟩ := List.nodup_cons.1 (by simpa only [List.map_cons] using hnd)
    intro out
    rw [mergeFields, ih hnd, lookup_mergeField]
    by_cases hak : a = k
    · subst hak
      have hnone : o.lookup a = none := by
        cases hl : o.lookup a with
        | none => rfl
        | some w => exact absurd (List.mem_map.2 ⟨_, mem_of_lookup hl, rfl⟩) hk
      simp [List.lookup_cons, hnone]
    · simp only [List.lookup_cons, beq_false_of_ne hak, if_neg hak]

/-- **One key of the merged document.** -/
theorem getKey_merge {b o : List (String × Json)} (hnd : (o.map Prod.fst).Nodup) (key : String) :
    (merge (.object b) (.object o)).getKey key =
      (o.lookup key).elim (b.lookup key) fun v => combine (b.lookup key) v :=
  lookup_mergeFields hnd key b

namespace Json

lemma Keyed.nodup {fields : List (String × Json)} (h : (Json.object fields).Keyed) :
    (fields.map Prod.fst).Nodup := by
  cases h with
  | object hnd _ => exact hnd

lemma Keyed.lookup {fields : List (String × Json)} (h : (Json.object fields).Keyed) {key : String}
    {value : Json} (hl : fields.lookup key = some value) : value.Keyed := by
  cases h with
  | object _ h => exact h _ (mem_of_lookup hl)

lemma eq_object {doc : Json} (h : doc.isObject = true) : ∃ fields, doc = .object fields := by
  cases doc with
  | object fields => exact ⟨fields, rfl⟩
  | _ => cases h

lemma eq_null {doc : Json} (h : doc.isNull = true) : doc = .null := by
  cases doc with
  | null => rfl
  | _ => cases h

/-- A value behind a key is behind a key of an object. -/
lemma valueAt_cons {doc : Json} {key : String} {path : List String} {v : Json}
    (h : doc.valueAt (key :: path) = some v) :
    ∃ fields w, doc = .object fields ∧ fields.lookup key = some w ∧ w.valueAt path = some v := by
  obtain ⟨w, hw, hv⟩ := Option.bind_eq_some_iff.1 h
  cases doc with
  | object fields => exact ⟨fields, w, rfl, hw, hv⟩
  | _ => cases hw

lemma valueAt_object {fields : List (String × Json)} (key : String) (path : List String) :
    (Json.object fields).valueAt (key :: path) = (fields.lookup key).bind (valueAt path) := rfl

end Json

/-! ## The rule -/

/-- Where the overlay holds something above a path, both documents hold an object there. -/
def Open (base overlay : Json) (path : List String) : Prop :=
  ∀ q, q <+: path → q ≠ path → ∀ w, overlay.valueAt q = some w →
    w.isObject = true ∧ ∃ u, base.valueAt q = some u ∧ u.isObject = true

/-- **The rule of a merge**, at every path of object keys. -/
structure Rule (base overlay merged : Json) : Prop where
  /-- Nothing is where the overlay holds `null`, or below. -/
  deleted : ∀ path q, q <+: path → overlay.valueAt q = some .null → merged.valueAt path = none
  /-- Any other value of the overlay that is no object replaces what the base has. -/
  replaced : ∀ path v, overlay.valueAt path = some v → v.isNull = false → v.isObject = false →
    merged.valueAt path = some v
  /-- Where the overlay is silent the base is kept. -/
  kept : ∀ path, overlay.valueAt path = none → Open base overlay path →
    merged.valueAt path = base.valueAt path
  /-- There is nothing else. -/
  only : ∀ path v, merged.valueAt path = some v →
    (∃ w, overlay.valueAt path = some w) ∨ overlay.valueAt path = none ∧ Open base overlay path

/-- Every `null` of the overlay can delete: it is not the overlay itself, and each mapping it stands
in is a mapping of the base too. -/
def Deletes (base overlay : Json) : Prop :=
  overlay ≠ .null ∧ ∀ path, overlay.valueAt path = some .null → ∀ q, q <+: path → q ≠ path →
    ∃ u, base.valueAt q = some u ∧ u.isObject = true

section Rule

variable {base overlay : Json}

/-- A value without a `null` at a path of keys. -/
def NullFree (doc : Json) : Prop := ∀ path, doc.valueAt path ≠ some .null

lemma Deletes.nullFree_of_base (h : Deletes base overlay) (hb : base.isObject = false) :
    NullFree overlay := by
  intro path hnull
  cases path with
  | nil => exact h.1 (Option.some.inj hnull)
  | cons key path =>
    obtain ⟨u, hu, hobj⟩ := h.2 _ hnull [] (List.nil_prefix) (List.cons_ne_nil _ _).symm
    obtain rfl : base = u := Option.some.inj hu
    rw [hb] at hobj
    cases hobj

variable {b o : List (String × Json)} {key : String} {e v : Json}

lemma Deletes.nullFree_of_lookup (h : Deletes (.object b) (.object o))
    (hv : o.lookup key = some v) (hb : b.lookup key = none) (hnull : v.isNull = false) :
    NullFree v := by
  intro path hp
  cases path with
  | nil =>
    obtain rfl : v = .null := Option.some.inj hp
    cases hnull
  | cons k path =>
    have ho : (Json.object o).valueAt (key :: k :: path) = some .null := by
      rw [Json.valueAt_object, hv]
      exact hp
    obtain ⟨u, hu, -⟩ := h.2 _ ho [key] (by simp) (by simp)
    rw [Json.valueAt_object, hb] at hu
    cases hu

lemma Deletes.lookup (h : Deletes (.object b) (.object o)) (hv : o.lookup key = some v)
    (hb : b.lookup key = some e) (hnull : v.isNull = false) : Deletes e v := by
  refine ⟨?_, fun path hp q hq hne => ?_⟩
  · rintro rfl
    cases hnull
  have ho : (Json.object o).valueAt (key :: path) = some .null := by
    rw [Json.valueAt_object, hv]
    exact hp
  obtain ⟨u, hu, hobj⟩ := h.2 _ ho (key :: q) (List.cons_prefix_cons.2 ⟨rfl, hq⟩)
    fun heq => hne (List.cons.inj heq).2
  rw [Json.valueAt_object, hb] at hu
  exact ⟨u, hu, hobj⟩

/-! ## The merge obeys the rule -/

/-- Below a key that the overlay has. -/
lemma valueAt_merge (ho : (Json.object o).Keyed) (hv : o.lookup key = some v)
    (path : List String) :
    (merge (.object b) (.object o)).valueAt (key :: path) =
      (combine (b.lookup key) v).bind (Json.valueAt path) := by
  rw [Json.valueAt, getKey_merge ho.nodup, hv]
  rfl

/-- Below a key that the overlay does not have. -/
lemma valueAt_merge_of_none (ho : (Json.object o).Keyed) (hv : o.lookup key = none)
    (path : List String) :
    (merge (.object b) (.object o)).valueAt (key :: path) =
      (Json.object b).valueAt (key :: path) := by
  rw [Json.valueAt, getKey_merge ho.nodup, hv]
  rfl

lemma combine_some (hnull : v.isNull = false) : combine (some e) v = some (merge e v) := by
  rw [combine, hnull]
  rfl

lemma combine_none (hnull : v.isNull = false) : combine none v = some v := by
  rw [combine, hnull]
  rfl

/-- Deletions, by induction on the path. -/
lemma deleted_merge {path : List String} : ∀ {base overlay : Json}, overlay.Keyed →
    Deletes base overlay → ∀ q, q <+: path → overlay.valueAt q = some .null →
      (merge base overlay).valueAt path = none := by
  induction path with
  | nil =>
    intro base overlay _ h q hq hnull
    rw [List.prefix_nil.1 hq] at hnull
    exact absurd (Option.some.inj hnull) h.1
  | cons key path ih =>
    intro base overlay ho h q hq hnull
    cases hb : base.isObject with
    | false => exact absurd hnull (h.nullFree_of_base hb q)
    | true =>
      cases q with
      | nil => exact absurd (Option.some.inj hnull) h.1
      | cons k q =>
        obtain ⟨rfl, hqs⟩ := List.cons_prefix_cons.1 hq
        obtain ⟨o, v, rfl, hv, hnull⟩ := Json.valueAt_cons hnull
        obtain ⟨b, rfl⟩ := Json.eq_object hb
        rw [valueAt_merge ho hv]
        cases hvn : v.isNull with
        | true =>
          rw [combine, hvn]
          rfl
        | false =>
          cases he : b.lookup k with
          | none => exact absurd hnull (h.nullFree_of_lookup hv he hvn q)
          | some e =>
            rw [combine_some hvn]
            exact ih (ho.lookup hv) (h.lookup hv he hvn) q hqs hnull

/-- Replacements, by induction on the path. -/
lemma replaced_merge {path : List String} {v : Json} (hvn : v.isNull = false)
    (hvo : v.isObject = false) : ∀ {base overlay : Json}, overlay.Keyed →
      overlay.valueAt path = some v → (merge base overlay).valueAt path = some v := by
  induction path with
  | nil =>
    intro base overlay _ hv
    obtain rfl : overlay = v := Option.some.inj hv
    rw [merge_of_overlay base hvo]
    rfl
  | cons key path ih =>
    intro base overlay ho hv
    cases hb : base.isObject with
    | false => rw [merge_of_base hb, hv]
    | true =>
      obtain ⟨o, w, rfl, hw, hv⟩ := Json.valueAt_cons hv
      obtain ⟨b, rfl⟩ := Json.eq_object hb
      have hwn : w.isNull = false := by
        cases hwn : w.isNull with
        | false => rfl
        | true =>
          -- Nothing but itself is behind `null`.
          rw [Json.eq_null hwn] at hv
          cases path with
          | nil => rw [← Option.some.inj hv] at hvn; cases hvn
          | cons k path => cases hv
      rw [valueAt_merge ho hw]
      cases b.lookup key with
      | none => rwa [combine_none hwn]
      | some e =>
        rw [combine_some hwn]
        exact ih (ho.lookup hw) hv

/-- The base where the overlay is silent, by induction on the path. -/
lemma kept_merge {path : List String} : ∀ {base overlay : Json}, overlay.Keyed →
    overlay.valueAt path = none → Open base overlay path →
      (merge base overlay).valueAt path = base.valueAt path := by
  induction path with
  | nil =>
    intro base overlay _ hnone
    cases hnone
  | cons key path ih =>
    intro base overlay ho hnone hopen
    obtain ⟨hobj, u, hu, hbobj⟩ := hopen [] List.nil_prefix (List.cons_ne_nil _ _).symm _ rfl
    obtain rfl : base = u := Option.some.inj hu
    obtain ⟨o, rfl⟩ := Json.eq_object hobj
    obtain ⟨b, rfl⟩ := Json.eq_object hbobj
    cases hv : o.lookup key with
    | none => exact valueAt_merge_of_none ho hv path
    | some v =>
      rw [Json.valueAt_object, hv] at hnone
      have hpath : path ≠ [] := by
        rintro rfl
        cases hnone
      obtain ⟨hvobj, u, hu, -⟩ := hopen [key] (by simp) (by simpa using hpath.symm) v (by
        rw [Json.valueAt_object, hv]
        rfl)
      obtain ⟨e, he, hue⟩ := Option.bind_eq_some_iff.1 (show (b.lookup key).bind _ = some u from hu)
      have hvn : v.isNull = false := by
        obtain ⟨fields, rfl⟩ := Json.eq_object hvobj
        rfl
      rw [valueAt_merge ho hv, Json.valueAt_object, he, combine_some hvn]
      refine ih (ho.lookup hv) hnone fun q hq hne w hw => ?_
      obtain ⟨hwobj, u', hu', huobj⟩ := hopen (key :: q) (List.cons_prefix_cons.2 ⟨rfl, hq⟩)
        (fun heq => hne (List.cons.inj heq).2) w (by rw [Json.valueAt_object, hv]; exact hw)
      rw [Json.valueAt_object, he] at hu'
      exact ⟨hwobj, u', hu', huobj⟩

/-- Nothing else, by induction on the path. -/
lemma only_merge {path : List String} {x : Json} : ∀ {base overlay : Json}, overlay.Keyed →
    (merge base overlay).valueAt path = some x →
      (∃ w, overlay.valueAt path = some w) ∨
        overlay.valueAt path = none ∧ Open base overlay path := by
  induction path with
  | nil => exact fun {base overlay} _ _ => .inl ⟨overlay, rfl⟩
  | cons key path ih =>
    intro base overlay ho hx
    cases hb : base.isObject with
    | false =>
      rw [merge_of_base hb] at hx
      exact .inl ⟨x, hx⟩
    | true =>
      cases hobj : overlay.isObject with
      | false =>
        rw [merge_of_overlay base hobj] at hx
        exact .inl ⟨x, hx⟩
      | true =>
        obtain ⟨o, rfl⟩ := Json.eq_object hobj
        obtain ⟨b, rfl⟩ := Json.eq_object hb
        cases hv : o.lookup key with
        | none =>
          have hsilent : ∀ q, (Json.object o).valueAt (key :: q) = none := fun q => by
            rw [Json.valueAt_object, hv]
            rfl
          refine .inr ⟨hsilent path, fun q hq hne w hw => ?_⟩
          cases q with
          | nil => exact ⟨(Option.some.inj hw) ▸ rfl, _, rfl, rfl⟩
          | cons k q =>
            obtain ⟨rfl, -⟩ := List.cons_prefix_cons.1 hq
            rw [hsilent] at hw
            cases hw
        | some v =>
          rw [valueAt_merge ho hv] at hx
          rw [Json.valueAt_object, hv, Option.bind_some]
          cases hvn : v.isNull with
          | true =>
            rw [combine, hvn] at hx
            cases hx
          | false =>
            cases he : b.lookup key with
            | none =>
              rw [he, combine_none hvn] at hx
              exact .inl ⟨x, hx⟩
            | some e =>
              rw [he, combine_some hvn] at hx
              refine (ih (ho.lookup hv) hx).imp id fun h => ⟨h.1, fun q hq hne w hw => ?_⟩
              cases q with
              | nil => exact ⟨(Option.some.inj hw) ▸ rfl, _, rfl, rfl⟩
              | cons k q =>
                obtain ⟨rfl, hqs⟩ := List.cons_prefix_cons.1 hq
                rw [Json.valueAt_object, hv] at hw
                obtain ⟨hwobj, u, hu, huobj⟩ := h.2 q hqs (fun heq => hne (heq ▸ rfl)) w hw
                exact ⟨hwobj, u, by rw [Json.valueAt_object, he]; exact hu, huobj⟩

/-- A `null` that cannot delete survives, by induction on the path. -/
lemma survives_merge {path : List String} : ∀ {base overlay : Json}, overlay.Keyed →
    overlay.valueAt path = some .null → ∀ q, q <+: path → q ≠ path →
      (¬ ∃ u, base.valueAt q = some u ∧ u.isObject = true) →
        (merge base overlay).valueAt path = some .null := by
  induction path with
  | nil =>
    intro base overlay _ _ q hq hne
    exact absurd (List.prefix_nil.1 hq) hne
  | cons key path ih =>
    intro base overlay ho hnull q hq hne hbase
    cases hb : base.isObject with
    | false => rw [merge_of_base hb, hnull]
    | true =>
      obtain ⟨o, v, rfl, hv, hbelow⟩ := Json.valueAt_cons hnull
      obtain ⟨b, rfl⟩ := Json.eq_object hb
      cases q with
      | nil => exact absurd ⟨_, rfl, hb⟩ hbase
      | cons k q =>
        obtain ⟨rfl, hqs⟩ := List.cons_prefix_cons.1 hq
        have hvn : v.isNull = false := by
          cases hvn : v.isNull with
          | false => rfl
          | true =>
            rw [Json.eq_null hvn] at hbelow
            cases path with
            | nil => exact absurd (by rw [List.prefix_nil.1 hqs]) hne
            | cons k' path => cases hbelow
        rw [valueAt_merge ho hv]
        cases he : b.lookup k with
        | none => rwa [combine_none hvn]
        | some e =>
          rw [combine_some hvn]
          refine ih (ho.lookup hv) hbelow q hqs (fun heq => hne (heq ▸ rfl)) ?_
          rintro ⟨u, hu, hobj⟩
          exact hbase ⟨u, by rw [Json.valueAt_object, he]; exact hu, hobj⟩

end Rule

/-! ## Merging twice -/

lemma nodup_mergeField {out : List (String × Json)} (hnd : (out.map Prod.fst).Nodup)
    (f : String × Json) : ((mergeField out f).map Prod.fst).Nodup := by
  obtain ⟨k, v⟩ := f
  rw [mergeField]
  split
  · exact hnd.sublist (List.filter_sublist.map _)
  · split <;> exact nodup_insertField hnd

lemma nodup_mergeFields {o : List (String × Json)} :
    ∀ {out}, (out.map Prod.fst).Nodup → ((mergeFields out o).map Prod.fst).Nodup := by
  induction o with
  | nil => exact fun hnd => hnd
  | cons f o ih => exact fun hnd => ih (nodup_mergeField hnd f)

lemma mergeFields_eq_self {out o : List (String × Json)}
    (h : ∀ f ∈ o, mergeField out f = out) : mergeFields out o = out := by
  induction o with
  | nil => rfl
  | cons f o ih =>
    rw [mergeFields, h f List.mem_cons_self]
    exact ih fun g hg => h g (List.mem_cons_of_mem f hg)

/-- A field is merged into what holds its merge already. -/
lemma mergeField_eq_self {out : List (String × Json)} (hnd : (out.map Prod.fst).Nodup)
    {key : String} {v w : Json} (hvn : v.isNull = false) (hw : out.lookup key = some w)
    (hself : merge w v = w) : mergeField out (key, v) = out := by
  rw [mergeField, if_neg (by rw [hvn]; exact Bool.false_ne_true), hw]
  dsimp only
  rw [hself]
  exact insertField_of_lookup hnd hw

lemma NullFree.lookup {o : List (String × Json)} (h : NullFree (.object o)) {key : String}
    {v : Json} (hv : o.lookup key = some v) : NullFree v := by
  intro path hp
  refine h (key :: path) ?_
  rw [Json.valueAt_object, hv]
  exact hp

lemma NullFree.isNull {v : Json} (h : NullFree v) : v.isNull = false := by
  cases hvn : v.isNull with
  | false => rfl
  | true => exact absurd (congrArg some (Json.eq_null hvn)) (h [])

/-- A value without `null`s merges with itself to itself, by induction on the value. -/
lemma merge_self {v : Json} (hk : v.Keyed) : NullFree v → merge v v = v := by
  induction hk with
  | object hnd hkeyed ih =>
    rename_i fields
    intro hfree
    refine congrArg Json.object (mergeFields_eq_self fun f hf => ?_)
    have hv : fields.lookup f.1 = some f.2 := lookup_of_mem hnd hf
    exact mergeField_eq_self hnd (hfree.lookup hv).isNull hv (ih f hf (hfree.lookup hv))
  | _ => exact fun _ => rfl

/-- **Merging an overlay twice**, by induction on the overlay. -/
lemma merge_merge {overlay : Json} (ho : overlay.Keyed) : ∀ {base : Json}, base.Keyed →
    Deletes base overlay → merge (merge base overlay) overlay = merge base overlay := by
  induction ho with
  | object hnd hkeyed ih =>
    rename_i o
    intro base hbk h
    cases hb : base.isObject with
    | false =>
      rw [merge_of_base hb]
      exact merge_self (.object hnd hkeyed) (h.nullFree_of_base hb)
    | true =>
      obtain ⟨b, rfl⟩ := Json.eq_object hb
      refine congrArg Json.object (mergeFields_eq_self fun f hf => ?_)
      obtain ⟨k, v⟩ := f
      have hv : o.lookup k = some v := lookup_of_mem hnd hf
      have hmerged : (mergeFields b o).lookup k = combine (b.lookup k) v := by
        rw [lookup_mergeFields hnd, hv]
        rfl
      have hout : ((mergeFields b o).map Prod.fst).Nodup := nodup_mergeFields hbk.nodup
      cases hvn : v.isNull with
      | true =>
        rw [combine, hvn] at hmerged
        rw [mergeField, hvn]
        exact removeField_of_lookup hmerged
      | false =>
        cases he : b.lookup k with
        | none =>
          rw [he, combine_none hvn] at hmerged
          exact mergeField_eq_self hout hvn hmerged
            (merge_self (hkeyed _ hf) (h.nullFree_of_lookup hv he hvn))
        | some e =>
          rw [he, combine_some hvn] at hmerged
          exact mergeField_eq_self hout hvn hmerged
            (ih _ hf (hbk.lookup he) (h.lookup hv he hvn))
  | _ => exact fun _ _ => rfl

/-- **The merge means what its rule says exactly when each `null` can delete.** An empty overlay
changes nothing. -/
theorem rule_merge_iff (base overlay : Document) :
    (Rule base.value overlay.value (merge base.value overlay.value) ∧
      merge (merge base.value overlay.value) overlay.value = merge base.value overlay.value ∧
      (base.value.isObject = true → merge base.value (.object []) = base.value) ∧
      ∀ path, overlay.value.valueAt path = some .null →
        (merge base.value overlay.value).valueAt path ≠ some .null) ↔
      Deletes base.value overlay.value := by
  constructor
  · rintro ⟨hrule, -, -, -⟩
    refine ⟨fun hnull => ?_, fun path hnull q hq hne => by_contra fun hbase => ?_⟩
    · have hdel := hrule.deleted [] [] List.prefix_rfl (congrArg some hnull)
      cases hdel
    · have hdel := hrule.deleted path path List.prefix_rfl hnull
      rw [survives_merge overlay.keyed hnull q hq hne hbase] at hdel
      cases hdel
  · intro h
    refine ⟨⟨fun path q => deleted_merge overlay.keyed h q, fun path v hv hvn hvo =>
      replaced_merge hvn hvo overlay.keyed hv, fun path => kept_merge overlay.keyed, fun path v =>
      only_merge overlay.keyed⟩, merge_merge overlay.keyed base.keyed h, fun hobj => ?_,
      fun path hnull hkept => ?_⟩
    · obtain ⟨b, hb⟩ := Json.eq_object hobj
      rw [hb]
      rfl
    · rw [deleted_merge overlay.keyed h path List.prefix_rfl hnull] at hkept
      cases hkept

/-- The overlay turns off a block of a mapping that the base does not have. -/
def blockOff : Document where
  value := .object [("detection", .object [("ma", .null)])]
  keyed := .object (by simp) (by
    intro f hf
    obtain rfl := List.mem_singleton.1 hf
    exact .object (by simp) fun g hg => List.mem_singleton.1 hg ▸ .null)

/-- **A deletion in a mapping that only the overlay has is copied**: the `null` is in the merged
document, and merging once more gives another document. -/
theorem merge_keeps_null :
    ¬ ((∀ path q, q <+: path → blockOff.value.valueAt q = some .null →
        (merge (.object []) blockOff.value).valueAt path = none) ∨
      merge (merge (.object []) blockOff.value) blockOff.value =
        merge (.object []) blockOff.value) := by
  rintro (hdel | hidem)
  · have hnone := hdel ["detection", "ma"] _ List.prefix_rfl (by rfl)
    cases hnone
  · have hlook := congrArg (Json.valueAt ["detection", "ma"]) hidem
    revert hlook
    simp [merge, mergeFields, mergeField, blockOff, Json.isNull, insertField, removeField,
      Json.valueAt, Json.getKey, List.lookup_cons]

end V2xw.Experiment
