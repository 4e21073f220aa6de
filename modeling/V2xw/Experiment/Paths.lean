import V2xw.Experiment.Document

/-!
# Reading and writing a path

The engine reads a path of a document and a sweep writes one. Each has its own grammar and its own
walk, the reader a loop and the writer a recursion that changes the document in place. The two
accept the same paths, and the writer is to the reader what an assignment is to a variable.

## Main definitions

* `resolvePath` — the engine's reader.
* `setPathIn` — the writer, with the document as it leaves it.
* `follow`, `write` — the location that a list of steps names, and the assignment to it.

## Main results

* `walkIn_error` — a walk that fails leaves the document as it was.
* `parsePath_eq_ok`, `parsePath_eq_error` — the two grammars accept the same paths.
* `setPath_resolvePath` — the laws of reading and writing.
-/

namespace V2xw.Experiment

/-! ## The reader -/

/-- The indices in brackets at the start of a text, as the reader splits them: it looks for the
closing bracket first. `fuel` is no less than the number of the characters. -/
def readIndices : ℕ → List Char → Option (List ℕ)
  | _, [] => some []
  | 0, _ :: _ => none
  | fuel + 1, c :: rest =>
    if ']' ∉ c :: rest then none
    else if c ≠ '[' then none
    else
      match parseUsize ((c :: rest).takeWhile (· ≠ ']')).tail with
      | none => none
      | some i => (readIndices fuel ((c :: rest).dropWhile (· ≠ ']')).tail).map (i :: ·)

/-- `foo[1][2]` as the reader splits it. -/
def readSplit (segment : List Char) : Option (String × List ℕ) :=
  (readIndices segment.length (segment.dropWhile (· ≠ '['))).map fun is =>
    (String.ofList (segment.takeWhile (· ≠ '[')), is)

/-- One segment of a path. -/
def readSegment (cur : Option Json) (segment : List Char) : Option Json :=
  cur.bind fun cur =>
    match readSplit segment with
    | none => none
    | some (name, is) =>
      is.foldl (fun cur i => cur.bind (Json.getIndex i))
        (if name = "" then some cur else cur.getKey name)

/-- Walks a dotted path into a document. -/
def resolvePath (doc : Json) (path : String) : Option Json :=
  (path.toList.splitOn '.').foldl readSegment (some doc)

/-! ## The writer in place -/

/-- Walks the steps that are left and assigns at the last one. The second component is the value as
the walk leaves it. -/
def walkIn (path : String) (value : Json) : List Step → Json → Except ExperimentError Unit × Json
  | [], cur => (.error (bad path "is empty, so it names no field"), cur)
  | [.key key], cur =>
    match cur with
    | .object fields =>
      if (fields.lookup key).isNone then
        (.error (bad path ("`" ++ key ++ "` is not a field of this scenario at that position")), cur)
      else (.ok (), cur.setKey key value)
    | _ => (.error (bad path ("`" ++ key ++ "` is not a key of an object")), cur)
  | [.index index], cur =>
    match cur with
    | .array items =>
      if items.length ≤ index then
        (.error (bad path ("[" ++ toString index ++ "] is past the end of a " ++
          toString items.length ++ "-element array")), cur)
      else (.ok (), cur.setIndex index value)
    | _ => (.error (bad path ("[" ++ toString index ++ "] is not an index into an array")), cur)
  | .key key :: step :: tail, cur =>
    match cur.getKey key with
    | none =>
      (.error (bad path ("`" ++ key ++ "` is not a field of this scenario at that position")), cur)
    | some next =>
      ((walkIn path value (step :: tail) next).1,
        cur.setKey key (walkIn path value (step :: tail) next).2)
  | .index index :: step :: tail, cur =>
    match cur.getIndex index with
    | none => (.error (bad path ("[" ++ toString index ++ "] is past the end of the array")), cur)
    | some next =>
      ((walkIn path value (step :: tail) next).1,
        cur.setIndex index (walkIn path value (step :: tail) next).2)

/-- Replaces the value at a path, with the document as it is left. -/
def setPathIn (doc : Json) (path : String) (value : Json) : Except ExperimentError Unit × Json :=
  match parsePath path with
  | .error e => (.error e, doc)
  | .ok steps => walkIn path value steps doc

/-! ## One step -/

namespace Json

/-- The value behind a step. -/
def get : Step → Json → Option Json
  | .key key => getKey key
  | .index index => getIndex index

/-- The value with the one behind a step replaced. -/
def put (doc : Json) : Step → Json → Json
  | .key key, value => doc.setKey key value
  | .index index, value => doc.setIndex index value

variable {doc : Json} {s t : Step} {v w : Json}

lemma lookup_setKey {fields : List (String × Json)} {key a : String} :
    (fields.map fun f => if f.1 = key then (key, v) else f).lookup a =
      if a = key then (fields.lookup key).map fun _ => v else fields.lookup a := by
  induction fields with
  | nil => simp
  | cons f fields ih =>
    obtain ⟨k, x⟩ := f
    rw [List.map_cons]
    by_cases hk : k = key
    · subst hk
      by_cases ha : a = k
      · simp [ha]
      · simp only [if_true, List.lookup_cons, beq_false_of_ne ha, if_neg ha]
        rw [ih, if_neg ha]
    · rw [if_neg hk]
      by_cases hak : a = k
      · subst hak
        rw [if_neg hk]
        simp [List.lookup_cons]
      · simp only [List.lookup_cons, beq_false_of_ne hak, beq_false_of_ne (Ne.symm hk)]
        exact ih

/-- What is put behind a step is got from it. -/
lemma get_put_self (h : (doc.get s).isSome) : (doc.put s v).get s = some v := by
  cases s with
  | key key =>
    cases doc with
    | object fields =>
      change ((fields.map fun f => if f.1 = key then (key, v) else f).lookup key) = some v
      obtain ⟨x, hx⟩ := Option.isSome_iff_exists.1 (show (fields.lookup key).isSome from h)
      rw [lookup_setKey, if_pos rfl, hx]
      rfl
    | _ => cases h
  | index index =>
    cases doc with
    | array items =>
      change (items.set index v)[index]? = some v
      rw [List.getElem?_set_self]
      exact (isSome_getElem? items index).mp h
    | _ => cases h

/-- The other steps are not touched. -/
lemma get_put_ne (hst : s ≠ t) : (doc.put s v).get t = doc.get t := by
  cases s with
  | key key =>
    cases doc with
    | object fields =>
      cases t with
      | key a =>
        change ((fields.map fun f => if f.1 = key then (key, v) else f).lookup a) = fields.lookup a
        rw [lookup_setKey, if_neg fun h => hst (by rw [h])]
      | index _ => rfl
    | _ => rfl
  | index index =>
    cases doc with
    | array items =>
      cases t with
      | key _ => rfl
      | index i => exact List.getElem?_set_ne fun h => hst (by rw [h])
    | _ => rfl

/-- A second value takes the place of the first. -/
lemma put_put : (doc.put s v).put s w = doc.put s w := by
  cases s with
  | key key =>
    cases doc with
    | object fields =>
      refine congrArg Json.object ?_
      rw [List.map_map]
      refine List.map_congr_left fun f _ => ?_
      simp only [Function.comp_apply]
      split_ifs with h
      · rfl
      · exact absurd rfl ‹_›
      · rfl
    | _ => rfl
  | index index =>
    cases doc with
    | array items => exact congrArg Json.array (List.set_set ..)
    | _ => rfl

/-- What is there may be put there. -/
lemma put_get (hk : doc.Keyed) (h : doc.get s = some v) : doc.put s v = doc := by
  cases s with
  | key key =>
    cases hk with
    | @object fields hnd _ =>
      refine congrArg Json.object ((List.map_congr_left fun f hf => ?_).trans (List.map_id _))
      split_ifs with hfk
      · have hpair : (key, v) ∈ fields := by
          obtain ⟨l₁, l₂, hl, -⟩ :=
            List.lookup_eq_some_iff.1 (show fields.lookup key = some v from h)
          rw [hl]
          simp
        exact (List.inj_on_of_nodup_map hnd hpair hf hfk.symm)
      · rfl
    | _ => cases h
  | index index =>
    cases doc with
    | array items =>
      refine congrArg Json.array ?_
      obtain ⟨hlt, hv⟩ := List.getElem?_eq_some_iff.1 (show items[index]? = some v from h)
      rw [← hv]
      exact List.set_getElem_self hlt
    | _ => cases h

lemma Keyed.get (hk : doc.Keyed) (h : doc.get s = some v) : v.Keyed := by
  cases s with
  | key key =>
    cases hk with
    | @object fields _ hall =>
      obtain ⟨l₁, l₂, hl, -⟩ := List.lookup_eq_some_iff.1 (show fields.lookup key = some v from h)
      refine hall (key, v) ?_
      rw [hl]
      simp
    | _ => cases h
  | index index =>
    cases hk with
    | array hall => exact hall v (List.mem_of_getElem? h)
    | _ => cases h

end Json

/-! ## Locations -/

/-- The value at the location that steps name. -/
def follow : List Step → Json → Option Json
  | [], doc => some doc
  | s :: steps, doc => (doc.get s).bind (follow steps)

/-- The document with the value at a location replaced. -/
def write : List Step → Json → Json → Json
  | [], _, v => v
  | s :: steps, doc, v =>
    match doc.get s with
    | none => doc
    | some next => doc.put s (write steps next v)

section Locations

variable {steps q : List Step} {s : Step} {doc next v w : Json}

lemma follow_cons (h : doc.get s = some next) : follow (s :: steps) doc = follow steps next := by
  rw [follow, h]
  rfl

lemma write_cons (h : doc.get s = some next) :
    write (s :: steps) doc v = doc.put s (write steps next v) := by
  simp only [write, h]

lemma follow_append (p : List Step) :
    follow (p ++ q) doc = (follow p doc).bind (follow q) := by
  induction p generalizing doc with
  | nil => rfl
  | cons s p ih =>
    rw [List.cons_append, follow, follow, Option.bind_assoc]
    exact Option.bind_congr fun next _ => ih

/-- What is behind the first step of a location. -/
lemma exists_of_follow_cons (h : (follow (s :: steps) doc).isSome) :
    ∃ next, doc.get s = some next ∧ (follow steps next).isSome := by
  obtain ⟨x, hx⟩ := Option.isSome_iff_exists.1 h
  obtain ⟨next, hnext, hfollow⟩ := Option.bind_eq_some_iff.1 hx
  exact ⟨next, hnext, Option.isSome_iff_exists.2 ⟨x, hfollow⟩⟩

/-- What is written at a location is read there. -/
lemma follow_write (h : (follow steps doc).isSome) :
    follow steps (write steps doc v) = some v := by
  induction steps generalizing doc with
  | nil => rfl
  | cons s steps ih =>
    obtain ⟨next, hnext, hsteps⟩ := exists_of_follow_cons h
    rw [write_cons hnext, follow_cons (Json.get_put_self (by rw [hnext]; rfl))]
    exact ih hsteps

/-- A location that is neither on nor under the one written is not touched. -/
lemma follow_write_ne (hon : ¬ q <+: steps) (hunder : ¬ steps <+: q) :
    follow q (write steps doc v) = follow q doc := by
  induction steps generalizing doc q with
  | nil => exact absurd (List.nil_prefix) hunder
  | cons s steps ih =>
    cases q with
    | nil => exact absurd (List.nil_prefix) hon
    | cons t q =>
      cases hnext : doc.get s with
      | none => simp only [write, hnext]
      | some next =>
        rw [write_cons hnext]
        by_cases hst : s = t
        · subst hst
          rw [follow_cons (Json.get_put_self (by rw [hnext]; rfl)), follow_cons hnext]
          exact ih (fun h => hon (List.cons_prefix_cons.2 ⟨rfl, h⟩))
            (fun h => hunder (List.cons_prefix_cons.2 ⟨rfl, h⟩))
        · rw [follow, follow, Json.get_put_ne hst]

/-- A second write takes the place of the first. -/
lemma write_write (h : (follow steps doc).isSome) :
    write steps (write steps doc v) w = write steps doc w := by
  induction steps generalizing doc with
  | nil => rfl
  | cons s steps ih =>
    obtain ⟨next, hnext, hsteps⟩ := exists_of_follow_cons h
    rw [write_cons hnext, write_cons (Json.get_put_self (by rw [hnext]; rfl)), Json.put_put,
      ih hsteps, write_cons hnext]

/-- Writing what is read changes nothing. -/
lemma write_follow (hk : doc.Keyed) (h : follow steps doc = some v) :
    write steps doc v = doc := by
  induction steps generalizing doc with
  | nil => exact (Option.some.inj h).symm
  | cons s steps ih =>
    obtain ⟨next, hnext, hv⟩ := Option.bind_eq_some_iff.1 h
    rw [write_cons hnext, ih (hk.get hnext) hv, Json.put_get hk hnext]

end Locations

/-! ## The walk -/

section Walk

variable (path : String) (v : Json) {s t : Step} {steps : List Step} {doc : Json}

/-- A walk of one step that is there. -/
lemma walkIn_single (h : (doc.get s).isSome) :
    walkIn path v [s] doc = (.ok (), doc.put s v) := by
  cases s with
  | key key =>
    cases doc with
    | object fields =>
      have hsome : (fields.lookup key).isSome := h
      rw [walkIn, if_neg (by rw [Option.isNone_iff_eq_none]; exact Option.isSome_iff_ne_none.1 hsome)]
      rfl
    | _ => cases h
  | index index =>
    cases doc with
    | array items =>
      have hlt : index < items.length := (isSome_getElem? items index).mp h
      rw [walkIn, if_neg (Nat.not_le.2 hlt)]
      rfl
    | _ => cases h

lemma walkIn_single_none (h : doc.get s = none) :
    ∃ e, walkIn path v [s] doc = (.error e, doc) := by
  cases s with
  | key key =>
    cases doc with
    | object fields =>
      have hnone : fields.lookup key = none := h
      rw [walkIn, if_pos (by rw [hnone]; rfl)]
      exact ⟨_, rfl⟩
    | _ => exact ⟨_, rfl⟩
  | index index =>
    cases doc with
    | array items =>
      rw [walkIn, if_pos (List.getElem?_eq_none_iff.1 (show items[index]? = none from h))]
      exact ⟨_, rfl⟩
    | _ => exact ⟨_, rfl⟩

/-- One step of a walk that goes on. -/
lemma walkIn_cons {next : Json} (h : doc.get s = some next) :
    walkIn path v (s :: t :: steps) doc =
      ((walkIn path v (t :: steps) next).1, doc.put s (walkIn path v (t :: steps) next).2) := by
  cases s with
  | key key => simp only [walkIn, show doc.getKey key = some next from h, Json.put]
  | index index => simp only [walkIn, show doc.getIndex index = some next from h, Json.put]

lemma walkIn_cons_none (h : doc.get s = none) :
    ∃ e, walkIn path v (s :: t :: steps) doc = (.error e, doc) := by
  cases s with
  | key key =>
    simp only [walkIn, show doc.getKey key = none from h]
    exact ⟨_, rfl⟩
  | index index =>
    simp only [walkIn, show doc.getIndex index = none from h]
    exact ⟨_, rfl⟩

/-- A walk to a location that is there writes it. -/
lemma walkIn_ok (h : (follow (s :: steps) doc).isSome) :
    walkIn path v (s :: steps) doc = (.ok (), write (s :: steps) doc v) := by
  induction steps generalizing s doc with
  | nil =>
    obtain ⟨next, hnext, -⟩ := exists_of_follow_cons h
    rw [walkIn_single path v (by rw [hnext]; rfl), write_cons hnext]
    rfl
  | cons t steps ih =>
    obtain ⟨next, hnext, hsteps⟩ := exists_of_follow_cons h
    rw [walkIn_cons path v hnext, ih hsteps, write_cons hnext]

/-- A walk that fails leaves the document as it was. -/
lemma walkIn_error (hk : doc.Keyed) (h : follow (s :: steps) doc = none) :
    ∃ e, walkIn path v (s :: steps) doc = (.error e, doc) := by
  induction steps generalizing s doc with
  | nil =>
    refine walkIn_single_none path v ?_
    rwa [follow, show (follow [] : Json → Option Json) = some from rfl, Option.bind_fun_some] at h
  | cons t steps ih =>
    cases hnext : doc.get s with
    | none => exact walkIn_cons_none path v hnext
    | some next =>
      rw [follow_cons hnext] at h
      obtain ⟨e, he⟩ := ih (hk.get hnext) h
      refine ⟨e, ?_⟩
      rw [walkIn_cons path v hnext, he, Json.put_get hk hnext]

/-- The walk that a sweep takes, which hands the new value back. -/
lemma walk_eq_walkIn (steps : List Step) (doc : Json) :
    walk path v steps doc = (walkIn path v steps doc).1.map fun _ =>
        (walkIn path v steps doc).2 := by
  fun_induction walkIn path v steps doc with
  | case1 => rfl
  | case2 key fields hnone => rw [walk, if_pos hnone]; rfl
  | case3 key fields hnone => rw [walk, if_neg hnone]; rfl
  | case4 key cur hcur => cases cur <;> first | rfl | exact absurd rfl (hcur _)
  | case5 index items hlt => rw [walk, if_pos hlt]; rfl
  | case6 index items hlt => rw [walk, if_neg hlt]; rfl
  | case7 index cur hcur => cases cur <;> first | rfl | exact absurd rfl (hcur _)
  | case8 key step tail cur hnone => simp only [walk, hnone]; rfl
  | case9 key step tail cur next hnext ih =>
    simp only [walk, hnext, ih]
    cases (walkIn path v (step :: tail) next).1 <;> rfl
  | case10 index step tail cur hnone => simp only [walk, hnone]; rfl
  | case11 index step tail cur next hnext ih =>
    simp only [walk, hnext, ih]
    cases (walkIn path v (step :: tail) next).1 <;> rfl

lemma setPath_eq_setPathIn (doc : Json) :
    setPath doc path v = (setPathIn doc path v).1.map fun _ => (setPathIn doc path v).2 := by
  cases hparse : parsePath path with
  | error e =>
    simp only [setPath, setPathIn, hparse]
    rfl
  | ok steps =>
    simp only [setPath, setPathIn, hparse]
    exact walk_eq_walkIn path v steps doc

end Walk

/-! ## The two grammars -/

/-- It does not matter which bracket is looked for first. -/
lemma readIndices_eq : ∀ fuel text, readIndices fuel text = indices fuel text
  | 0, [] => rfl
  | _ + 1, [] => rfl
  | 0, _ :: _ => rfl
  | fuel + 1, c :: rest => by
    rw [readIndices, indices]
    by_cases hc : c = '['
    · subst hc
      simp only [List.mem_cons, show ']' ≠ '[' by decide, false_or, ne_eq, not_true_eq_false,
        if_false, List.takeWhile_cons, List.dropWhile_cons, show '[' ≠ ']' by decide,
        not_false_eq_true, decide_true, if_true, List.tail_cons, readIndices_eq fuel]
      all_goals rfl
    · rw [if_pos hc, if_pos hc, ite_self]

lemma readSplit_eq (segment : List Char) : readSplit segment = splitIndices segment := by
  rw [readSplit, splitIndices, readIndices_eq]

/-- One segment of `parsePath`. -/
def parseSegment (path : String) (r : Except ExperimentError (List Step)) (segment : List Char) :
    Except ExperimentError (List Step) :=
  match r with
  | .error e => .error e
  | .ok steps =>
    match splitIndices segment with
    | none => .error (bad path ("segment `" ++ String.ofList segment ++ "` has malformed brackets"))
    | some (name, is) => .ok (steps ++ segmentSteps name is)

lemma foldl_getIndex (is : List ℕ) (cur : Option Json) :
    is.foldl (fun cur i => cur.bind (Json.getIndex i)) cur = cur.bind (follow (is.map .index)) := by
  induction is generalizing cur with
  | nil => exact (Option.bind_fun_some cur).symm
  | cons i is ih =>
    rw [List.foldl_cons, ih, Option.bind_assoc]
    rfl

/-- The reader takes the steps that the writer makes of a segment. -/
lemma readSegment_some {segment : List Char} {name : String} {is : List ℕ}
    (h : splitIndices segment = some (name, is)) (cur : Option Json) :
    readSegment cur segment = cur.bind (follow (segmentSteps name is)) := by
  refine Option.bind_congr fun doc _ => ?_
  simp only [readSplit_eq, h, foldl_getIndex, segmentSteps]
  rw [follow_append]
  refine congrArg (Option.bind · _) ?_
  split_ifs with hname
  · rfl
  · exact (Option.bind_fun_some _).symm

lemma readSegment_none {segment : List Char} (h : splitIndices segment = none)
    (cur : Option Json) : readSegment cur segment = none := by
  cases cur with
  | none => rfl
  | some doc =>
    rw [readSegment, Option.bind_some]
    simp only [readSplit_eq, h]

lemma foldl_readSegment_none (segments : List (List Char)) :
    segments.foldl readSegment none = none := by
  induction segments with
  | nil => rfl
  | cons _ _ ih => exact ih

lemma foldl_parseSegment_error (path : String) (e : ExperimentError)
    (segments : List (List Char)) :
    segments.foldl (parseSegment path) (.error e) = .error e := by
  induction segments with
  | nil => rfl
  | cons _ _ ih => exact ih

/-- Where the writer finds steps, the reader follows them. -/
lemma foldl_readSegment (path : String) (doc : Json) (segments : List (List Char)) :
    ∀ acc steps, segments.foldl (parseSegment path) (.ok acc) = .ok steps →
      segments.foldl readSegment (follow acc doc) = follow steps doc := by
  induction segments with
  | nil =>
    rintro acc steps ⟨⟩
    rfl
  | cons segment segments ih =>
    intro acc steps h
    rw [List.foldl_cons] at h ⊢
    cases hsplit : splitIndices segment with
    | none =>
      rw [parseSegment, hsplit, foldl_parseSegment_error] at h
      cases h
    | some p =>
      obtain ⟨name, is⟩ := p
      rw [parseSegment, hsplit] at h
      rw [readSegment_some hsplit, ← follow_append]
      exact ih _ _ h

/-- Where the writer finds a malformed segment, the reader does too. -/
lemma foldl_readSegment_error (path : String) (e : ExperimentError)
    (segments : List (List Char)) :
    ∀ acc cur, segments.foldl (parseSegment path) (.ok acc) = .error e →
      segments.foldl readSegment cur = none := by
  induction segments with
  | nil => exact fun acc cur h => by cases h
  | cons segment segments ih =>
    intro acc cur h
    rw [List.foldl_cons] at h ⊢
    cases hsplit : splitIndices segment with
    | none => rw [readSegment_none hsplit, foldl_readSegment_none]
    | some p =>
      obtain ⟨name, is⟩ := p
      rw [parseSegment, hsplit] at h
      exact ih _ _ h

lemma parsePath_eq_ok {path : String} {steps : List Step} (h : parsePath path = .ok steps)
    (doc : Json) : resolvePath doc path = follow steps doc :=
  foldl_readSegment path doc _ [] steps h

lemma parsePath_eq_error {path : String} {e : ExperimentError} (h : parsePath path = .error e)
    (doc : Json) : resolvePath doc path = none :=
  foldl_readSegment_error path e _ [] (some doc) h

/-! ## Reading and writing -/

/-- A path that resolves is written. -/
lemma setPathIn_of_resolvePath {doc : Json} {path : String} (hpath : parsePath path ≠ .ok [])
    (h : (resolvePath doc path).isSome) :
    ∃ steps, parsePath path = .ok steps ∧ (follow steps doc).isSome ∧
      ∀ v, setPathIn doc path v = (.ok (), write steps doc v) := by
  cases hparse : parsePath path with
  | error e =>
    rw [parsePath_eq_error hparse] at h
    cases h
  | ok steps =>
    rw [parsePath_eq_ok hparse] at h
    cases steps with
    | nil => exact absurd hparse hpath
    | cons s steps =>
      refine ⟨s :: steps, rfl, h, fun v => ?_⟩
      simp only [setPathIn, hparse]
      exact walkIn_ok path v h

/-- A path that does not resolve is refused. -/
lemma setPathIn_of_resolvePath_none (d : Document) {path : String}
    (hpath : parsePath path ≠ .ok []) (h : resolvePath d.value path = none) (v : Json) :
    ∃ e, setPathIn d.value path v = (.error e, d.value) := by
  cases hparse : parsePath path with
  | error e =>
    refine ⟨e, ?_⟩
    simp only [setPathIn, hparse]
  | ok steps =>
    rw [parsePath_eq_ok hparse] at h
    cases steps with
    | nil => exact absurd hparse hpath
    | cons s steps =>
      simp only [setPathIn, hparse]
      exact walkIn_error path v d.keyed h

/-- The writer accepts the paths that the reader resolves. What it writes the reader reads, the
locations neither on nor under the path stay as they were, the old value restores the document, and
a second value takes the place of the first. A refusal changes nothing. -/
theorem setPath_resolvePath (d : Document) (path : String) (hpath : parsePath path ≠ .ok [])
    (v : Json) :
    ((setPathIn d.value path v).1 = .ok () ↔ (resolvePath d.value path).isSome) ∧
    (∀ old, resolvePath d.value path = some old →
      resolvePath (setPathIn d.value path v).2 path = some v ∧
      (∀ steps, parsePath path = .ok steps → ∀ q, ¬ q <+: steps → ¬ steps <+: q →
        follow q (setPathIn d.value path v).2 = follow q d.value) ∧
      setPathIn (setPathIn d.value path v).2 path old = (.ok (), d.value) ∧
      ∀ w, setPathIn (setPathIn d.value path v).2 path w = setPathIn d.value path w) ∧
    ((setPathIn d.value path v).1 ≠ .ok () → (setPathIn d.value path v).2 = d.value) := by
  cases hold : resolvePath d.value path with
  | none =>
    obtain ⟨e, he⟩ := setPathIn_of_resolvePath_none d hpath hold v
    rw [he]
    exact ⟨⟨nofun, nofun⟩, nofun, fun _ => rfl⟩
  | some old =>
    obtain ⟨steps, hparse, hsteps, hset⟩ :=
      setPathIn_of_resolvePath hpath (by rw [hold]; rfl)
    have hread : resolvePath (write steps d.value v) path = some v := by
      rw [parsePath_eq_ok hparse]
      exact follow_write hsteps
    -- The second write finds the same steps, in the document that the first has left.
    have hagain (w : Json) : setPathIn (write steps d.value v) path w =
        (.ok (), write steps d.value w) := by
      obtain ⟨steps', hparse', -, hset'⟩ := setPathIn_of_resolvePath hpath (by rw [hread]; rfl)
      cases hparse.symm.trans hparse'
      rw [hset', write_write hsteps]
    rw [hset]
    refine ⟨⟨fun _ => rfl, fun _ => rfl⟩, ?_, fun h => absurd rfl h⟩
    rintro old' ⟨⟩
    refine ⟨hread, ?_, ?_, fun w => by rw [hagain, hset]⟩
    · intro steps' hparse' q hon hunder
      cases hparse.symm.trans hparse'
      exact follow_write_ne hon hunder
    · rw [hagain, write_follow d.keyed]
      rw [← parsePath_eq_ok hparse, hold]

/-- A document with an array in a field. -/
def arrayDocument : Document where
  value := .object [("a", .array [.null])]
  keyed := by
    refine .object (by simp) fun f hf => ?_
    rw [List.mem_singleton.1 hf]
    refine .array fun v hv => ?_
    rw [List.mem_singleton.1 hv]
    exact .null

theorem setPath_resolvePath_item :
    resolvePath (setPathIn arrayDocument.value "a[0]" (.bool true)).2 "a[0]" =
      some (.bool true) :=
  ((setPath_resolvePath arrayDocument "a[0]" (by decide +kernel) (.bool true)).2.1 .null
    rfl).1

end V2xw.Experiment
