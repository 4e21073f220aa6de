import V2xw.Experiment.JournalText

/-!
# Scenario documents

A scenario is edited as a JSON document: a sweep replaces the values at some paths in it. The fields
of an object are listed in the order of their keys, and a number is the text it is written as.

## Main definitions

* `Experiment.Json`, `Experiment.Document` — values, and documents whose objects have each key once.
* `Experiment.Json.text` — the canonical text of a document.
* `Experiment.setPath` — replacing the value at a path.

## Main results

* `Experiment.Json.text_injective` — the canonical text determines the document.
-/

namespace V2xw.Experiment

/-! ## Documents -/

/-- The characters of numbers. -/
def numberChar (c : Char) : Bool := c.isDigit || c ∈ ['-', '+', '.', 'e', 'E']

/-- A number, as it is written. -/
structure Number where
  text : List Char
  ne : text ≠ []
  chars : ∀ c ∈ text, numberChar c = true

/-- A JSON value. -/
inductive Json
  | null
  | bool (b : Bool)
  | number (n : Number)
  | string (s : String)
  | array (items : List Json)
  | object (fields : List (String × Json))

namespace Json

/-- A natural number. -/
def ofNat (n : ℕ) : Json :=
  .number
    { text := Nat.toDigits 10 n
      ne := Nat.toDigits_ne_nil
      chars := fun c hc => by
        rw [numberChar, Nat.isDigit_of_mem_toDigits (by decide) (by decide) hc]
        rfl }

/-- The value of a field of an object. -/
def getKey (key : String) : Json → Option Json
  | .object fields => fields.lookup key
  | _ => none

/-- The item of an array. -/
def getIndex (index : ℕ) : Json → Option Json
  | .array items => items[index]?
  | _ => none

/-- The object with the value of a field replaced. -/
def setKey (doc : Json) (key : String) (value : Json) : Json :=
  match doc with
  | .object fields => .object (fields.map fun f => if f.1 = key then (key, value) else f)
  | doc => doc

/-- The array with an item replaced. -/
def setIndex (doc : Json) (index : ℕ) (value : Json) : Json :=
  match doc with
  | .array items => .array (items.set index value)
  | doc => doc

mutual

/-- The canonical text of a value: without spaces, and with the keys in their order. -/
def text : Json → List Char
  | .null => "null".toList
  | .bool true => "true".toList
  | .bool false => "false".toList
  | .number n => n.text
  | .string s => quoted s
  | .array items => '[' :: itemsText true items
  | .object fields => '\x7b' :: fieldsText true fields

/-- The items of an array from one on, with a comma before each but the first of all. -/
def itemsText (first : Bool) : List Json → List Char
  | [] => [']']
  | item :: items => (if first then [] else [',']) ++ (text item ++ itemsText false items)

/-- The fields of an object from one on. -/
def fieldsText (first : Bool) : List (String × Json) → List Char
  | [] => ['\x7d']
  | field :: fields => (if first then [] else [',']) ++ (fieldText field ++ fieldsText false fields)

/-- A field of an object. -/
def fieldText : String × Json → List Char
  | (key, value) => quoted key ++ (':' :: text value)

end

/-- Every object has each of its keys once, as a map has. -/
inductive Keyed : Json → Prop
  | null : Keyed .null
  | bool (b : Bool) : Keyed (.bool b)
  | number (n : Number) : Keyed (.number n)
  | string (s : String) : Keyed (.string s)
  | array {items : List Json} (h : ∀ a ∈ items, Keyed a) : Keyed (.array items)
  | object {fields : List (String × Json)} (hnd : (fields.map Prod.fst).Nodup)
      (h : ∀ f ∈ fields, Keyed f.2) : Keyed (.object fields)

end Json

/-- A JSON document. -/
structure Document where
  value : Json
  keyed : value.Keyed

/-! ## Paths -/

/-- Why a sweep is not expanded, a run not prepared or a sweep stopped. -/
inductive ExperimentError
  | noExperiment
  | emptySweepAxis (path : String)
  | sweepTooLarge (path : String)
  | badSweepPath (path problem : String)
  | noJournal
  | journal (e : JournalError)
  | run (runId message : String)
  | workerPanicked (runId : String)
  | engine (message : String)
  | json (what : String)
deriving DecidableEq

/-- One step of a walk into a document. -/
inductive Step
  | key (key : String)
  | index (index : ℕ)
deriving DecidableEq

def bad (path problem : String) : ExperimentError := .badSweepPath path problem

/-- A text as a `usize`. -/
def parseUsize (text : List Char) : Option ℕ :=
  let digits := if text.head? = some '+' then text.tail else text
  if digits ≠ [] ∧ digits.all Char.isDigit ∧ Nat.ofDigitChars 10 digits 0 < 2 ^ 64 then
    some (Nat.ofDigitChars 10 digits 0)
  else none

/-- The indices in brackets at the start of a text, which has nothing else. `fuel` is no less than
the number of its characters. -/
def indices : ℕ → List Char → Option (List ℕ)
  | _, [] => some []
  | 0, _ :: _ => none
  | fuel + 1, c :: rest =>
    if c ≠ '[' then none
    else if ']' ∉ rest then none
    else
      match parseUsize (rest.takeWhile (· ≠ ']')) with
      | none => none
      | some i => (indices fuel (rest.dropWhile (· ≠ ']')).tail).map (i :: ·)

/-- `foo[1][2]` as the name `foo` and the indices 1 and 2. -/
def splitIndices (segment : List Char) : Option (String × List ℕ) :=
  (indices segment.length (segment.dropWhile (· ≠ '['))).map fun is =>
    (String.ofList (segment.takeWhile (· ≠ '[')), is)

/-- The steps of one segment of a path. -/
def segmentSteps (name : String) (is : List ℕ) : List Step :=
  (if name = "" then [] else [.key name]) ++ is.map .index

/-- The steps of a path. -/
def parsePath (path : String) : Except ExperimentError (List Step) :=
  (path.toList.splitOn '.').foldl
    (fun r segment =>
      match r with
      | .error e => .error e
      | .ok steps =>
        match splitIndices segment with
        | none => .error (bad path ("segment `" ++ String.ofList segment ++ "` has malformed brackets"))
        | some (name, is) => .ok (steps ++ segmentSteps name is))
    (.ok [])

/-- Walks the steps that are left and replaces the value at the last one. -/
def walk (path : String) (value : Json) : List Step → Json → Except ExperimentError Json
  | [], _ => .error (bad path "is empty, so it names no field")
  | [.key key], cur =>
    match cur with
    | .object fields =>
      if (fields.lookup key).isNone then
        .error (bad path ("`" ++ key ++ "` is not a field of this scenario at that position"))
      else .ok (cur.setKey key value)
    | _ => .error (bad path ("`" ++ key ++ "` is not a key of an object"))
  | [.index index], cur =>
    match cur with
    | .array items =>
      if items.length ≤ index then
        .error (bad path ("[" ++ toString index ++ "] is past the end of a " ++
          toString items.length ++ "-element array"))
      else .ok (cur.setIndex index value)
    | _ => .error (bad path ("[" ++ toString index ++ "] is not an index into an array"))
  | .key key :: step :: tail, cur =>
    match cur.getKey key with
    | none => .error (bad path ("`" ++ key ++ "` is not a field of this scenario at that position"))
    | some next => (walk path value (step :: tail) next).map fun next => cur.setKey key next
  | .index index :: step :: tail, cur =>
    match cur.getIndex index with
    | none => .error (bad path ("[" ++ toString index ++ "] is past the end of the array"))
    | some next => (walk path value (step :: tail) next).map fun next => cur.setIndex index next

/-- Replaces the value at a path of a document. -/
def setPath (doc : Json) (path : String) (value : Json) : Except ExperimentError Json :=
  match parsePath path with
  | .error e => .error e
  | .ok steps => walk path value steps doc

/-! ## The canonical text -/

namespace Json

/-- What may stand behind a value: nothing, or a character that ends it. -/
def Ends (s : List Char) : Prop := ∀ c ∈ s.head?, c = ',' ∨ c = ']' ∨ c = '\x7d'

lemma ends_itemsText (items : List Json) (s : List Char) : Ends (itemsText false items ++ s) := by
  cases items with
  | nil =>
    rw [itemsText]
    rintro c ⟨⟩
    exact .inr (.inl rfl)
  | cons item items =>
    rw [itemsText]
    rintro c ⟨⟩
    exact .inl rfl

lemma ends_fieldsText (fields : List (String × Json)) (s : List Char) :
    Ends (fieldsText false fields ++ s) := by
  cases fields with
  | nil =>
    rw [fieldsText]
    rintro c ⟨⟩
    exact .inr (.inr rfl)
  | cons field fields =>
    rw [fieldsText]
    rintro c ⟨⟩
    exact .inl rfl

/-- A number ends where the characters of numbers do. -/
lemma takeWhile_number (n : Number) {s : List Char} (hs : Ends s) :
    (n.text ++ s).takeWhile numberChar = n.text ∧ (n.text ++ s).dropWhile numberChar = s := by
  have htail : s.takeWhile numberChar = [] ∧ s.dropWhile numberChar = s := by
    cases s with
    | nil => exact ⟨rfl, rfl⟩
    | cons c s =>
      have hc : numberChar c = false := by
        obtain rfl | rfl | rfl := hs c rfl <;> decide
      rw [List.takeWhile_cons_of_neg (by rw [hc]; exact nofun),
        List.dropWhile_cons_of_neg (by rw [hc]; exact nofun)]
      exact ⟨rfl, rfl⟩
  rw [List.takeWhile_append_of_pos n.chars, List.dropWhile_append_of_pos n.chars, htail.1, htail.2]
  exact ⟨List.append_nil _, rfl⟩

/-- The kinds of values. -/
inductive Kind
  | null | true | false | number | string | array | object
deriving DecidableEq

def kind : Json → Kind
  | .null => .null
  | .bool Bool.true => .true
  | .bool Bool.false => .false
  | .number _ => .number
  | .string _ => .string
  | .array _ => .array
  | .object _ => .object

/-- The kind of the value that starts with a character. -/
def kindOf (c : Char) : Option Kind :=
  if numberChar c then some .number
  else if c = 'n' then some .null
  else if c = 't' then some .true
  else if c = 'f' then some .false
  else if c = '"' then some .string
  else if c = '[' then some .array
  else if c = '\x7b' then some .object
  else none

/-- The first character of a value tells its kind. -/
lemma kindOf_head (a : Json) : ∃ c w, a.text = c :: w ∧ kindOf c = some a.kind := by
  cases a with
  | null => exact ⟨'n', _, by rw [text]; rfl, by decide⟩
  | bool b =>
    cases b with
    | true => exact ⟨'t', _, by rw [text]; rfl, by decide⟩
    | false => exact ⟨'f', _, by rw [text]; rfl, by decide⟩
  | number n =>
    obtain ⟨c, w, hcw⟩ := List.exists_cons_of_ne_nil n.ne
    refine ⟨c, w, by rw [text, hcw], ?_⟩
    rw [kindOf, if_pos (n.chars c (hcw ▸ List.mem_cons_self))]
    rfl
  | string s => exact ⟨'"', _, by rw [text]; rfl, rfl⟩
  | array items => exact ⟨'[', _, by rw [text], rfl⟩
  | object fields => exact ⟨'\x7b', _, by rw [text], rfl⟩

lemma kind_eq_of_append {a b : Json} {s t : List Char} (h : a.text ++ s = b.text ++ t) :
    a.kind = b.kind := by
  obtain ⟨c, w, ha, hc⟩ := kindOf_head a
  obtain ⟨d, v, hb, hd⟩ := kindOf_head b
  rw [ha, hb, List.cons_append, List.cons_append] at h
  rw [(List.cons.inj h).1, hd] at hc
  exact (Option.some.inj hc).symm

lemma text_append_ne {c : Char} (hc : kindOf c = none) (a : Json) (s t : List Char) :
    a.text ++ s ≠ c :: t := by
  obtain ⟨d, w, ha, hd⟩ := kindOf_head a
  rw [ha, List.cons_append]
  intro h
  rw [(List.cons.inj h).1, hc] at hd
  cases hd

/-- What a value is read off from: its text, with what may stand behind a value. -/
def Delimited (a : Json) : Prop :=
  ∀ b s t, Ends s → Ends t → a.text ++ s = b.text ++ t → a = b ∧ s = t

lemma Delimited.items {items : List Json} (h : ∀ a ∈ items, a.Delimited) :
    ∀ first items' s t, itemsText first items ++ s = itemsText first items' ++ t →
      items = items' ∧ s = t := by
  induction items with
  | nil =>
    intro first items' s t heq
    cases items' with
    | nil =>
      rw [itemsText] at heq
      exact ⟨rfl, List.append_cancel_left heq⟩
    | cons b items' =>
      rw [itemsText, itemsText, List.append_assoc, List.append_assoc] at heq
      cases first with
      | true => exact absurd heq.symm (text_append_ne (by decide) b _ _)
      | false => exact absurd (List.cons.inj heq).1 (by decide)
  | cons a items ih =>
    obtain ⟨ha, hitems⟩ := List.forall_mem_cons.1 h
    intro first items' s t heq
    cases items' with
    | nil =>
      rw [itemsText, itemsText, List.append_assoc, List.append_assoc] at heq
      cases first with
      | true => exact absurd heq (text_append_ne (by decide) a _ _)
      | false => exact absurd (List.cons.inj heq).1 (by decide)
    | cons b items' =>
      simp only [itemsText, List.append_assoc] at heq
      obtain ⟨rfl, hrest⟩ := ha b _ _ (ends_itemsText _ _) (ends_itemsText _ _)
        (List.append_cancel_left heq)
      obtain ⟨rfl, hst⟩ := ih hitems false items' s t hrest
      exact ⟨rfl, hst⟩

lemma Delimited.fields {fields : List (String × Json)} (h : ∀ f ∈ fields, f.2.Delimited) :
    ∀ first fields' s t, fieldsText first fields ++ s = fieldsText first fields' ++ t →
      fields = fields' ∧ s = t := by
  have hquote (key : String) : ∃ w, quoted key = '"' :: w := ⟨_, rfl⟩
  induction fields with
  | nil =>
    intro first fields' s t heq
    cases fields' with
    | nil =>
      rw [fieldsText] at heq
      exact ⟨rfl, List.append_cancel_left heq⟩
    | cons f fields' =>
      obtain ⟨w, hw⟩ := hquote f.1
      rw [fieldsText, fieldsText, fieldText, hw] at heq
      cases first <;> exact absurd (List.cons.inj heq).1 (by decide)
  | cons f fields ih =>
    obtain ⟨hf, hfields⟩ := List.forall_mem_cons.1 h
    intro first fields' s t heq
    cases fields' with
    | nil =>
      obtain ⟨w, hw⟩ := hquote f.1
      rw [fieldsText, fieldsText, fieldText, hw] at heq
      cases first <;> exact absurd (List.cons.inj heq).1 (by decide)
    | cons g fields' =>
      obtain ⟨key, a⟩ := f
      obtain ⟨key', b⟩ := g
      simp only [fieldsText, fieldText, List.append_assoc, List.cons_append] at heq
      obtain ⟨rfl, hvalue⟩ := prefixFree_quoted (List.append_cancel_left heq)
      obtain ⟨rfl, hrest⟩ := hf b _ _ (ends_fieldsText _ _) (ends_fieldsText _ _)
        (List.cons.inj hvalue).2
      obtain ⟨rfl, hst⟩ := ih hfields false fields' s t hrest
      exact ⟨rfl, hst⟩

/-- The text of a value determines it. -/
lemma delimited : (a : Json) → a.Delimited
  | .null => by
    intro b s t hs ht h
    have hkind := kind_eq_of_append h
    cases b with
    | null => exact ⟨rfl, List.append_cancel_left h⟩
    | bool b => cases b <;> cases hkind
    | _ => cases hkind
  | .bool x => by
    intro b s t hs ht h
    have hkind := kind_eq_of_append h
    cases b with
    | bool b =>
      obtain rfl : x = b := by cases x <;> cases b <;> first | rfl | cases hkind
      exact ⟨rfl, List.append_cancel_left h⟩
    | _ => cases x <;> cases hkind
  | .number n => by
    intro b s t hs ht h
    have hkind := kind_eq_of_append h
    cases b with
    | number m =>
      obtain ⟨hn, hsn⟩ := takeWhile_number n hs
      obtain ⟨hm, htm⟩ := takeWhile_number m ht
      rw [text, text] at h
      rw [h] at hn hsn
      refine ⟨congrArg Json.number ?_, hsn.symm.trans htm⟩
      cases n
      cases m
      cases hn.symm.trans hm
      rfl
    | bool b => cases b <;> cases hkind
    | _ => cases hkind
  | .string x => by
    intro b s t hs ht h
    have hkind := kind_eq_of_append h
    cases b with
    | string y =>
      rw [text, text] at h
      obtain ⟨rfl, hst⟩ := prefixFree_quoted h
      exact ⟨rfl, hst⟩
    | bool b => cases b <;> cases hkind
    | _ => cases hkind
  | .array items => by
    intro b s t hs ht h
    have hkind := kind_eq_of_append h
    cases b with
    | array items' =>
      rw [text, text] at h
      obtain ⟨rfl, hst⟩ := Delimited.items (fun a _ => delimited a) true items' s t
        (List.cons.inj h).2
      exact ⟨rfl, hst⟩
    | bool b => cases b <;> cases hkind
    | _ => cases hkind
  | .object fields => by
    intro b s t hs ht h
    have hkind := kind_eq_of_append h
    cases b with
    | object fields' =>
      rw [text, text] at h
      obtain ⟨rfl, hst⟩ := Delimited.fields (fun f _ => delimited f.2) true fields' s t
        (List.cons.inj h).2
      exact ⟨rfl, hst⟩
    | bool b => cases b <;> cases hkind
    | _ => cases hkind
termination_by a => sizeOf a
decreasing_by
  · have := List.sizeOf_lt_of_mem ‹a ∈ items›
    simp only [Json.array.sizeOf_spec]
    omega
  · have hf := List.sizeOf_lt_of_mem ‹f ∈ fields›
    obtain ⟨key, value⟩ := f
    simp only [Json.object.sizeOf_spec, Prod.mk.sizeOf_spec] at hf ⊢
    omega

lemma text_injective : Function.Injective text := by
  intro a b h
  have hends : Ends [] := fun c hc => by cases hc
  exact (delimited a b [] [] hends hends (by rw [h])).1

end Json

end V2xw.Experiment
