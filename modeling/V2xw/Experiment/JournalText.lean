import Mathlib.Data.Fintype.Basic
import Mathlib.Tactic.FinCases
import V2xw.Experiment.Journal

/-!
# The canonical text of a line

A line is written as one object with sorted keys and without spaces. Its keys are fixed, so the
values are read off one after the other: strings end at a quote that is not escaped, numbers at the
comma behind them.

How a number of seconds is written is not part of this file: runs take one second here.

## Main definitions

* `Experiment.JournalLine.canonical` — the text of a line.
* `Experiment.canonicalCodec` — the lines read back.

## Main results

* `Experiment.prefixFree_lineText` — a line can be told from the text it starts.
* `Experiment.lawful_canonicalCodec` — the canonical text is lawful.
-/

namespace V2xw.Experiment

/-! ## Strings and numbers -/

/-- The letter after the backslash, for the characters that have one. -/
def shortEscape : Char → Option Char
  | '"' => some '"'
  | '\\' => some '\\'
  | '\n' => some 'n'
  | '\r' => some 'r'
  | '\t' => some 't'
  | c => if c.toNat = 8 then some 'b' else if c.toNat = 12 then some 'f' else none

/-- A character of a string as it is written. -/
def escapeChar (c : Char) : List Char :=
  match shortEscape c with
  | some letter => ['\\', letter]
  | none =>
    if c.toNat < 32 then
      ['\\', 'u', '0', '0', Nat.digitChar (c.toNat / 16), Nat.digitChar (c.toNat % 16)]
    else [c]

/-- Reads a character of a string. -/
def unescapeChar : List Char → Option (Char × List Char)
  | [] => none
  | '\\' :: 'u' :: '0' :: '0' :: a :: b :: rest =>
    (List.range 32).find? (fun n => Nat.digitChar (n / 16) = a ∧ Nat.digitChar (n % 16) = b)
      |>.map fun n => (Char.ofNat n, rest)
  | '\\' :: letter :: rest =>
    ['"', '\\', '\n', '\r', '\t', Char.ofNat 8, Char.ofNat 12].find?
        (fun c => shortEscape c = some letter)
      |>.map fun c => (c, rest)
  | c :: rest => some (c, rest)

lemma escapeChar_of_le {c : Char} (h : 32 ≤ c.toNat) (hquote : c ≠ '"') (hslash : c ≠ '\\') :
    escapeChar c = [c] := by
  have hshort : shortEscape c = none := by
    unfold shortEscape
    split
    all_goals first
      | exact absurd rfl hquote
      | exact absurd rfl hslash
      | exact absurd h (by decide)
      | rw [if_neg (by omega), if_neg (by omega)]
  rw [escapeChar, hshort]
  exact if_neg (by omega)

lemma escapeChar_cases (c : Char) :
    (∃ n : Fin 32, c = Char.ofNat n) ∨ c = '"' ∨ c = '\\' ∨
      (c ≠ '\\' ∧ c ≠ '"' ∧ c ≠ '\n' ∧ escapeChar c = [c]) := by
  by_cases h : c.toNat < 32
  · exact .inl ⟨⟨c.toNat, h⟩, (Char.ofNat_toNat c).symm⟩
  by_cases hquote : c = '"'
  · exact .inr (.inl hquote)
  by_cases hslash : c = '\\'
  · exact .inr (.inr (.inl hslash))
  refine .inr (.inr (.inr ⟨hslash, hquote, ?_, escapeChar_of_le (Nat.not_lt.1 h) hquote hslash⟩))
  rintro rfl
  exact h (by decide)

lemma unescapeChar_escapeChar (c : Char) (t : List Char) :
    unescapeChar (escapeChar c ++ t) = some (c, t) := by
  rcases escapeChar_cases c with ⟨n, rfl⟩ | rfl | rfl | ⟨hslash, _, _, hc⟩
  · fin_cases n <;> rfl
  · rfl
  · rfl
  · rw [hc, List.singleton_append, unescapeChar]
    · exact fun a b rest h _ => hslash h
    · exact fun letter rest h _ => hslash h

/-- A string as it is written. -/
def quoted (s : String) : List Char := '"' :: (s.toList.flatMap escapeChar ++ ['"'])

/-- A number and the comma behind it. -/
def number (n : ℕ) : List Char := Nat.toDigits 10 n ++ [',']

lemma prefixFree_quoted : PrefixFree quoted := by
  have hchar : PrefixFree escapeChar := .of_reader unescapeChar_escapeChar
  have havoids : PrefixFree.Avoids escapeChar '"' := by
    intro c
    rcases escapeChar_cases c with ⟨n, rfl⟩ | rfl | rfl | ⟨_, hquote, _, hc⟩
    · fin_cases n <;> exact ⟨'\\', _, rfl, by decide⟩
    · exact ⟨'\\', _, rfl, by decide⟩
    · exact ⟨'\\', _, rfl, by decide⟩
    · exact ⟨c, [], hc, hquote⟩
  have hchars := hchar.terminated havoids
  exact (hchars.after ['"']).comp (f := String.toList) (fun _ _ => String.toList_inj.1)

lemma prefixFree_number : PrefixFree number := by
  let reader (text : List Char) : Option (ℕ × List Char) :=
    some (Nat.ofDigitChars 10 (text.takeWhile Char.isDigit) 0, (text.dropWhile Char.isDigit).tail)
  refine .of_reader (r := reader) ?_
  intro n t
  have hdigits : ∀ c ∈ Nat.toDigits 10 n, c.isDigit = true := fun c hc =>
    Nat.isDigit_of_mem_toDigits (by decide) (by decide) hc
  have htake : (number n ++ t).takeWhile Char.isDigit = Nat.toDigits 10 n := by
    rw [number, List.append_assoc, List.takeWhile_append_of_pos hdigits]
    exact List.append_nil _
  have hdrop : (number n ++ t).dropWhile Char.isDigit = ',' :: t := by
    rw [number, List.append_assoc, List.dropWhile_append_of_pos hdigits]
    rfl
  simp only [reader, htake, hdrop, List.tail_cons]
  rw [Nat.ofDigitChars_toDigits (by decide) (by decide)]

lemma newline_not_mem_number (n : ℕ) : '\n' ∉ number n := by
  intro h
  obtain h | h := List.mem_append.1 h
  · exact absurd (Nat.isDigit_of_mem_toDigits (by decide) (by decide) h) (by decide)
  · exact absurd h (by decide)

lemma newline_not_mem_quoted (s : String) : '\n' ∉ quoted s := by
  intro h
  obtain h | h := List.mem_cons.1 h
  · exact absurd h (by decide)
  obtain h | h := List.mem_append.1 h
  · obtain ⟨c, _, hc⟩ := List.mem_flatMap.1 h
    rcases escapeChar_cases c with ⟨n, rfl⟩ | rfl | rfl | ⟨_, _, hne, heq⟩
    · revert hc
      fin_cases n <;> decide
    · exact absurd hc (by decide)
    · exact absurd hc (by decide)
    · rw [heq, List.mem_singleton] at hc
      exact hne hc.symm
  · exact absurd h (by decide)

/-! ## Lines -/

/-- An optional string as it is written. -/
def optional (o : Option String) : List Char := o.elim "null".toList quoted

/-- What a first line has to say. -/
abbrev HeaderFields := String × String × ℕ × String

/-- What the line of a run has to say, its seconds apart. -/
abbrev RunFields := ℕ × Option String × String × String × String × String × String

/-- What is between the braces of a first line. -/
def headerText (x : HeaderFields) : List Char :=
  "\"experiment\":".toList ++ (quoted x.1 ++ (",\"plan_digest\":".toList ++ (quoted x.2.1 ++
    (",\"record\":\"header\",\"runs_planned\":".toList ++ (number x.2.2.1 ++
      ("\"schema\":".toList ++ quoted x.2.2.2))))))

/-- What is between the braces of the line of a run. -/
def runText (x : RunFields) : List Char :=
  "\"cell_index\":".toList ++ (number x.1 ++ ("\"content_digest\":".toList ++
    (optional x.2.1 ++ (",\"out_dir\":".toList ++ (quoted x.2.2.1 ++
      (",\"record\":\"run\",\"run_id\":".toList ++ (quoted x.2.2.2.1 ++
        (",\"scenario_hash\":".toList ++ (quoted x.2.2.2.2.1 ++ (",\"seed_hex\":".toList ++
          (quoted x.2.2.2.2.2.1 ++ (",\"wall_s\":1.0,\"world_hash\":".toList ++
            quoted x.2.2.2.2.2.2))))))))))))

/-- The text of a line. -/
def lineText (x : HeaderFields ⊕ RunFields) : List Char :=
  '\x7b' :: (Sum.elim headerText runText x ++ ['\x7d'])

lemma prefixFree_optional : PrefixFree optional :=
  prefixFree_quoted.option _ fun s => ⟨'"', _, rfl, by decide⟩

lemma prefixFree_headerText : PrefixFree headerText :=
  .after (.pair prefixFree_quoted (.after (.pair prefixFree_quoted (.after (.pair prefixFree_number
    (.after prefixFree_quoted _)) _)) _)) _

lemma prefixFree_runText : PrefixFree runText :=
  .after (.pair prefixFree_number (.after (.pair prefixFree_optional (.after
    (.pair prefixFree_quoted (.after (.pair prefixFree_quoted (.after (.pair prefixFree_quoted
      (.after (.pair prefixFree_quoted (.after prefixFree_quoted _)) _)) _)) _)) _)) _)) _

lemma prefixFree_lineText : PrefixFree lineText := by
  refine ((prefixFree_headerText.sum prefixFree_runText ?_).before ['\x7d']).after ['\x7b']
  intro x y s t h
  -- the first keys differ in their first letter
  obtain ⟨s', hs⟩ : ∃ s', headerText x ++ s = '"' :: 'e' :: s' := ⟨_, rfl⟩
  obtain ⟨t', ht⟩ : ∃ t', runText y ++ t = '"' :: 'c' :: t' := ⟨_, rfl⟩
  rw [hs, ht] at h
  simp at h

/-- What a line has to say. -/
def JournalLine.fields : JournalLine → HeaderFields ⊕ RunFields
  | .header h => .inl (h.experiment, h.planDigest, h.runsPlanned, h.schema)
  | .run e => .inr (e.cellIndex, e.contentDigest, e.outDir, e.runId, e.scenarioHash, e.seedHex,
      e.worldHash)

/-- One second. -/
def oneSecond : Seconds := ⟨0x3ff0000000000000, by decide⟩

/-- The line that says this. -/
def ofFields : HeaderFields ⊕ RunFields → JournalLine
  | .inl (experiment, planDigest, runsPlanned, schema) =>
    .header { schema, experiment, planDigest, runsPlanned }
  | .inr (cellIndex, contentDigest, outDir, runId, scenarioHash, seedHex, worldHash) =>
    .run { runId, cellIndex, seedHex, scenarioHash, worldHash, outDir, contentDigest,
           wallS := oneSecond }

lemma ofFields_fields (l : JournalLine) : ofFields l.fields = l.reread fun _ => oneSecond := by
  cases l <;> rfl

/-- The lines in their canonical text. -/
noncomputable def canonicalCodec : LineCodec where
  print l := lineText l.fields
  parse text := (PrefixFree.read lineText text).map ofFields
  reread _ := oneSecond

lemma newline_not_mem_optional (o : Option String) : '\n' ∉ optional o := by
  cases o with
  | none => decide
  | some s => exact newline_not_mem_quoted s

lemma newline_not_mem_lineText (x : HeaderFields ⊕ RunFields) : '\n' ∉ lineText x := by
  refine List.not_mem_cons_of_ne_of_not_mem (by decide) (List.not_mem_append ?_ (by decide))
  cases x with
  | inl x =>
    refine List.not_mem_append (by decide) (List.not_mem_append (newline_not_mem_quoted _) ?_)
    refine List.not_mem_append (by decide) (List.not_mem_append (newline_not_mem_quoted _) ?_)
    refine List.not_mem_append (by decide) (List.not_mem_append (newline_not_mem_number _) ?_)
    exact List.not_mem_append (by decide) (newline_not_mem_quoted _)
  | inr x =>
    refine List.not_mem_append (by decide) (List.not_mem_append (newline_not_mem_number _) ?_)
    refine List.not_mem_append (by decide) (List.not_mem_append (newline_not_mem_optional _) ?_)
    refine List.not_mem_append (by decide) (List.not_mem_append (newline_not_mem_quoted _) ?_)
    refine List.not_mem_append (by decide) (List.not_mem_append (newline_not_mem_quoted _) ?_)
    refine List.not_mem_append (by decide) (List.not_mem_append (newline_not_mem_quoted _) ?_)
    refine List.not_mem_append (by decide) (List.not_mem_append (newline_not_mem_quoted _) ?_)
    exact List.not_mem_append (by decide) (newline_not_mem_quoted _)

/-- The canonical text is lawful. -/
lemma lawful_canonicalCodec : canonicalCodec.Lawful where
  braces _ := ⟨_, rfl⟩
  newline_not_mem l := newline_not_mem_lineText l.fields
  parse_print l := by
    have hread := (PrefixFree.read_eq_some prefixFree_lineText (a := l.fields)).2 rfl
    simp only [canonicalCodec, hread, Option.map_some, ofFields_fields]
  delimited x y a b hx hxy := by
    obtain ⟨u, hu, _⟩ := Option.map_eq_some_iff.1 hx
    obtain ⟨v, hv, _⟩ := Option.map_eq_some_iff.1 hxy
    rw [PrefixFree.read_eq_some prefixFree_lineText] at hu hv
    have hy := (prefixFree_lineText.eq_of_append (hu ▸ hv.symm)).2
    rw [hy]
    rfl

end V2xw.Experiment
