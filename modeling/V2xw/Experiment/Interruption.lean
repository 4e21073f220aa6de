import V2xw.Experiment.JournalText

/-!
# Interruptions of a journal

An interruption leaves the bytes written so far, so the file may end anywhere. The journal gets
over it exactly if it ends between two lines. A part of a line cannot be read and the file is
refused; a line without its newline is read, but the next entry is appended to that line, and the
file is refused from then on.

## Main results

* `Experiment.Disk.Whole.open_eq` — a file of whole lines is opened, with its runs completed.
* `Experiment.not_opens_of_torn` — a file that ends in a part of a line is refused.
* `Experiment.journal_survives` — an interruption is survived exactly at the end of a line.
-/

namespace V2xw.Experiment

open Lines Utf8

/-! ## Texts of whole lines -/

variable {c : LineCodec}

lemma LineCodec.Lawful.not_blank (hc : c.Lawful) (l : JournalLine) (y : List Char) :
    blank (c.print l ++ y) = false := by
  obtain ⟨body, hbody⟩ := hc.braces l
  rw [hbody]
  rfl

lemma LineCodec.Lawful.print_ne_nil (hc : c.Lawful) (l : JournalLine) : c.print l ≠ [] := by
  obtain ⟨body, hbody⟩ := hc.braces l
  rw [hbody]
  exact List.cons_ne_nil _ _

/-- A proper beginning of a line is not read. -/
lemma LineCodec.Lawful.parse_of_prefix (hc : c.Lawful) {l : JournalLine} {x y : List Char}
    (hy : y ≠ []) (h : c.print l = x ++ y) : c.parse x = none := by
  cases hx : c.parse x with
  | none => rfl
  | some a =>
    have hblank := hc.delimited x y a _ hx (h ▸ hc.parse_print l)
    obtain ⟨body, hbody⟩ := hc.braces l
    -- what is missing ends in the closing brace
    have hlast : y.getLast? = some '}' := by
      rw [← List.getLast?_append_of_ne_nil x hy, ← h, hbody, ← List.cons_append,
        List.getLast?_append]
      rfl
    exact absurd (List.all_eq_true.1 hblank _ (List.mem_of_getLast? hlast)) (by decide)

lemma LineCodec.Lawful.parse_append (hc : c.Lawful) (l l' : JournalLine) :
    c.parse (c.print l ++ c.print l') = none := by
  cases h : c.parse (c.print l ++ c.print l') with
  | none => rfl
  | some a =>
    have hblank := hc.delimited _ _ _ _ (hc.parse_print l) h
    have hnot := hc.not_blank l' []
    rw [List.append_nil, hblank] at hnot
    cases hnot

lemma text_append (ls ls' : List JournalLine) : text c (ls ++ ls') = text c ls ++ text c ls' := by
  rw [text, List.map_append, join_append]
  rfl

lemma written_append (ls ls' : List JournalLine) :
    written c (ls ++ ls') = written c ls ++ written c ls' := by
  rw [written, text_append, bytes_append]
  rfl

lemma written_singleton (l : JournalLine) : written c [l] = bytes (c.print l) ++ [10] := by
  rw [written, text, List.map_singleton, join, List.flatMap_singleton, bytes_append]
  rfl

lemma written_cons (l : JournalLine) (ls : List JournalLine) :
    written c (l :: ls) = bytes (c.print l) ++ [10] ++ written c ls := by
  rw [← List.singleton_append, written_append, written_singleton]

lemma written_eq_join (ls : List JournalLine) :
    written c ls = join 10 (ls.map fun l => bytes (c.print l)) := by
  induction ls with
  | nil => rfl
  | cons l ls ih => rw [written_cons, ih, List.map_cons, join, join, List.flatMap_cons]

lemma writeLines_eq (file : Option (List UInt8)) (ls : List JournalLine) :
    writeLines c file ls = some (file.getD [] ++ written c ls) := by
  refine congrArg some ?_
  generalize file.getD [] = start
  induction ls generalizing start with
  | nil => exact (List.append_nil start).symm
  | cons l ls ih =>
    rw [List.foldl_cons, ih, written_cons]
    simp only [List.append_assoc]

/-! ## Reading whole lines -/

/-- Lines that were written are read, and reading goes on behind them. -/
lemma readLines_append (hc : c.Lawful) (ls : List JournalLine) (rest : List (List Char)) :
    ∀ index r, ∃ index', readLines c index (ls.map c.print ++ rest) r =
      readLines c index' rest ((ls.map (JournalLine.reread c.reread)).foldl Recorded.add r) := by
  induction ls with
  | nil => exact fun index r => ⟨index, rfl⟩
  | cons l ls ih =>
    intro index r
    obtain ⟨index', hrest⟩ := ih (index + 1) (r.add (l.reread c.reread))
    refine ⟨index', ?_⟩
    have hblank := hc.not_blank l []
    rw [List.append_nil] at hblank
    rw [List.map_cons, List.cons_append, readLines, hblank, if_neg Bool.false_ne_true,
      hc.parse_print]
    exact hrest

lemma readLines_map (hc : c.Lawful) (ls : List JournalLine) (index : ℕ) (r : Recorded) :
    readLines c index (ls.map c.print) r =
      .ok ((ls.map (JournalLine.reread c.reread)).foldl Recorded.add r) := by
  obtain ⟨index', h⟩ := readLines_append hc ls [] index r
  rw [List.append_nil] at h
  rw [h]
  rfl

lemma readLines_refused (hc : c.Lawful) (ls : List JournalLine) {x : List Char}
    (rest : List (List Char)) (hblank : blank x = false) (hx : c.parse x = none) (index : ℕ)
    (r : Recorded) : ∃ e, readLines c index (ls.map c.print ++ x :: rest) r = .error e := by
  obtain ⟨index', h⟩ := readLines_append hc ls (x :: rest) index r
  refine ⟨.badJournal (index' + 1), ?_⟩
  rw [h, readLines, hblank, if_neg Bool.false_ne_true, hx]

lemma split_text_append (hc : c.Lawful) (ls : List JournalLine) (rest : List Char) :
    split '\n' (text c ls ++ rest) = ls.map c.print ++ split '\n' rest := by
  refine split_join_append ?_
  intro x hx
  obtain ⟨l, _, rfl⟩ := List.mem_map.1 hx
  exact hc.newline_not_mem l

/-- The file of a sweep: nothing, or the first line and some runs. -/
def Headed (header : JournalHeader) (ls : List JournalLine) : Prop :=
  ls = [] ∨ ∃ es : List JournalEntry, ls = .header header :: es.map .run

lemma header_foldl_run (f : Seconds → Seconds) (es : List JournalEntry) :
    ∀ r, (((es.map .run).map (JournalLine.reread f)).foldl Recorded.add r).header = r.header := by
  induction es with
  | nil => exact fun r => rfl
  | cons e es ih => exact fun r => ih _

lemma Headed.header_eq {header : JournalHeader} {ls : List JournalLine} (h : Headed header ls)
    (hne : ls ≠ []) (f : Seconds → Seconds) :
    ((ls.map (JournalLine.reread f)).foldl Recorded.add {}).header = some header := by
  obtain rfl | ⟨es, rfl⟩ := h
  · exact absurd rfl hne
  · exact header_foldl_run f es _

lemma Headed.take {header : JournalHeader} {pre suf : List JournalLine}
    (h : Headed header (pre ++ suf)) : Headed header pre := by
  obtain h | ⟨es, h⟩ := h
  · exact .inl (List.append_eq_nil_iff.1 h).1
  · cases pre with
    | nil => exact .inl rfl
    | cons l pre =>
      obtain ⟨rfl, hrest⟩ := List.cons.inj h
      obtain ⟨es', es'', rfl, rfl, rfl⟩ := List.map_eq_append_iff.1 hrest.symm
      exact .inr ⟨es', rfl⟩

lemma Headed.concat {header : JournalHeader} {ls : List JournalLine} (h : Headed header ls)
    (hne : ls ≠ []) (e : JournalEntry) : Headed header (ls ++ [.run e]) := by
  obtain rfl | ⟨es, rfl⟩ := h
  · exact absurd rfl hne
  · exact .inr ⟨es ++ [e], by rw [List.map_append]; rfl⟩

lemma open_of_readLines {header : JournalHeader} {file : Option (List UInt8)}
    {ls : List JournalLine} (hhead : Headed header ls)
    (hread : readFile c file = .ok ((ls.map (JournalLine.reread c.reread)).foldl Recorded.add {})) :
    Journal.open c file header =
      .ok (⟨header, completedOf c ls⟩, if ls = [] then [.header header] else []) := by
  rw [Journal.open, hread]
  by_cases hne : ls = []
  · subst hne
    rfl
  · simp only [hhead.header_eq hne, if_neg hne, ne_eq, not_true_eq_false, if_false]
    rfl

/-- A file of whole lines is read. -/
lemma readFile_written (hc : c.Lawful) {file : Option (List UInt8)} {ls : List JournalLine}
    (h : file.getD [] = written c ls) :
    readFile c file = .ok ((ls.map (JournalLine.reread c.reread)).foldl Recorded.add {}) := by
  cases file with
  | none =>
    cases ls with
    | nil => rfl
    | cons l ls =>
      rw [written_cons] at h
      simp at h
  | some file =>
    have htext : text? file = some (text c ls) := text?_eq_some.2 h
    have hsplit : split '\n' (text c ls) = ls.map c.print := by
      have hsplit := split_text_append hc ls []
      rwa [List.append_nil, show split '\n' ([] : List Char) = [] from rfl, List.append_nil]
        at hsplit
    simp only [readFile, htext, hsplit]
    exact readLines_map hc ls 0 {}

/-! ## Runs -/

/-- The file consists of the lines `ls`, and a journal was only opened on a file with lines. -/
structure Disk.Whole (c : LineCodec) (header : JournalHeader) (d : Disk) (ls : List JournalLine) :
    Prop where
  bytes_eq : d.bytes = written c ls
  headed : Headed header ls
  ne_nil : d.journals ≠ [] → ls ≠ []

lemma Disk.Whole.open_eq (hc : c.Lawful) {header : JournalHeader} {d : Disk}
    {ls : List JournalLine} (h : d.Whole c header ls) :
    Journal.open c d.file header =
      .ok (⟨header, completedOf c ls⟩, if ls = [] then [.header header] else []) :=
  open_of_readLines h.headed (readFile_written hc h.bytes_eq)

/-- The lines of a call are appended to whole lines. -/
lemma Disk.Whole.step (hc : c.Lawful) {header : JournalHeader} {d d' : Disk}
    {ls appended : List JournalLine} {call : Call} (h : d.Whole c header ls)
    (hstep : (directory c header).step d call = .ok (appended, d')) :
    d'.Whole c header (ls ++ appended) := by
  cases call with
  | «open» =>
    simp only [directory, h.open_eq hc, Except.ok.injEq, Prod.mk.injEq] at hstep
    obtain ⟨rfl, rfl⟩ := hstep
    refine ⟨?_, ?_, fun _ => ?_⟩
    · rw [writeLines_eq, written_append, ← h.bytes_eq]
      rfl
    · split_ifs with hls
      · exact .inr ⟨[], by rw [hls]; rfl⟩
      · rw [List.append_nil]
        exact h.headed
    · split_ifs with hls
      · exact List.append_ne_nil_of_right_ne_nil _ (List.cons_ne_nil _ _)
      · rwa [List.append_nil]
  | record i entry =>
    simp only [directory] at hstep
    split at hstep
    · cases hstep
    · rename_i j hj
      have hne : ls ≠ [] := h.ne_nil (List.ne_nil_of_mem (List.mem_of_getElem? hj))
      simp only [Journal.record, Except.ok.injEq, Prod.mk.injEq] at hstep
      obtain ⟨rfl, rfl⟩ := hstep
      refine ⟨?_, h.headed.concat hne entry, fun _ =>
        List.append_ne_nil_of_right_ne_nil _ (List.cons_ne_nil _ _)⟩
      rw [writeLines_eq, written_append, ← h.bytes_eq]
      rfl

lemma Disk.Whole.steps (hc : c.Lawful) {header : JournalHeader} {d d' : Disk}
    {calls : List Call} {appended : List (List JournalLine)}
    (hrun : (directory c header).Steps d calls appended d') :
    ∀ {ls}, d.Whole c header ls → d'.Whole c header (ls ++ appended.flatten) := by
  induction hrun with
  | nil => exact fun h => (List.append_nil _).symm ▸ h
  | cons hstep _ ih =>
    intro ls h
    rw [List.flatten_cons, ← List.append_assoc]
    exact ih (h.step hc hstep)

lemma whole_init (header : JournalHeader) : (directory c header).init.Whole c header [] :=
  ⟨rfl, .inl rfl, fun h => absurd rfl h⟩

lemma Disk.Whole.survives (hc : c.Lawful) {header : JournalHeader} {ls : List JournalLine}
    (hhead : Headed header ls) : Survives c header ls (written c ls) := by
  have hwhole : (Disk.mk (some (written c ls)) []).Whole c header ls :=
    ⟨rfl, hhead, fun h => absurd rfl h⟩
  refine ⟨⟨_, _, hwhole.open_eq hc, rfl⟩, ?_⟩
  intro calls appended d hrun
  exact ⟨_, _, (hwhole.steps hc hrun).open_eq hc, rfl⟩

/-! ## Interruptions -/

/-- The lines that are whole when the file is cut at the end of a line. -/
lemma wholeLines_append (hc : c.Lawful) (pre suf : List JournalLine) :
    wholeLines c (pre ++ suf) (written c pre).length = pre := by
  induction pre with
  | nil =>
    cases suf with
    | nil => rfl
    | cons l suf =>
      have hpos : 0 < (bytes (c.print l)).length := by
        refine List.length_pos_of_ne_nil fun h => hc.print_ne_nil l (bytes_injective ?_)
        rw [h, bytes_nil]
      exact if_neg (Nat.not_le.2 hpos)
  | cons l pre ih =>
    have hlen : (written c (l :: pre)).length =
        (bytes (c.print l)).length + 1 + (written c pre).length := by
      rw [written_cons, List.length_append, List.length_append, List.length_singleton]
    rw [List.cons_append, wholeLines, hlen]
    rw [if_pos (by omega), Nat.add_sub_cancel_left, ih]

/-- A file that ends in a part of a line is refused. -/
lemma not_opens_of_torn (hc : c.Lawful) {header : JournalHeader} {pre ls : List JournalLine}
    {l : JournalLine} {y z : List UInt8} (hy : y ≠ []) (hz : z ≠ [])
    (hl : bytes (c.print l) = y ++ z) : ¬ Opens c header (some (written c pre ++ y)) ls := by
  rintro ⟨j, appended, hopen, _⟩
  have hread : ∃ e, readFile c (some (written c pre ++ y)) = .error e := by
    cases htext : text? (written c pre ++ y) with
    | none => exact ⟨.io, by simp only [readFile, htext]⟩
    | some t =>
      -- the bytes that were read are the whole lines and a beginning of the next
      obtain ⟨x, rfl, hx⟩ := prefix_of_bytes (text?_eq_some.1 htext)
      obtain ⟨x', hx', hz'⟩ := prefix_of_bytes (hl.trans (congrArg (· ++ z) hx)).symm
      have hx'ne : x' ≠ [] := by
        rintro rfl
        exact hz hz'
      have hparse : c.parse x = none := hc.parse_of_prefix hx'ne hx'
      have hxne : x ≠ [] := by
        rintro rfl
        exact hy hx
      have hsep : '\n' ∉ x := fun h =>
        hc.newline_not_mem l (hx' ▸ List.mem_append_left _ h)
      have hblank : blank x = false := by
        obtain ⟨body, hbody⟩ := hc.braces l
        cases x with
        | nil => exact absurd rfl hxne
        | cons a x =>
          rw [hbody, List.cons_append] at hx'
          rw [← (List.cons.inj hx').1]
          rfl
      obtain ⟨e, he⟩ := readLines_refused hc pre [] hblank hparse 0 {}
      refine ⟨e, ?_⟩
      simp only [readFile, htext]
      rw [split_text_append hc, split_of_not_mem hsep hxne]
      exact he
  obtain ⟨e, he⟩ := hread
  rw [Journal.open, he] at hopen
  cases hopen

/-- A file whose last line lacks its newline is refused once an entry was recorded. -/
lemma not_survives_of_unfinished (hc : c.Lawful) {header : JournalHeader}
    {pre ls : List JournalLine} {l : JournalLine} (hhead : Headed header (pre ++ [l])) :
    ¬ Survives c header ls (written c pre ++ bytes (c.print l)) := by
  rintro ⟨_, hlater⟩
  -- the journal is opened without appending a line
  have hread : readFile c (some (written c pre ++ bytes (c.print l))) =
      .ok (((pre ++ [l]).map (JournalLine.reread c.reread)).foldl Recorded.add {}) := by
    have htext : text? (written c pre ++ bytes (c.print l)) = some (text c pre ++ c.print l) :=
      text?_eq_some.2 (bytes_append _ _).symm
    have hlines : pre.map c.print ++ [c.print l] = (pre ++ [l]).map c.print := by
      rw [List.map_append, List.map_singleton]
    simp only [readFile, htext]
    rw [split_text_append hc, split_of_not_mem (hc.newline_not_mem l) (hc.print_ne_nil l), hlines]
    exact readLines_map hc _ 0 {}
  have hopen := open_of_readLines hhead hread
  rw [if_neg (List.append_ne_nil_of_right_ne_nil _ (List.cons_ne_nil _ _))] at hopen
  -- the next entry is appended to the unfinished line
  let entry : JournalEntry := ⟨"", 0, "", "", "", "", none, ⟨0, by decide⟩⟩
  obtain ⟨j, appended, hagain, _⟩ := hlater (.cons (i := .open)
    (by simp only [directory, hopen]; rfl)
    (.cons (i := .record 0 entry) (by simp only [directory]; rfl) (.nil _)))
  let file := written c pre ++ bytes (c.print l) ++ bytes (c.print (.run entry)) ++ [10]
  change Journal.open c (some file) header = .ok (j, appended) at hagain
  let both := c.print l ++ c.print (.run entry)
  have htext : text? file = some (text c pre ++ (both ++ '\n' :: [])) := by
    refine text?_eq_some.2 ?_
    simp only [file, both, bytes_append, List.append_assoc]
    rfl
  have hsep : '\n' ∉ both := fun h =>
    (List.mem_append.1 h).elim (hc.newline_not_mem l) (hc.newline_not_mem _)
  obtain ⟨e, he⟩ := readLines_refused hc pre [] (hc.not_blank l _)
    (hc.parse_append l (.run entry)) 0 {}
  have hrefused : readFile c (some file) = .error e := by
    simp only [readFile, htext]
    rw [split_text_append hc, split_append hsep]
    exact he
  rw [Journal.open, hrefused] at hagain
  cases hagain

/-- **An interruption is survived exactly at the end of a line.** -/
theorem journal_survives (hc : c.Lawful) {header : JournalHeader} {calls : List Call}
    {appended : List (List JournalLine)} {d : Disk}
    (hrun : (directory c header).Steps (directory c header).init calls appended d) {k : ℕ}
    (hk : k ≤ d.bytes.length) :
    Survives c header (wholeLines c appended.flatten k) (d.bytes.take k) ↔
      d.bytes.take k = [] ∨ (d.bytes.take k).getLast? = some 10 := by
  have hwhole := (whole_init header).steps hc hrun
  rw [List.nil_append] at hwhole
  generalize appended.flatten = ls at hwhole ⊢
  have hbytes : d.bytes = join 10 (ls.map fun l => bytes (c.print l)) := by
    rw [hwhole.bytes_eq, written_eq_join]
  obtain ⟨pre, suf, hls, hcut⟩ := @take_join _ 10 (ls.map fun l => bytes (c.print l)) k
  obtain ⟨pre, suf, rfl, rfl, rfl⟩ := List.map_eq_append_iff.1 hls
  rw [← hbytes, ← written_eq_join] at hcut
  rcases hcut with hcut | ⟨line, rest, y, hsuf, hy, hprefix, hcut⟩
  · -- the cut is at the end of a line
    have hlen : k = (written c pre).length := by
      rw [← hcut, List.length_take, Nat.min_eq_left hk]
    have hends := @getLast_join UInt8 10 (pre.map fun l => bytes (c.print l))
    rw [← written_eq_join] at hends
    rw [hcut, hlen, wholeLines_append hc]
    exact iff_of_true (Disk.Whole.survives hc hwhole.headed.take) hends
  · -- the cut is in a line
    obtain ⟨l, suf, rfl, rfl, rfl⟩ := List.map_eq_cons_iff.1 hsuf
    obtain ⟨z, hz⟩ := hprefix
    have hsep : (10 : UInt8) ∉ y := fun h =>
      newline_not_mem (hc.newline_not_mem l) (hz ▸ List.mem_append_left _ h)
    have hends := @getLast_join_append _ _ (pre.map fun l => bytes (c.print l)) _ hy hsep
    rw [← written_eq_join] at hends
    rw [hcut]
    refine iff_of_false ?_ (not_or.2 hends)
    by_cases hznil : z = []
    · subst hznil
      rw [List.append_nil] at hz
      rw [hz]
      refine not_survives_of_unfinished hc (@Headed.take _ _ suf ?_)
      rw [List.append_assoc]
      exact hwhole.headed
    · exact fun h => not_opens_of_torn hc hy hznil hz.symm h.1

/-- A sweep of two runs. -/
def twoRuns : JournalHeader :=
  { schema := "v2xw/experiment-journal/1", experiment := "density", planDigest := "5f2a",
    runsPlanned := 2 }

/-- Its first run, finished. -/
def firstRun : JournalEntry :=
  { runId := "c0000-s00-r000", cellIndex := 0, seedHex := "1b", scenarioHash := "9c",
    worldHash := "07", outDir := "runs/c0000-s00-r000", contentDigest := none, wallS := oneSecond }

lemma exists_steps_firstRun : ∃ d, (directory canonicalCodec twoRuns).Steps
    (directory canonicalCodec twoRuns).init [.open, .record 0 firstRun]
    [[.header twoRuns], [.run firstRun]] d ∧
    d.bytes = written canonicalCodec [.header twoRuns] ++
      (bytes (canonicalCodec.print (.run firstRun)) ++ [10]) := by
  have hrun : ∃ d, (directory canonicalCodec twoRuns).Steps (directory canonicalCodec twoRuns).init
      [.open, .record 0 firstRun] [[.header twoRuns], [.run firstRun]] d :=
    ⟨_, .cons rfl (.cons rfl (.nil _))⟩
  obtain ⟨d, hrun⟩ := hrun
  refine ⟨d, hrun, ?_⟩
  rw [← written_singleton, ← written_append]
  exact ((whole_init twoRuns).steps lawful_canonicalCodec hrun).bytes_eq

theorem journal_survives_firstRun : ∃ d, (directory canonicalCodec twoRuns).Steps
    (directory canonicalCodec twoRuns).init [.open, .record 0 firstRun]
    [[.header twoRuns], [.run firstRun]] d ∧
    (Survives canonicalCodec twoRuns
        (wholeLines canonicalCodec [.header twoRuns, .run firstRun] d.bytes.length)
        (d.bytes.take d.bytes.length) ↔
      d.bytes.take d.bytes.length = [] ∨ (d.bytes.take d.bytes.length).getLast? = some 10) := by
  obtain ⟨d, hrun, _⟩ := exists_steps_firstRun
  exact ⟨d, hrun, journal_survives lawful_canonicalCodec hrun (Nat.le_refl _)⟩

/-- The process stops after the line of the first run and before its newline. -/
theorem unfinished_line_refused : ∃ d, (directory canonicalCodec twoRuns).Steps
    (directory canonicalCodec twoRuns).init [.open, .record 0 firstRun]
    [[.header twoRuns], [.run firstRun]] d ∧
    ¬ Survives canonicalCodec twoRuns
      (wholeLines canonicalCodec [.header twoRuns, .run firstRun] (d.bytes.length - 1))
      (d.bytes.take (d.bytes.length - 1)) := by
  obtain ⟨d, hrun, hbytes⟩ := exists_steps_firstRun
  refine ⟨d, hrun, ?_⟩
  rw [← List.dropLast_eq_take, hbytes, ← List.append_assoc, List.dropLast_concat]
  exact not_survives_of_unfinished lawful_canonicalCodec (.inr ⟨[firstRun], rfl⟩)

end V2xw.Experiment
