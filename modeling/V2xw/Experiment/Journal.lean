import Mathlib.Data.String.Basic
import V2xw.Lib.Lines
import V2xw.Lib.Machine
import V2xw.Lib.OrdMap
import V2xw.Lib.Utf8

/-!
# The resume journal

A sweep writes a line for each run it finishes, after a first line that says which sweep it is. A
sweep that was interrupted opens the file again, reads which runs are done, and goes on appending.
How a line is written is a parameter here; `Experiment.JournalText` has the canonical form.

## Main definitions

* `Experiment.Journal.open`, `Experiment.Journal.record` — the operations on the journal.
* `Experiment.directory` — the file of a directory and the journals opened on it.
* `Experiment.wholeLines` — the lines that an interruption left whole.
* `Experiment.Survives` — what a file is good for after an interruption.
-/

namespace V2xw.Experiment

open Lines Utf8

/-! ## Lines -/

/-- The seconds a run took: a finite `f64`, by its bits. -/
structure Seconds where
  bits : UInt64
  finite : bits.toNat / 2 ^ 52 % 2048 ≠ 2047
deriving DecidableEq

/-- The journal's first line: what sweep these entries belong to. -/
structure JournalHeader where
  schema : String
  experiment : String
  planDigest : String
  runsPlanned : ℕ
deriving DecidableEq

/-- One finished run. -/
structure JournalEntry where
  runId : String
  cellIndex : ℕ
  seedHex : String
  scenarioHash : String
  worldHash : String
  outDir : String
  contentDigest : Option String
  wallS : Seconds
deriving DecidableEq

/-- One line of the journal. -/
inductive JournalLine
  | header (header : JournalHeader)
  | run (entry : JournalEntry)
deriving DecidableEq

/-- The line with another reading of its seconds. -/
def JournalLine.reread (f : Seconds → Seconds) : JournalLine → JournalLine
  | .header h => .header h
  | .run e => .run { e with wallS := f e.wallS }

/-- How a line is written as text and read back. A number read back may be a neighbour of the one
written. -/
structure LineCodec where
  print : JournalLine → List Char
  parse : List Char → Option JournalLine
  reread : Seconds → Seconds

/-- A text of white space. -/
def blank (text : List Char) : Bool := text.all Char.isWhitespace

/-- The codec writes a line as an object in braces, on one line, and reads it back; a text that is
an object is none any more if anything but white space follows it. -/
structure LineCodec.Lawful (c : LineCodec) : Prop where
  braces : ∀ l, ∃ body, c.print l = '{' :: (body ++ ['}'])
  newline_not_mem : ∀ l, '\n' ∉ c.print l
  parse_print : ∀ l, c.parse (c.print l) = some (l.reread c.reread)
  delimited : ∀ x y a b, c.parse x = some a → c.parse (x ++ y) = some b → blank y

variable (c : LineCodec)

/-- The text of some lines. -/
def text (ls : List JournalLine) : List Char := join '\n' (ls.map c.print)

/-- The bytes of some lines. -/
def written (ls : List JournalLine) : List UInt8 := bytes (text c ls)

/-! ## Reading -/

/-- Why a journal is not opened. -/
inductive JournalError
  | io
  | badJournal (line : ℕ)
  | planChanged (recorded current : String)
deriving DecidableEq

/-- What the lines of a journal say. -/
structure Recorded where
  header : Option JournalHeader := none
  completed : OrdMap String JournalEntry := ∅

/-- One more line read. -/
def Recorded.add (r : Recorded) : JournalLine → Recorded
  | .header h => { r with header := some h }
  | .run e => { r with completed := r.completed.insert e.runId e }

/-- Reads the lines from number `index` on. -/
def readLines : ℕ → List (List Char) → Recorded → Except JournalError Recorded
  | _, [], r => .ok r
  | index, line :: lines, r =>
    if blank line then readLines (index + 1) lines r
    else
      match c.parse line with
      | none => .error (.badJournal (index + 1))
      | some parsed => readLines (index + 1) lines (r.add parsed)

/-- Reads the file, if there is one. -/
def readFile : Option (List UInt8) → Except JournalError Recorded
  | none => .ok {}
  | some file =>
    match text? file with
    | none => .error .io
    | some text => readLines c 0 (split '\n' text) {}

/-! ## The journal -/

/-- An open journal: what it was opened under, and the runs that are done. -/
structure Journal where
  header : JournalHeader
  completed : OrdMap String JournalEntry

/-- Opens the journal of a directory, and says which lines that appends to the file. A journal of
another plan is refused. -/
def Journal.open (file : Option (List UInt8)) (header : JournalHeader) :
    Except JournalError (Journal × List JournalLine) :=
  match readFile c file with
  | .error e => .error e
  | .ok existing =>
    match existing.header with
    | some recorded =>
      if recorded.planDigest ≠ header.planDigest then
        .error (.planChanged recorded.planDigest header.planDigest)
      else .ok (⟨recorded, existing.completed⟩, [])
    | none => .ok (⟨header, existing.completed⟩, [.header header])

/-- Notes a finished run, and says which line that appends to the file. -/
def Journal.record (j : Journal) (entry : JournalEntry) : Journal × List JournalLine :=
  ({ j with completed := j.completed.insert entry.runId entry }, [.run entry])

/-- Appends lines to the file, each with its newline. -/
def writeLines (file : Option (List UInt8)) (ls : List JournalLine) : Option (List UInt8) :=
  some (ls.foldl (fun file l => file ++ bytes (c.print l) ++ [10]) (file.getD []))

/-! ## Runs -/

/-- The file of a directory, and the journals opened on it. -/
structure Disk where
  file : Option (List UInt8) := none
  journals : List Journal := []

/-- What a caller does with the journal of a directory. -/
inductive Call
  | open
  | record (journal : ℕ) (entry : JournalEntry)

/-- The file of a directory under one plan. A call says which lines it appended. -/
def directory (header : JournalHeader) :
    Machine Disk Call (List JournalLine) (Option JournalError) where
  init := {}
  step d
    | .open =>
      match Journal.open c d.file header with
      | .error e => .error (some e)
      | .ok (j, ls) => .ok (ls, ⟨writeLines c d.file ls, d.journals ++ [j]⟩)
    | .record i entry =>
      match d.journals[i]? with
      | none => .error none
      | some j =>
        let (j', ls) := j.record entry
        .ok (ls, ⟨writeLines c d.file ls, d.journals.set i j'⟩)

/-- The bytes of the file. -/
def Disk.bytes (d : Disk) : List UInt8 := d.file.getD []

/-- The lines of which all bytes are among the first `k`. The newline is not one of them. -/
def wholeLines : List JournalLine → ℕ → List JournalLine
  | [], _ => []
  | l :: ls, k =>
    let size := (bytes (c.print l)).length
    if size ≤ k then l :: wholeLines ls (k - (size + 1)) else []

/-- The runs of some lines, as a file of these lines is read. -/
def completedOf (ls : List JournalLine) : OrdMap String JournalEntry :=
  ((ls.map (JournalLine.reread c.reread)).foldl Recorded.add {}).completed

/-- Opening the file succeeds, and the runs completed are those of the lines `ls`. -/
def Opens (header : JournalHeader) (file : Option (List UInt8)) (ls : List JournalLine) : Prop :=
  ∃ j appended, Journal.open c file header = .ok (j, appended) ∧ j.completed = completedOf c ls

/-- What the bytes left by an interruption are good for: the journal is opened with the runs of
the lines `ls` completed, and whatever is called from then on, every later open succeeds and finds
these runs and the ones recorded since. -/
def Survives (header : JournalHeader) (ls : List JournalLine) (file : List UInt8) : Prop :=
  Opens c header (some file) ls ∧
    ∀ {calls appended d}, (directory c header).Steps ⟨some file, []⟩ calls appended d →
      Opens c header d.file (ls ++ appended.flatten)

end V2xw.Experiment
