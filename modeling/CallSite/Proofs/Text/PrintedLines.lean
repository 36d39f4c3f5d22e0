import CallSite.Text.Printed
import CallSite.Proofs.Text.ReadBack

/-! Printed lines that are read back. Every value has a space behind it and every line a newline, the
last ones too, so a text cut at its separators has one empty part more than values or lines were
written, and neither an empty line nor an empty text is lost. -/

namespace CallSite.Text
variable {α : Type}

/-- The parts of a text in which each one has the separator behind it. -/
def partsBefore (sep : Char) (cs : List Char) : List (List Char) := (cs.splitOn sep).dropLast

def readNumeral (cs : List Char) : Option Int := (String.ofList cs).toInt?

/-- The values on a line that is given without its newline. -/
def readLine (cs : List Char) : Option (List Int) := (partsBefore ' ' cs).mapM readNumeral

/-- The values on each line of a text. -/
def readLines (text : String) : Option (List (List Int)) :=
  (partsBefore '\n' text.toList).mapM readLine

theorem partsBefore_append_cons {sep : Char} {part : List Char} (h : sep ∉ part) (rest : List Char) :
    partsBefore sep (part ++ sep :: rest) = part :: partsBefore sep rest := by
  have apart : ∀ c ∈ part, (c == sep) = false := by
    intro c mem
    rw [beq_eq_false_iff_ne]
    rintro rfl
    exact h mem
  rw [partsBefore, partsBefore, List.splitOn_eq_splitOnP,
    List.splitOnP_append_cons_of_forall_mem apart _ (beq_self_eq_true sep), List.splitOn_eq_splitOnP,
    List.dropLast_cons_of_ne_nil (List.splitOnP_ne_nil _ rest)]

/-- Written values are read back from their parts if none of them contains the separator and each of
them is read back alone. -/
theorem mapM_partsBefore {sep : Char} {write : α → List Char} {read : List Char → Option α}
    (free : ∀ x, sep ∉ write x) (back : ∀ x, read (write x) = some x) (xs : List α) :
    (partsBefore sep (xs.flatMap fun x => write x ++ [sep])).mapM read = some xs := by
  induction xs with
  | nil => rfl
  | cons x xs ih =>
    rw [List.flatMap_cons, List.append_assoc, List.singleton_append,
      partsBefore_append_cons (free x), List.mapM_cons, back x, ih]
    rfl

/-- A line without its newline. -/
def lineChars (values : List Int) : List Char := values.flatMap fun v => (toString v).toList ++ [' ']

theorem toList_printedLine (values : List Int) :
    (printedLine values).toList = lineChars values ++ ['\n'] := by
  simp [printedLine, lineChars, String.toList_join, List.flatMap_map]

theorem not_mem_toString {v : Int} {c : Char} (h : isNumeral c = false) :
    c ∉ (toString v).toList := fun mem => by
  rw [isNumeral_of_mem mem] at h
  cases h

theorem newline_not_mem_lineChars (values : List Int) : '\n' ∉ lineChars values := by
  intro mem
  obtain ⟨v, -, inside⟩ := List.mem_flatMap.1 mem
  rcases List.mem_append.1 inside with numeral | space
  · exact not_mem_toString (by decide) numeral
  · simp at space

theorem readNumeral_toString (v : Int) : readNumeral (toString v).toList = some v := by
  rw [readNumeral, String.ofList_toList]
  exact Int.toInt?_repr v

theorem readLine_lineChars (values : List Int) : readLine (lineChars values) = some values :=
  mapM_partsBefore (fun _ => not_mem_toString (by decide)) readNumeral_toString values

theorem readLines_join (lines : List (List Int)) :
    readLines (String.join (lines.map printedLine)) = some lines := by
  have chars : (String.join (lines.map printedLine)).toList =
      lines.flatMap fun values => lineChars values ++ ['\n'] := by
    rw [String.toList_join, List.flatMap_map]
    exact List.flatMap_congr fun values _ => toList_printedLine values
  rw [readLines, chars]
  exact mapM_partsBefore newline_not_mem_lineChars readLine_lineChars lines

/-- Cutting at newlines and spaces and reading the numerals undoes printing, so different sequences of
lines are never printed as the same text. -/
theorem printedLines_read_back (lines others : List (List Int)) :
    readLines (String.join (lines.map printedLine)) = some lines ∧
      (String.join (lines.map printedLine) = String.join (others.map printedLine) ↔
        lines = others) := by
  refine ⟨readLines_join lines, fun same => ?_, fun same => by rw [same]⟩
  have read := readLines_join lines
  rw [same, readLines_join others] at read
  exact (Option.some_inj.1 read).symm

end CallSite.Text
