import ElixirTags.Text.Bytes

/-!
# Lines of a text

A newline ends a line, and what follows the last newline is a line only if it is not empty.  Two
kinds of text are read by lines, and they differ in the carriage return: a source text drops one
from the end of every line (`sourceLines`), while a tag file drops it only where a newline follows
(`recordLines`).  A source text may also begin with a byte order mark, which belongs to no line.

Lines are numbered from 1; the numbers are 32-bit words and stay at the greatest one.
-/

namespace ElixirTags

/-- The number of a line. -/
abbrev LineNumber := UInt32

/-- The number after `n`, or `n` itself if it is the greatest. -/
def LineNumber.next (n : LineNumber) : LineNumber :=
  if n = 0xFFFFFFFF then n else n + 1

namespace Text

/-- The bytes that mark a text as UTF-8. -/
def byteOrderMark : Bytes := [0xEF, 0xBB, 0xBF]

/-- The text without one leading byte order mark. -/
def dropMark (text : Bytes) : Bytes :=
  (byteOrderMark.isPrefixOf? text).getD text

/-- The line without one trailing carriage return. -/
def dropReturn (line : Bytes) : Bytes :=
  if line.getLast? = some Byte.carriageReturn then line.dropLast else line

/-- The lines that a newline ends. -/
def endedLines (text : Bytes) : List Bytes :=
  (text.splitOn Byte.newline).dropLast

/-- What follows the last newline. -/
def unended (text : Bytes) : Bytes :=
  (text.splitOn Byte.newline).getLastD []

/-- The unended rest of a text as a line, if there is anything. -/
def unendedLine (text : Bytes) : List Bytes :=
  if unended text = [] then [] else [unended text]

/-- The lines of a text, without the newlines. -/
def lines (text : Bytes) : List Bytes :=
  endedLines text ++ unendedLine text

/-- Numbers a list of lines from `n` on. -/
def numberFrom (n : LineNumber) : List Bytes → List (LineNumber × Bytes)
  | [] => []
  | line :: rest => (n, line) :: numberFrom n.next rest

/-- The numbered lines of a source text. -/
def sourceLines (text : Bytes) : List (LineNumber × Bytes) :=
  numberFrom 1 ((lines (dropMark text)).map dropReturn)

/-- The lines of a tag file.  A carriage return belongs to the line ending, so the last line keeps
its own if no newline ends it. -/
def recordLines (text : Bytes) : List Bytes :=
  (endedLines text).map dropReturn ++ unendedLine text

/-! ## Cutting at newlines -/

theorem splitOn_newline (text : Bytes) :
    text.splitOn Byte.newline = endedLines text ++ [unended text] := by
  have h := List.splitOn_ne_nil Byte.newline text
  rw [endedLines, unended, List.getLastD_eq_getLast?, List.getLast?_eq_some_getLast h]
  exact (List.dropLast_concat_getLast h).symm

/-- A newline ends what was unended before it. -/
theorem endedLines_append_newline (left rest : Bytes) :
    endedLines (left ++ Byte.newline :: rest) =
      endedLines left ++ unended left :: endedLines rest := by
  have h := List.splitOn_append_cons_self (a := Byte.newline) left rest
  rw [splitOn_newline left, splitOn_newline rest, ← List.append_assoc] at h
  rw [endedLines, h, List.dropLast_concat]
  simp

@[simp] theorem unended_append_newline (left rest : Bytes) :
    unended (left ++ Byte.newline :: rest) = unended rest := by
  have h := List.splitOn_append_cons_self (a := Byte.newline) left rest
  rw [splitOn_newline rest, ← List.append_assoc] at h
  simp [unended, h]

theorem endedLines_of_not_mem {text : Bytes} (h : Byte.newline ∉ text) : endedLines text = [] := by
  simp [endedLines, List.splitOn_eq_singleton h]

theorem unended_of_not_mem {text : Bytes} (h : Byte.newline ∉ text) : unended text = text := by
  simp [unended, List.splitOn_eq_singleton h]

/-- What is unended at the end of a text goes on in the text after it. -/
theorem endedLines_append (a b : Bytes) :
    endedLines (a ++ b) = endedLines a ++ endedLines (unended a ++ b) ∧
      unended (a ++ b) = unended (unended a ++ b) := by
  by_cases h : Byte.newline ∈ a
  · obtain ⟨left, rest, rfl⟩ := List.append_of_mem h
    obtain ⟨ih₁, ih₂⟩ := endedLines_append rest b
    simp [endedLines_append_newline, ih₁, ih₂]
  · simp [endedLines_of_not_mem h, unended_of_not_mem h]
termination_by a.length

end Text

end ElixirTags
