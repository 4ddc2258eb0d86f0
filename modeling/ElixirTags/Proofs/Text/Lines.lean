import ElixirTags.Text.Lines
import Mathlib.Data.List.DropRight

/-!
# Lines of joined texts

How the lines of a text follow from those of its parts, and what lines look like: they are made of
the bytes of the text, none of them holds a newline, and lines that are written with a newline after
each are read back as they were.  What holds of a text whatever its lines is shown by going from one
newline to the next (`Text.cutInduction`).

The ended part of a text is all of it up to its last newline (`Text.endedPart`).
-/

namespace ElixirTags.Text

/-- A text is free of the byte, or it begins with a text that is, and goes on with the byte and
another text. -/
@[elab_as_elim]
lemma cutInduction (b : UInt8) {P : Bytes → Prop} (uncut : ∀ text, b ∉ text → P text)
    (cut : ∀ first rest, b ∉ first → P rest → P (first ++ b :: rest)) (text : Bytes) : P text := by
  by_cases h : b ∈ text
  · obtain ⟨first, rest, rfl, hfirst⟩ := List.eq_append_cons_of_mem h
    exact cut first rest hfirst (cutInduction b uncut cut rest)
  · exact uncut text h
termination_by text.length
decreasing_by
  subst_vars
  simp only [List.length_append, List.length_cons]
  omega

/-- A text is cut at every occurrence of the byte. -/
lemma not_mem_of_mem_splitOn {b : UInt8} {text piece : Bytes} (h : piece ∈ text.splitOn b) :
    b ∉ piece := by
  induction text using cutInduction b with
  | uncut text hmem =>
      rw [List.splitOn_eq_singleton hmem] at h
      rwa [List.mem_singleton.1 h]
  | cut first rest hfirst ih =>
      rw [List.splitOn_append_cons_self_of_not_mem hfirst] at h
      rcases List.mem_cons.1 h with rfl | hrest
      · exact hfirst
      · exact ih hrest

lemma not_mem_unended (text : Bytes) : Byte.newline ∉ unended text := by
  have hmem : unended text ∈ text.splitOn Byte.newline := by
    rw [splitOn_newline]
    exact List.mem_append_right _ (List.mem_singleton_self _)
  exact not_mem_of_mem_splitOn hmem

lemma lines_of_not_mem {text : Bytes} (h : Byte.newline ∉ text) :
    lines text = if text = [] then [] else [text] := by
  rw [lines, unendedLine, endedLines_of_not_mem h, unended_of_not_mem h, List.nil_append]

/-- The lines of two texts that stand after one another: what is unended in the first goes on in
the second. -/
lemma lines_append (a b : Bytes) : lines (a ++ b) = endedLines a ++ lines (unended a ++ b) := by
  obtain ⟨hended, hunended⟩ := endedLines_append a b
  rw [lines, lines, unendedLine, unendedLine, hended, hunended, List.append_assoc]

lemma lines_append_newline {first : Bytes} (h : Byte.newline ∉ first) (rest : Bytes) :
    lines (first ++ Byte.newline :: rest) = first :: lines rest := by
  rw [lines, lines, unendedLine, unendedLine, endedLines_append_newline, unended_append_newline,
    endedLines_of_not_mem h, unended_of_not_mem h]
  rfl

/-! ## What is in a line -/

/-- What stands between newlines is a line, unless it stands last and is empty. -/
lemma splitOn_newline_eq_lines_append (text : Bytes) :
    text.splitOn Byte.newline = lines text ++ if unended text = [] then [[]] else [] := by
  rw [splitOn_newline, lines, unendedLine]
  split
  · next h => rw [h, List.append_nil]
  · rw [List.append_nil]

lemma not_mem_of_mem_lines {text line : Bytes} (h : line ∈ lines text) : Byte.newline ∉ line := by
  have hmem : line ∈ text.splitOn Byte.newline := by
    rw [splitOn_newline_eq_lines_append]
    exact List.mem_append_left _ h
  exact not_mem_of_mem_splitOn hmem

lemma subset_of_mem_lines {text line : Bytes} (h : line ∈ lines text) : line ⊆ text := by
  induction text using cutInduction Byte.newline with
  | uncut text hmem =>
      rw [lines_of_not_mem hmem] at h
      split at h
      · cases h
      · rw [List.mem_singleton.1 h]
        exact List.Subset.refl text
  | cut first rest hfirst ih =>
      rw [lines_append_newline hfirst] at h
      rcases List.mem_cons.1 h with rfl | hrest
      · exact List.subset_append_left _ _
      · exact fun b hb => List.mem_append_right _ (List.mem_cons_of_mem _ (ih hrest hb))

lemma dropReturn_subset (line : Bytes) : dropReturn line ⊆ line := by
  rw [dropReturn]
  split
  · exact (List.dropLast_sublist line).subset
  · exact List.Subset.refl line

/-- A line of a tag file is a line of the text, up to a carriage return at its end. -/
lemma exists_of_mem_recordLines {text line : Bytes} (h : line ∈ recordLines text) :
    ∃ whole ∈ lines text, line ⊆ whole := by
  rcases List.mem_append.1 h with h | h
  · obtain ⟨whole, hwhole, rfl⟩ := List.mem_map.1 h
    exact ⟨whole, List.mem_append_left _ hwhole, dropReturn_subset whole⟩
  · exact ⟨line, List.mem_append_right _ h, List.Subset.refl line⟩

lemma not_mem_of_mem_recordLines {text line : Bytes} (h : line ∈ recordLines text) :
    Byte.newline ∉ line := by
  obtain ⟨whole, hwhole, hsubset⟩ := exists_of_mem_recordLines h
  exact fun hnewline => not_mem_of_mem_lines hwhole (hsubset hnewline)

lemma subset_of_mem_recordLines {text line : Bytes} (h : line ∈ recordLines text) :
    line ⊆ text := by
  obtain ⟨whole, hwhole, hsubset⟩ := exists_of_mem_recordLines h
  exact List.Subset.trans hsubset (subset_of_mem_lines hwhole)

/-! ## Lines that are written out -/

lemma endedLines_flatMap_newline {ls : List Bytes} (h : ∀ l ∈ ls, Byte.newline ∉ l) :
    endedLines (ls.flatMap (· ++ [Byte.newline])) = ls ∧
      unended (ls.flatMap (· ++ [Byte.newline])) = [] := by
  induction ls with
  | nil => exact ⟨rfl, rfl⟩
  | cons l ls ih =>
      obtain ⟨hended, hunended⟩ := ih fun m hm => h m (List.mem_cons_of_mem _ hm)
      have hl := h l List.mem_cons_self
      rw [List.flatMap_cons, List.append_assoc, List.singleton_append]
      constructor
      · rw [endedLines_append_newline, endedLines_of_not_mem hl, unended_of_not_mem hl, hended]
        rfl
      · rw [unended_append_newline, hunended]

/-- Lines that follow on an ended text are read by themselves. -/
lemma lines_append_flatMap_newline {text : Bytes} {ls : List Bytes} (htext : unended text = [])
    (h : ∀ l ∈ ls, Byte.newline ∉ l) :
    endedLines (text ++ ls.flatMap (· ++ [Byte.newline])) = endedLines text ++ ls ∧
      unended (text ++ ls.flatMap (· ++ [Byte.newline])) = [] := by
  obtain ⟨hended, hunended⟩ := endedLines_flatMap_newline h
  obtain ⟨happend, hunappend⟩ := endedLines_append text (ls.flatMap (· ++ [Byte.newline]))
  rw [htext, List.nil_append] at happend hunappend
  exact ⟨by rw [happend, hended], by rw [hunappend, hunended]⟩

lemma lines_flatMap_newline {ls : List Bytes} (h : ∀ l ∈ ls, Byte.newline ∉ l) :
    lines (ls.flatMap (· ++ [Byte.newline])) = ls := by
  obtain ⟨hended, hunended⟩ := endedLines_flatMap_newline h
  rw [lines, unendedLine, hended, if_pos hunended, List.append_nil]

/-! ## The ended part -/

/-- The text up to and including its last newline. -/
def endedPart (text : Bytes) : Bytes :=
  text.rdropWhile (· != Byte.newline)

lemma endedPart_of_not_mem {text : Bytes} (h : Byte.newline ∉ text) : endedPart text = [] := by
  rw [endedPart, List.rdropWhile_eq_nil_iff]
  intro b hb
  have hne : b ≠ Byte.newline := by
    rintro rfl
    exact h hb
  simpa using hne

lemma endedPart_append_newline (left rest : Bytes) :
    endedPart (left ++ Byte.newline :: rest) = left ++ Byte.newline :: endedPart rest := by
  rw [endedPart, endedPart, List.rdropWhile, List.rdropWhile, List.reverse_append,
    List.reverse_cons, List.append_assoc, List.dropWhile_append]
  split
  · next hrest => simp [List.isEmpty_iff.1 hrest]
  · simp

/-- The lines of the ended part are the ended lines. -/
lemma lines_endedPart (text : Bytes) : lines (endedPart text) = endedLines text := by
  induction text using cutInduction Byte.newline with
  | uncut text h =>
      rw [endedPart_of_not_mem h, endedLines_of_not_mem h]
      rfl
  | cut first rest hfirst ih =>
      rw [endedPart_append_newline, lines_append_newline hfirst, ih, endedLines_append_newline,
        endedLines_of_not_mem hfirst, unended_of_not_mem hfirst, List.nil_append]

end ElixirTags.Text
