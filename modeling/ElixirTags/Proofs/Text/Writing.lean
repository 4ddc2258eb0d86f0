import ElixirTags.Proofs.Text.Numbering
import ElixirTags.Proofs.Text.Repair

/-!
# Lines that are written are read back

There are many ways to write the same lines: each may be ended by a newline, with or without a
carriage return before it, and the last may do without, unless it is empty.  `Text.Writes` says
which texts these are.  All of them are read back as the same lines, in order and numbered from one
on, and a byte order mark in front makes no difference (`Text.sourceLines_of_writes`).

A line can only be read back if it can be told from its ending (`Text.IsLine`): there is no newline
in it, and no carriage return at its end, where one would be taken for a part of the ending.

The other way round, every text has as many lines as it has newlines, and one more if something
follows the last newline (`Text.length_lines`).
-/

namespace ElixirTags.Text

/-! ## Ways to write lines -/

/-- What may end a line. -/
inductive Ending where
  | newline
  | returnNewline
deriving DecidableEq, Repr

/-- The ending as it is written. -/
def Ending.bytes : Ending → Bytes
  | newline => [Byte.newline]
  | returnNewline => [Byte.carriageReturn, Byte.newline]

/-- The line can be told from its ending. -/
structure IsLine (line : Bytes) : Prop where
  newline : Byte.newline ∉ line
  carriageReturn : line.getLast? ≠ some Byte.carriageReturn

instance : DecidablePred IsLine := fun line =>
  decidable_of_iff (Byte.newline ∉ line ∧ line.getLast? ≠ some Byte.carriageReturn)
    ⟨fun ⟨hnewline, hreturn⟩ => ⟨hnewline, hreturn⟩, fun h => ⟨h.newline, h.carriageReturn⟩⟩

/-- The text is a way to write the lines.  Every line has an ending of its own, and only the last
may lack one, unless it is empty. -/
inductive Writes : List Bytes → Bytes → Prop
  | nil : Writes [] []
  | unended {line : Bytes} (hline : line ≠ []) : Writes [line] line
  | cons (line : Bytes) (ending : Ending) {lines : List Bytes} {text : Bytes}
      (h : Writes lines text) : Writes (line :: lines) (line ++ ending.bytes ++ text)

/-! ## Reading them back -/

variable {line text : Bytes} {ls : List Bytes}

/-- A line is read back from what is written of it, whichever its ending. -/
lemma map_dropReturn_lines_append (hline : IsLine line) (ending : Ending) (text : Bytes) :
    (lines (line ++ ending.bytes ++ text)).map dropReturn =
      line :: (lines text).map dropReturn := by
  cases ending with
  | newline =>
      have htext : line ++ Ending.newline.bytes ++ text = line ++ Byte.newline :: text := by
        simp [Ending.bytes]
      rw [htext, lines_append_newline hline.newline, List.map_cons,
        dropReturn_of_ne hline.carriageReturn]
  | returnNewline =>
      have htext : line ++ Ending.returnNewline.bytes ++ text =
          (line ++ [Byte.carriageReturn]) ++ Byte.newline :: text := by
        simp [Ending.bytes]
      have hnewline : Byte.newline ∉ line ++ [Byte.carriageReturn] := by
        rw [List.mem_append, List.mem_singleton]
        rintro (hmem | heq)
        · exact hline.newline hmem
        · cases heq
      rw [htext, lines_append_newline hnewline, List.map_cons, dropReturn_concat]

/-- Lines are read back from every text that writes them. -/
lemma map_dropReturn_lines_of_writes (h : Writes ls text) (hls : ∀ line ∈ ls, IsLine line) :
    (lines text).map dropReturn = ls := by
  induction h with
  | nil => rfl
  | @unended line hline =>
      have hl := hls line (List.mem_singleton_self line)
      rw [lines_of_not_mem hl.newline, if_neg hline, List.map_singleton,
        dropReturn_of_ne hl.carriageReturn]
  | cons line ending _ ih =>
      rw [map_dropReturn_lines_append (hls line List.mem_cons_self),
        ih fun other hother => hls other (List.mem_cons_of_mem _ hother)]

/-! ## The number of lines -/

/-- There is something in a text after its last newline exactly if the text ends in another byte. -/
lemma length_lines (text : Bytes) :
    (lines text).length =
      text.count Byte.newline + if text.getLast?.any (· ≠ Byte.newline) then 1 else 0 := by
  induction text using cutInduction Byte.newline with
  | uncut text hmem =>
      rw [lines_of_not_mem hmem, List.count_eq_zero_of_not_mem hmem, Nat.zero_add]
      by_cases hnil : text = []
      · rw [if_pos hnil, hnil]
        rfl
      · have hlast : text.getLast hnil ≠ Byte.newline := by
          intro heq
          exact hmem (heq ▸ List.getLast_mem hnil)
        rw [if_neg hnil, List.getLast?_eq_some_getLast hnil, Option.any_some,
          if_pos (decide_eq_true hlast)]
        rfl
  | cut first rest hfirst ih =>
      have hlast : (first ++ Byte.newline :: rest).getLast?.any (· ≠ Byte.newline) =
          rest.getLast?.any (· ≠ Byte.newline) := by
        rw [List.getLast?_append, List.getLast?_cons]
        cases rest.getLast? with
        | none => rfl
        | some b => rfl
      rw [lines_append_newline hfirst, List.length_cons, ih, hlast, List.count_append,
        List.count_cons_self, List.count_eq_zero_of_not_mem hfirst]
      omega

/-- There is no newline in the mark. -/
lemma count_dropMark (text : Bytes) :
    (dropMark text).count Byte.newline = text.count Byte.newline := by
  by_cases h : byteOrderMark <+: text
  · obtain ⟨rest, rfl⟩ := h
    have hmark : byteOrderMark.count Byte.newline = 0 := by decide
    rw [dropMark_byteOrderMark_append, List.count_append, hmark, Nat.zero_add]
  · rw [dropMark_eq_self h]

lemma sourceLines_eq_mapIdx {text : Bytes} (hls : (lines (dropMark text)).map dropReturn = ls)
    (hlen : ls.length < 2 ^ 32) :
    sourceLines text = ls.mapIdx fun i line => (.ofNat (i + 1), line) := by
  rw [sourceLines, hls]
  exact numberFrom_one hlen

/-- **Lines that are written are read back.**  Whichever endings the lines have, and with or without
a byte order mark, the lines of the text are the lines that were written, and their numbers are
their places counted from one.  Without the mark the text must not begin with one by itself.

The lines of any text are free of newlines.  There are as many of them as there are newlines, and
one more if something follows the last newline. -/
theorem sourceLines_of_writes :
    (∀ ls text, ls.length < 2 ^ 32 → (∀ line ∈ ls, IsLine line) → Writes ls text →
      sourceLines (byteOrderMark ++ text) = ls.mapIdx (fun i line => (.ofNat (i + 1), line)) ∧
        (¬ byteOrderMark <+: text →
          sourceLines text = ls.mapIdx fun i line => (.ofNat (i + 1), line))) ∧
    ∀ text, (∀ row ∈ sourceLines text, Byte.newline ∉ row.2) ∧
      (sourceLines text).length = text.count Byte.newline +
        if (dropMark text).getLast?.any (· ≠ Byte.newline) then 1 else 0 := by
  refine ⟨fun ls text hlen hls h => ⟨?_, fun hmark => ?_⟩, fun text => ⟨?_, ?_⟩⟩
  · refine sourceLines_eq_mapIdx ?_ hlen
    rw [dropMark_byteOrderMark_append, map_dropReturn_lines_of_writes h hls]
  · refine sourceLines_eq_mapIdx ?_ hlen
    rw [dropMark_eq_self hmark, map_dropReturn_lines_of_writes h hls]
  · intro row hrow
    have hline : row.2 ∈ (sourceLines text).map Prod.snd := List.mem_map_of_mem hrow
    rw [sourceLines, map_snd_numberFrom] at hline
    obtain ⟨whole, hwhole, heq⟩ := List.mem_map.1 hline
    rw [← heq]
    exact fun hmem => not_mem_of_mem_lines hwhole (dropReturn_subset whole hmem)
  · rw [sourceLines, length_numberFrom, List.length_map, length_lines, count_dropMark]

namespace Writing

/-- Lines of which one is empty and one has a carriage return inside. -/
def mixed : List Bytes :=
  [Bytes.ofString "defmodule A do", [], Bytes.ofString "def a\rb", Bytes.ofString "end"]

/-- One way to write them. -/
def mixedText : Bytes := Bytes.ofString "defmodule A do\r\n\ndef a\rb\r\nend"

lemma writes_mixed : Writes mixed mixedText :=
  .cons _ .returnNewline <| .cons _ .newline <| .cons _ .returnNewline <|
    .unended (by decide)

end Writing

set_option maxRecDepth 2000 in
/-- Lines with endings of both sorts, the last without one, below a mark and without it. -/
theorem sourceLines_of_writes_mixed :
    Writing.mixed.length < 2 ^ 32 ∧ (∀ line ∈ Writing.mixed, IsLine line) ∧
      Writes Writing.mixed Writing.mixedText ∧ ¬ byteOrderMark <+: Writing.mixedText ∧
      sourceLines (byteOrderMark ++ Writing.mixedText) =
        [(1, Bytes.ofString "defmodule A do"), (2, []), (3, Bytes.ofString "def a\rb"),
          (4, Bytes.ofString "end")] ∧
      sourceLines Writing.mixedText = sourceLines (byteOrderMark ++ Writing.mixedText) := by
  have hlen : Writing.mixed.length < 2 ^ 32 := by decide
  have hls : ∀ line ∈ Writing.mixed, IsLine line := by decide
  have hmark : ¬ byteOrderMark <+: Writing.mixedText := by decide
  obtain ⟨hwith, hwithout⟩ :=
    sourceLines_of_writes.1 Writing.mixed Writing.mixedText hlen hls Writing.writes_mixed
  refine ⟨hlen, hls, Writing.writes_mixed, hmark, ?_, ?_⟩
  · rw [hwith]
    rfl
  · rw [hwith, hwithout hmark]

end ElixirTags.Text
