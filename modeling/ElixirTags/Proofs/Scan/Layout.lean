import ElixirTags.Proofs.Scan.Words
import ElixirTags.Proofs.Text.Repair

/-!
# Layout does not count

How a source is laid out is no concern of a scan: blanks before and after what stands on a line, how
the lines end, and how many blank lines there are below the last.  The `Text.content` of a text is
what is left of it without all this, and a scan of a text is a scan of its content
(`scanSource_eq_scanLines_content`).

The reason is in the words of a line.  They are the same for a line and for what stands between the
blanks at its ends (`Text.sameWords_trim`), even if the blanks follow a word directly, because a
blank belongs to no identifier.  The main result is `scanSource_eq_of_content_eq`.
-/

namespace ElixirTags

namespace Text

/-! ## Blanks at the ends of a line -/

/-- The text is made of blanks. -/
def Blank (text : Bytes) : Prop := ∀ b ∈ text, Byte.isBlank b = true

instance (text : Bytes) : Decidable (Blank text) := List.decidableBAll _ text

variable {cls : IdentClass} {line blanks : Bytes}

lemma Blank.dropWhile_eq (h : Blank blanks) : blanks.dropWhile Byte.isBlank = [] :=
  List.dropWhile_eq_nil_iff.2 h

lemma Blank.not_contains (h : Blank blanks) {b : UInt8} (hb : b ∈ blanks) :
    ¬ cls.contains b = true := by
  intro hcontains
  have hblank := h b hb
  rw [IdentClass.not_isBlank_of_contains hcontains] at hblank
  cases hblank

/-- Blanks stop a word. -/
lemma Blank.takeWhile_contains (h : Blank blanks) : blanks.takeWhile cls.contains = [] :=
  List.takeWhile_eq_nil_iff.2 fun _ => h.not_contains (List.get_mem _ _)

lemma Blank.dropWhile_contains (h : Blank blanks) : blanks.dropWhile cls.contains = blanks :=
  List.dropWhile_eq_self_iff.2 fun _ => h.not_contains (List.getElem_mem _)

lemma takeWhile_append_blanks (h : Blank blanks) :
    (line ++ blanks).takeWhile cls.contains = line.takeWhile cls.contains := by
  rw [List.takeWhile_append]
  split
  · next hall =>
    rw [h.takeWhile_contains, List.append_nil]
    exact ((List.takeWhile_prefix _).eq_of_length hall).symm
  · rfl

lemma dropWhile_append_blanks (h : Blank blanks) :
    (line ++ blanks).dropWhile cls.contains = line.dropWhile cls.contains ++ blanks := by
  rw [List.dropWhile_append]
  split
  · next hall =>
    rw [List.isEmpty_iff.1 hall, h.dropWhile_contains, List.nil_append]
  · rfl

/-- Of a line with blanks after it, either the blanks stay or nothing does. -/
lemma dropWhile_isBlank_append_blanks (line : Bytes) (h : Blank blanks) :
    ∃ rest, Blank rest ∧ (line ++ blanks).dropWhile Byte.isBlank =
      line.dropWhile Byte.isBlank ++ rest := by
  rw [List.dropWhile_append]
  split
  · next hall => exact ⟨[], by simp [Blank], by rw [h.dropWhile_eq, List.isEmpty_iff.1 hall]; rfl⟩
  · exact ⟨blanks, h, rfl⟩

lemma firstWord_append_blanks (h : Blank blanks) :
    firstWord cls (line ++ blanks) = firstWord cls line := by
  obtain ⟨rest, hrest, hdrop⟩ := dropWhile_isBlank_append_blanks line h
  rw [firstWord, hdrop, takeWhile_append_blanks hrest, firstWord]

/-- Blanks after a line change none of its words. -/
lemma sameWords_append_blanks (h : Blank blanks) : SameWords cls (line ++ blanks) line where
  first := firstWord_append_blanks h
  second := by
    obtain ⟨rest, hrest, hdrop⟩ := dropWhile_isBlank_append_blanks line h
    rw [secondWord, afterFirstWord, hdrop, dropWhile_append_blanks hrest,
      firstWord_append_blanks hrest, secondWord, afterFirstWord]

/-- Blanks before a line change none of its words. -/
lemma sameWords_dropWhile (cls : IdentClass) (line : Bytes) :
    SameWords cls (line.dropWhile Byte.isBlank) line where
  first := by rw [firstWord, List.dropWhile_idempotent, firstWord]
  second := by
    rw [secondWord, afterFirstWord, List.dropWhile_idempotent, secondWord, afterFirstWord]

lemma sameWords_dropReturn (cls : IdentClass) (line : Bytes) :
    SameWords cls (dropReturn line) line := by
  by_cases h : line.getLast? = some Byte.carriageReturn
  · obtain ⟨before, rfl⟩ := List.getLast?_eq_some_iff.1 h
    rw [dropReturn_concat]
    exact (sameWords_append_blanks (by decide)).symm
  · rw [dropReturn_of_ne h]
    exact ⟨rfl, rfl⟩

/-! ## What stands on the lines -/

/-- What stands between the blanks at the ends of a line. -/
def trim (line : Bytes) : Bytes := (line.dropWhile Byte.isBlank).rdropWhile Byte.isBlank

/-- What stands on the lines of a text, up to the last line that is not blank. -/
def content (text : Bytes) : List Bytes :=
  ((text.splitOn Byte.newline).map trim).rdropWhile List.isEmpty

lemma sameWords_trim (cls : IdentClass) (line : Bytes) : SameWords cls (trim line) line := by
  have htrim := List.rdropWhile_append_rtakeWhile (p := Byte.isBlank)
    (l := line.dropWhile Byte.isBlank)
  have hblank : Blank ((line.dropWhile Byte.isBlank).rtakeWhile Byte.isBlank) :=
    fun b hb => List.mem_rtakeWhile_imp hb
  have hright : SameWords cls (trim line ++ (line.dropWhile Byte.isBlank).rtakeWhile Byte.isBlank)
      (trim line) := sameWords_append_blanks hblank
  rw [trim, htrim] at hright
  exact hright.symm.trans (sameWords_dropWhile cls line)

lemma content_eq_rdropWhile_lines (text : Bytes) :
    content text = ((lines text).map trim).rdropWhile List.isEmpty := by
  rw [content, splitOn_newline_eq_lines_append, List.map_append]
  split
  · exact List.rdropWhile_concat_pos _ _ _ rfl
  · rw [List.map_nil, List.append_nil]

end Text

/-! ## Scans and layout -/

variable {config : Config}

/-- Sources are scanned alike if their lines, carriage returns included, have the same words. -/
lemma scanSource_congr {a b : Bytes}
    (h : List.Forall₂ (Text.SameWords config.identClass) (Text.lines (Text.dropMark a))
      (Text.lines (Text.dropMark b))) : scanSource config a = scanSource config b := by
  apply Reading.tags_ofLines_congr
  rw [List.forall₂_map_left_iff, List.forall₂_map_right_iff]
  refine h.imp fun x y hxy => ?_
  exact ((Text.sameWords_dropReturn _ x).trans hxy).trans (Text.sameWords_dropReturn _ y).symm

/-- A source is scanned as its content. -/
lemma scanSource_eq_scanLines_content {text : Bytes} (h : ¬ Text.byteOrderMark <+: text) :
    scanSource config text = scanLines config (Text.numberFrom 1 (Text.content text)) := by
  have hwords : List.Forall₂ (Text.SameWords config.identClass)
      ((Text.lines text).map Text.dropReturn) ((Text.lines text).map Text.trim) := by
    rw [List.forall₂_map_left_iff, List.forall₂_map_right_iff, List.forall₂_same]
    intro line _
    exact (Text.sameWords_dropReturn _ line).trans (Text.sameWords_trim _ line).symm
  have hwordless : ∀ line ∈ ((Text.lines text).map Text.trim).rtakeWhile List.isEmpty,
      Text.firstWord config.identClass line = [] := by
    intro line hline
    rw [List.isEmpty_iff.1 (List.mem_rtakeWhile_imp hline)]
    rfl
  have hlines := List.rdropWhile_append_rtakeWhile (p := List.isEmpty)
    (l := (Text.lines text).map Text.trim)
  rw [← Text.content_eq_rdropWhile_lines] at hlines
  rw [scanSource, Text.sourceLines, Text.dropMark_eq_self h, scanLines,
    Reading.tags_ofLines_congr hwords, ← hlines, Reading.tags_ofLines_append _ hwordless, scanLines]

/-! ## Lines laid out -/

namespace Text

/-- A line and what stands around it. -/
structure Row where
  indent : Bytes
  line : Bytes
  /-- What stands between the line and the newline. -/
  trail : Bytes

namespace Row

/-- The row as it is written, without the newline. -/
def text (r : Row) : Bytes := r.indent ++ r.line ++ r.trail

/-- Only blanks stand around the line, and the newline is at the end. -/
structure LaidOut (r : Row) : Prop where
  indent : Blank r.indent
  trail : Blank r.trail
  newline : Byte.newline ∉ r.text

instance : DecidablePred LaidOut := fun r =>
  decidable_of_iff (Blank r.indent ∧ Blank r.trail ∧ Byte.newline ∉ r.text)
    ⟨fun ⟨hindent, htrail, hnewline⟩ => ⟨hindent, htrail, hnewline⟩,
      fun h => ⟨h.indent, h.trail, h.newline⟩⟩

variable {r : Row} {rows : List Row}

lemma LaidOut.trim_text (h : r.LaidOut) : trim r.text = trim r.line := by
  obtain ⟨rest, hrest, hdrop⟩ := dropWhile_isBlank_append_blanks r.line h.trail
  have hreverse : ∀ b ∈ rest.reverse, Byte.isBlank b = true := by
    intro b hb
    exact hrest b (List.mem_reverse.1 hb)
  rw [trim, text, List.append_assoc, List.dropWhile_append_of_pos h.indent, hdrop, trim,
    List.rdropWhile, List.reverse_append, List.dropWhile_append_of_pos hreverse, List.rdropWhile]

lemma LaidOut.newline_not_mem_line (h : r.LaidOut) : Byte.newline ∉ r.line := by
  intro hmem
  exact h.newline (List.mem_append_left _ (List.mem_append_right _ hmem))

end Row

/-- Lines with a newline after each. -/
def ofLines (lines : List Bytes) : Bytes := lines.flatMap (· ++ [Byte.newline])

/-- The newline at the end of a text does not count. -/
lemma content_append_newline (text : Bytes) : content (text ++ [Byte.newline]) = content text := by
  rw [content, List.splitOn_append_cons_self, List.splitOn_nil, List.map_append, content]
  exact List.rdropWhile_concat_pos _ _ _ rfl

lemma content_ofLines {lines : List Bytes} (h : ∀ line ∈ lines, Byte.newline ∉ line) :
    content (ofLines lines) = (lines.map trim).rdropWhile List.isEmpty := by
  rw [content_eq_rdropWhile_lines, ofLines, lines_flatMap_newline h]

/-- Rows have the content of their lines. -/
lemma content_ofLines_text {rows : List Row} (h : ∀ r ∈ rows, r.LaidOut) :
    content (ofLines (rows.map Row.text)) = content (ofLines (rows.map Row.line)) := by
  rw [content_ofLines, content_ofLines, List.map_map, List.map_map]
  · congr 1
    exact List.map_congr_left fun r hr => (h r hr).trim_text
  · intro line hline
    obtain ⟨r, hr, rfl⟩ := List.mem_map.1 hline
    exact (h r hr).newline_not_mem_line
  · intro line hline
    obtain ⟨r, hr, rfl⟩ := List.mem_map.1 hline
    exact (h r hr).newline

end Text

/-- **Layout does not count.**  Sources that do not begin with a byte order mark have the same tags
if they have the same content: split at newlines, they have the same lines up to blanks at the ends
of each and up to blank lines below the last.  In particular a source made of rows has the tags of
the source made of their bare lines, whatever blanks stand around the lines, carriage returns among
them, and whether or not a newline ends the last of them. -/
theorem scanSource_eq_of_content_eq (config : Config) :
    (∀ a b, ¬ Text.byteOrderMark <+: a → ¬ Text.byteOrderMark <+: b →
      Text.content a = Text.content b → scanSource config a = scanSource config b) ∧
    ∀ rows : List Text.Row, (∀ r ∈ rows, r.LaidOut) →
      ∀ text, text = Text.ofLines (rows.map Text.Row.text) ∨
          text ++ [Byte.newline] = Text.ofLines (rows.map Text.Row.text) →
        ¬ Text.byteOrderMark <+: text →
        ¬ Text.byteOrderMark <+: Text.ofLines (rows.map Text.Row.line) →
        scanSource config text = scanSource config (Text.ofLines (rows.map Text.Row.line)) := by
  have hcontent : ∀ a b, ¬ Text.byteOrderMark <+: a → ¬ Text.byteOrderMark <+: b →
      Text.content a = Text.content b → scanSource config a = scanSource config b := by
    intro a b ha hb h
    rw [scanSource_eq_scanLines_content ha, scanSource_eq_scanLines_content hb, h]
  refine ⟨hcontent, fun rows hrows text htext hmark hmark' => hcontent _ _ hmark hmark' ?_⟩
  rw [← Text.content_ofLines_text hrows]
  rcases htext with rfl | htext
  · rfl
  · rw [← htext, Text.content_append_newline]

namespace Layout

/-- Lines that end in different ways, blanks of all sorts, and no newline at the end. -/
def untidy : Bytes :=
  Bytes.ofString "defmodule Shop do\r\n\t def\x0b total(items) \x0c\r\r\n end\n  \r\n\t"

/-- The same lines without all this. -/
def tidy : Bytes := Bytes.ofString "defmodule Shop do\ndef\x0b total(items)\nend"

/-- The rows of the untidy text, with the last of them. -/
def rows : List Text.Row :=
  [⟨[], Bytes.ofString "defmodule Shop do", Bytes.ofString "\r"⟩,
    ⟨Bytes.ofString "\t ", Bytes.ofString "def\x0b total(items)", Bytes.ofString " \x0c\r\r"⟩,
    ⟨Bytes.ofString " ", Bytes.ofString "end", []⟩,
    ⟨Bytes.ofString "  \r", [], []⟩, ⟨Bytes.ofString "\t", [], []⟩]

end Layout

set_option maxRecDepth 4000 in
/-- Both forms of the law at the untidy text. -/
theorem scanSource_eq_of_content_eq_untidy :
    (¬ Text.byteOrderMark <+: Layout.untidy ∧ ¬ Text.byteOrderMark <+: Layout.tidy ∧
      Text.content Layout.untidy = Text.content Layout.tidy) ∧
    (∀ r ∈ Layout.rows, r.LaidOut) ∧
    scanSource .standard Layout.untidy = scanSource .standard Layout.tidy ∧
    scanSource .standard Layout.untidy =
      [{ name := Bytes.ofString "Shop", kind := .moduleDef, line := 1 },
        { name := Bytes.ofString "total", kind := .functionDef, line := 2,
          owner := some (Bytes.ofString "Shop") }] := by
  have hmark : ¬ Text.byteOrderMark <+: Layout.untidy := by decide
  have hmark' : ¬ Text.byteOrderMark <+: Layout.tidy := by decide
  have hcontent : Text.content Layout.untidy = Text.content Layout.tidy := by decide
  have hrows : ∀ r ∈ Layout.rows, r.LaidOut := by decide
  obtain ⟨hlaw, hrowlaw⟩ := scanSource_eq_of_content_eq .standard
  refine ⟨⟨hmark, hmark', hcontent⟩, hrows, hlaw _ _ hmark hmark' hcontent, ?_⟩
  rw [hrowlaw Layout.rows hrows Layout.untidy (by decide) hmark (by decide)]
  decide

end ElixirTags
