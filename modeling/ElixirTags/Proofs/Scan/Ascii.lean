import ElixirTags.Proofs.Scan.Isolation
import ElixirTags.Proofs.Scan.Layout
import ElixirTags.Proofs.Scan.Streaming
import ElixirTags.Proofs.Text.Ascii

/-!
# A scan sees ASCII only

Blanks, directives and names are ASCII, and any other byte just stops a word.  So a scan takes no
notice of what stands outside ASCII, be it UTF-8 or not and however long: two files that are the
same apart from that have the same tags, down to their owners and line numbers
(`Scanner.tags_call_feed_eq_of_sameAscii`).  Only the byte order mark at the start of a file is
looked at.

The scanner repairs each line before it reads it, and what repair makes of two such lines need not
look alike.  But repair itself touches nothing in ASCII, so the words of a line are those of the
repaired line (`Text.sameWords_repair`), and the files are compared by their words.
-/

namespace ElixirTags

lemma Byte.lt_of_isBlank {b : UInt8} (h : isBlank b = true) : b < 0x80 := by
  simp only [isBlank, Bool.or_eq_true, beq_iff_eq, Bool.and_eq_true, decide_eq_true_eq] at h
  rcases h with rfl | ⟨-, hle⟩
  · decide
  · exact UInt8.lt_of_le_of_lt hle (by decide)

namespace Text

variable {s t : Bytes}

/-! ## Words -/

/-- Lines with the same ASCII bytes have the same words. -/
lemma SameAscii.sameWords (h : SameAscii s t) (cls : IdentClass) : SameWords cls s t := by
  have hblank : ∀ b, Byte.isBlank b = true → b < 0x80 := fun b => Byte.lt_of_isBlank
  have hident : ∀ b, cls.contains b = true → b < 0x80 := fun b => IdentClass.lt_of_contains
  have hrest := (h.dropWhile hblank).dropWhile hident
  exact ⟨(h.dropWhile hblank).takeWhile_eq hident, (hrest.dropWhile hblank).takeWhile_eq hident⟩

lemma sameWords_repair (cls : IdentClass) (line : Bytes) :
    SameWords cls (Utf8.repair line) line :=
  (sameAscii_repair line).symm.sameWords cls

/-! ## Files -/

lemma endedPart_prefix (text : Bytes) : endedPart text <+: text :=
  List.rdropWhile_prefix _ _

end Text

/-- Texts whose lines have the same ASCII bytes are scanned alike, once they have been repaired. -/
lemma scanSource_repair_congr {config : Config} {s t : Bytes} (hs : ¬ Text.byteOrderMark <+: s)
    (ht : ¬ Text.byteOrderMark <+: t)
    (h : List.Forall₂ Text.SameAscii (Text.lines s) (Text.lines t)) :
    scanSource config (Utf8.repair s) = scanSource config (Utf8.repair t) := by
  apply scanSource_congr
  rw [Text.dropMark_repair, Text.dropMark_repair, Text.dropMark_eq_self hs,
    Text.dropMark_eq_self ht, Text.lines_repair, Text.lines_repair, List.forall₂_map_left_iff,
    List.forall₂_map_right_iff]
  refine h.imp fun x y hxy => ?_
  exact ((Text.sameWords_repair _ x).trans (hxy.sameWords _)).trans (Text.sameWords_repair _ y).symm

namespace Scanner

variable (s : Scanner)

/-- What a scanner finds in a feed is what is on the lines of the feed. -/
lemma tags_call_feed (feed : Feed String) :
    (seen (s.call (.feed feed))).tags = ElixirTags.scanLines s.config feed.sourceLines := by
  rw [seen_call]
  rfl

lemma tags_call_feed_done (pieces : List Bytes) :
    (seen (s.call (.feed (.ofPieces .done pieces)))).tags =
      scanSource s.config (Utf8.repair pieces.flatten) := by
  rw [tags_call_feed]
  apply scanLines_sourceLines_eq_scanSource
  rw [Feed.records, Feed.recordsFrom_ofPieces_done pieces List.not_mem_nil, List.nil_append]

lemma tags_call_feed_failed (failure : String) (pieces : List Bytes) :
    (seen (s.call (.feed (.ofPieces (.failed failure) pieces)))).tags =
      scanSource s.config (Utf8.repair (Text.endedPart pieces.flatten)) := by
  rw [tags_call_feed]
  apply scanLines_sourceLines_eq_scanSource
  rw [Feed.records, Feed.recordsFrom_ofPieces_failed failure pieces List.not_mem_nil,
    List.nil_append, Text.lines_endedPart]

variable {pieces pieces' : List Bytes}

/-- **A scan sees ASCII only.**  If two files, neither of which begins with a byte order mark, have
the same ASCII bytes and stretches of other bytes in the same places, a scanner finds the same tags
in them, in whatever pieces they come.  This is so as well if both break off after that. -/
theorem tags_call_feed_eq_of_sameAscii (h : Text.SameAscii pieces.flatten pieces'.flatten)
    (hmark : ¬ Text.byteOrderMark <+: pieces.flatten)
    (hmark' : ¬ Text.byteOrderMark <+: pieces'.flatten) :
    (seen (s.call (.feed (.ofPieces .done pieces)))).tags =
        (seen (s.call (.feed (.ofPieces .done pieces')))).tags ∧
      ∀ failure failure',
        (seen (s.call (.feed (.ofPieces (.failed failure) pieces)))).tags =
          (seen (s.call (.feed (.ofPieces (.failed failure') pieces')))).tags := by
  constructor
  · rw [tags_call_feed_done, tags_call_feed_done]
    exact scanSource_repair_congr hmark hmark' h.lines
  · intro failure failure'
    rw [tags_call_feed_failed, tags_call_feed_failed]
    refine scanSource_repair_congr ?_ ?_ ?_
    · exact fun hstart => hmark (hstart.trans (Text.endedPart_prefix _))
    · exact fun hstart => hmark' (hstart.trans (Text.endedPart_prefix _))
    · rw [Text.lines_endedPart, Text.lines_endedPart]
      exact h.endedLines.1

/-! ## Two menus -/

/-- A file with four gaps, of which the first comes up once more in its last line. -/
def menu (a b c d : Bytes) : List Bytes :=
  [Bytes.ofString "# ", a, Bytes.ofString "\ndefmodule Men", b, Bytes.ofString " do\r\n", c,
    Bytes.ofString "def hidden\n  def f", d, Bytes.ofString "\r\ndef", a, Bytes.ofString "g"]

lemma sameAscii_menu {a b c d a' b' c' d' : Bytes} (ha : Text.SameAscii a a')
    (hb : Text.SameAscii b b') (hc : Text.SameAscii c c') (hd : Text.SameAscii d d') :
    Text.SameAscii (menu a b c d).flatten (menu a' b' c' d').flatten := by
  simp only [menu, List.flatten_cons, List.flatten_nil]
  refine (Text.SameAscii.of_ascii (by decide +kernel)).append (ha.append ?_)
  refine (Text.SameAscii.of_ascii (by decide +kernel)).append (hb.append ?_)
  refine (Text.SameAscii.of_ascii (by decide +kernel)).append (hc.append ?_)
  refine (Text.SameAscii.of_ascii (by decide +kernel)).append (hd.append ?_)
  refine (Text.SameAscii.of_ascii (by decide +kernel)).append (ha.append ?_)
  exact (Text.SameAscii.of_ascii (by decide +kernel)).append .nil

/-- One menu has broken characters in its gaps, the other has whole ones, a byte order mark among
them, and comes in one piece.  A gap hides the function behind it on its line, but not those on
other lines. -/
theorem tags_call_feed_eq_of_sameAscii_menu :
    let broken := menu [0xE2, 0x82] [0xC3] [0xFF, 0xFE] [0xED, 0xA0, 0x80]
    let whole := menu [0xC2, 0xA0] [0xC3, 0xBC] [0xEF, 0xBB, 0xBF] [0xE2, 0x82, 0xAC]
    Text.SameAscii broken.flatten [whole.flatten].flatten ∧
      ¬ Text.byteOrderMark <+: broken.flatten ∧ ¬ Text.byteOrderMark <+: [whole.flatten].flatten ∧
      (seen (call { config := .standard } (.feed (.ofPieces .done broken)))).tags =
        (seen (call { config := .standard } (.feed (.ofPieces .done [whole.flatten])))).tags ∧
      (seen (call { config := .standard } (.feed (.ofPieces .done [whole.flatten])))).tags =
        [{ name := Bytes.ofString "Men", kind := .moduleDef, line := 2 },
          { name := Bytes.ofString "f", kind := .functionDef, line := 4,
            owner := some (Bytes.ofString "Men") }] := by
  intro broken whole
  have hsame : Text.SameAscii broken.flatten [whole.flatten].flatten := by
    rw [List.flatten_singleton]
    refine sameAscii_menu ?_ ?_ ?_ ?_
    all_goals
      refine .of_isForeign ⟨List.cons_ne_nil _ _, ?_⟩ ⟨List.cons_ne_nil _ _, ?_⟩
      all_goals decide +kernel
  have hbroken : ¬ Text.byteOrderMark <+: broken.flatten := by decide
  have hwhole : ¬ Text.byteOrderMark <+: [whole.flatten].flatten := by decide
  refine ⟨hsame, hbroken, hwhole, ?_, by decide +kernel⟩
  exact (tags_call_feed_eq_of_sameAscii _ hsame hbroken hwhole).1

end Scanner

end ElixirTags
