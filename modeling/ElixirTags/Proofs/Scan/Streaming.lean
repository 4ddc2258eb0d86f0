import ElixirTags.Proofs.Text.Lines
import ElixirTags.Proofs.Text.Repair
import ElixirTags.Scan.Session

/-!
# A feed is scanned as its text

A session scans a source text that it has in hand, and a feed of bytes that arrives in pieces.  The
two go about it differently: a text is repaired as a whole, loses its byte order mark, and is then
cut into lines, while a feed is cut first, and every line is repaired by itself after it has lost
its carriage return and, if it is the first, the mark.

Both find the same tags.  The lines of a feed are those of its text, however it is cut into pieces
(`Feed.records_ofPieces_done`, `Feed.records_ofPieces_failed`), and the steps taken on a line may be
taken in either order (`Text.dropMark_dropReturn`, and `ElixirTags.Proofs.Text.Repair`).  Only a
text that is nothing but a mark has lines in one reading and none in the other, and an empty line
has no tag.  The main result is `call_feed_eq_scanSource`.
-/

namespace ElixirTags

/-! ## The lines of a feed -/

namespace Feed

variable {ε : Type}

/-- The feed that brings some pieces one after the other and then goes on as `last`. -/
def ofPieces (last : Feed ε) : List Bytes → Feed ε
  | [] => last
  | bytes :: rest => .piece bytes (ofPieces last rest)

@[simp] lemma failure?_ofPieces (last : Feed ε) (pieces : List Bytes) :
    (ofPieces last pieces).failure? = last.failure? := by
  induction pieces with
  | nil => rfl
  | cons bytes rest ih => exact ih

/-- A feed that ends well has the lines of its text. -/
lemma recordsFrom_ofPieces_done (pieces : List Bytes) : ∀ {held : Bytes}, Byte.newline ∉ held →
    (ofPieces (.done : Feed ε) pieces).recordsFrom held = Text.lines (held ++ pieces.flatten) := by
  induction pieces with
  | nil =>
      intro held h
      rw [List.flatten_nil, List.append_nil, Text.lines_of_not_mem h]
      rfl
  | cons bytes rest ih =>
      intro held _
      rw [ofPieces, recordsFrom, ih (Text.not_mem_unended _), List.flatten_cons,
        ← List.append_assoc held, Text.lines_append (held ++ bytes)]

/-- A feed that fails has the ended lines of what it has brought. -/
lemma recordsFrom_ofPieces_failed (failure : ε) (pieces : List Bytes) :
    ∀ {held : Bytes}, Byte.newline ∉ held →
      (ofPieces (.failed failure) pieces).recordsFrom held =
        Text.endedLines (held ++ pieces.flatten) := by
  induction pieces with
  | nil =>
      intro held h
      rw [List.flatten_nil, List.append_nil, Text.endedLines_of_not_mem h]
      rfl
  | cons bytes rest ih =>
      intro held _
      rw [ofPieces, recordsFrom, ih (Text.not_mem_unended _), List.flatten_cons,
        ← List.append_assoc held, (Text.endedLines_append (held ++ bytes) _).1]

end Feed

/-! ## Marks and carriage returns in either order -/

namespace Text

lemma dropMark_dropReturn (line : Bytes) :
    dropMark (dropReturn line) = dropReturn (dropMark line) := by
  by_cases h : line.getLast? = some Byte.carriageReturn
  · obtain ⟨before, rfl⟩ := List.getLast?_eq_some_iff.1 h
    rw [dropReturn_concat]
    by_cases hmark : byteOrderMark <+: before
    · obtain ⟨rest, rfl⟩ := hmark
      rw [List.append_assoc, dropMark_byteOrderMark_append, dropMark_byteOrderMark_append,
        dropReturn_concat]
    · have hmark' : ¬ byteOrderMark <+: before ++ [Byte.carriageReturn] := by
        rw [List.prefix_concat_iff]
        rintro (heq | hp)
        · have hlast := congrArg List.getLast? heq
          rw [List.getLast?_concat] at hlast
          cases hlast
        · exact hmark hp
      rw [dropMark_eq_self hmark, dropMark_eq_self hmark', dropReturn_concat]
  · rw [dropReturn_of_ne h]
    by_cases hmark : byteOrderMark <+: line
    · obtain ⟨rest, rfl⟩ := hmark
      rw [dropMark_byteOrderMark_append, dropReturn_of_ne]
      intro hrest
      rw [List.getLast?_append, hrest] at h
      exact h rfl
    · rw [dropMark_eq_self hmark, dropReturn_of_ne h]

/-- A mark at the start of a text stands in its first line. -/
lemma byteOrderMark_prefix_of_append_newline {first rest : Bytes}
    (h : byteOrderMark <+: first ++ Byte.newline :: rest) : byteOrderMark <+: first := by
  rcases List.prefix_or_prefix_of_prefix h (List.prefix_append first _) with hmark | hfirst
  · exact hmark
  · obtain ⟨more, hmore⟩ := hfirst
    cases more with
    | nil => exact ⟨[], by simpa using hmore.symm⟩
    | cons b more =>
        rw [← hmore, List.prefix_append_right_inj, List.cons_prefix_cons] at h
        have hmem : Byte.newline ∈ byteOrderMark := by
          rw [← hmore, ← h.1]
          simp
        exact absurd hmem (by decide)

/-- The lines of a text without its mark are those of the text, with the mark taken from the first
of them, unless the text is nothing else. -/
lemma lines_dropMark {text : Bytes} (h : text ≠ byteOrderMark) :
    lines (dropMark text) =
      match lines text with
      | [] => []
      | first :: rest => dropMark first :: rest := by
  by_cases hmem : Byte.newline ∈ text
  · obtain ⟨first, rest, rfl, hfirst⟩ := List.eq_append_cons_of_mem hmem
    rw [lines_append_newline hfirst]
    show _ = dropMark first :: lines rest
    by_cases hmark : byteOrderMark <+: first
    · obtain ⟨line, rfl⟩ := hmark
      rw [List.append_assoc, dropMark_byteOrderMark_append, dropMark_byteOrderMark_append]
      exact lines_append_newline (fun hline => hfirst (List.mem_append_right _ hline)) rest
    · rw [dropMark_eq_self hmark,
        dropMark_eq_self (mt byteOrderMark_prefix_of_append_newline hmark)]
      exact lines_append_newline hfirst rest
  · rw [lines_of_not_mem hmem]
    by_cases hmark : byteOrderMark <+: text
    · obtain ⟨line, rfl⟩ := hmark
      have hline : line ≠ [] := by
        rintro rfl
        exact h (List.append_nil _)
      have hmem' : Byte.newline ∉ line := fun hl => hmem (List.mem_append_right _ hl)
      have htext : byteOrderMark ++ line ≠ [] := by simp [hline]
      rw [dropMark_byteOrderMark_append, lines_of_not_mem hmem', if_neg hline, if_neg htext]
      show _ = [dropMark (byteOrderMark ++ line)]
      rw [dropMark_byteOrderMark_append]
    · rw [dropMark_eq_self hmark, lines_of_not_mem hmem]
      split
      · rfl
      · show _ = [dropMark text]
        rw [dropMark_eq_self hmark]

end Text

/-! ## The comparison -/

/-- A feed with the lines of a text has the tags of the repaired text. -/
lemma scanLines_sourceLines_eq_scanSource {ε : Type} (config : Config) {feed : Feed ε}
    {text : Bytes} (h : feed.records = Text.lines text) :
    scanLines config feed.sourceLines = scanSource config (Utf8.repair text) := by
  by_cases hmark : text = Text.byteOrderMark
  · -- the feed has one line, which is empty, and the text has none
    subst hmark
    have hfeed : feed.sourceLines = [(1, [])] := by
      rw [Feed.sourceLines, Feed.lines, h]
      rfl
    have hsource : Text.sourceLines (Utf8.repair Text.byteOrderMark) = [] := rfl
    rw [hfeed, scanSource, hsource]
    rfl
  · have hlines : feed.lines =
        (Text.lines (Text.dropMark (Utf8.repair text))).map Text.dropReturn := by
      rw [Text.dropMark_repair, Text.lines_repair, Text.lines_dropMark hmark, Feed.lines, h]
      cases Text.lines text with
      | nil => rfl
      | cons first rest =>
          simp [Text.dropReturn_repair, Text.dropMark_dropReturn]
    rw [Feed.sourceLines, hlines]
    rfl

/-- **A feed is scanned as its text.**  However a text is cut into pieces, a session that is handed
the feed answers with the tags of the repaired text and without a failure.  If the feed fails, the
answer is the failure, with the tags of the repaired text up to and including the last newline that
came.  In either case no owner is left behind. -/
theorem call_feed_eq_scanSource (s : Session) (pieces : List Bytes) :
    (∃ reply, s.call (.feed (.ofPieces .done pieces)) = (reply, { s with owner := none }) ∧
      reply.failure = none ∧
      Reading.tags s.config reply.readings =
        scanSource s.config (Utf8.repair pieces.flatten)) ∧
    ∀ failure,
      ∃ reply, s.call (.feed (.ofPieces (.failed failure) pieces)) =
          (reply, { s with owner := none }) ∧
        reply.failure = some failure ∧
        Reading.tags s.config reply.readings =
          scanSource s.config (Utf8.repair (Text.endedPart pieces.flatten)) := by
  refine ⟨⟨_, rfl, ?_, ?_⟩, fun failure => ⟨_, rfl, ?_, ?_⟩⟩
  · exact Feed.failure?_ofPieces .done pieces
  · apply scanLines_sourceLines_eq_scanSource
    rw [Feed.records, Feed.recordsFrom_ofPieces_done pieces List.not_mem_nil, List.nil_append]
  · exact Feed.failure?_ofPieces (.failed failure) pieces
  · apply scanLines_sourceLines_eq_scanSource
    rw [Feed.records, Feed.recordsFrom_ofPieces_failed failure pieces List.not_mem_nil,
      List.nil_append, Text.lines_endedPart]

end ElixirTags
