import ElixirTags.LineReader
import ElixirTags.Proofs.Scan.Ascii
import ElixirTags.Proofs.Scan.Grammar
import ElixirTags.Proofs.Text.Boundary

/-!
# A line is read byte by byte

A line reader counts bytes, one at a time, and reads an identifier by copying what lies between two
places.  Here it is shown that it cannot lose its way, wherever its moves have taken it, places
inside a character included.

The loop is the only thing that has to be unrolled: it passes the longest run of bytes with the
property (`LineReader.eatWhile_eq`).  A copy between places inside characters would be empty, but
identifiers are ASCII, and ASCII bytes of UTF-8 stand between character boundaries
(`LineReader.slice_run`).  So an identifier is read as a cursor reads it, which has no buffer
(`LineReader.exists_identifier_eq`).

One move goes forward and is the move of a cursor (`LineReader.ahead_move`,
`LineReader.cursor_move`), and so are all moves together.  The main result is
`LineReader.after_passes_runs`.
-/

namespace ElixirTags

namespace LineReader

variable (r : LineReader) (p : UInt8 → Bool) (cls : IdentClass)

/-- The longest run of bytes with the property that begins at the place. -/
def run : Bytes := (r.line.drop r.pos).takeWhile p

/-! ## The loop -/

lemma atEnd_eq : r.atEnd = (r.line.drop r.pos).isEmpty := by
  rw [atEnd, Bool.eq_iff_iff, decide_eq_true_iff, List.isEmpty_iff, List.drop_eq_nil_iff]

lemma current_eq : r.current = (r.line.drop r.pos).headD 0 := by
  rw [current, List.headD_eq_head?_getD, List.head?_drop]

/-- The loop goes on exactly if there is another byte and it has the property. -/
lemma goesOn_iff : (!r.atEnd && p r.current) = true ↔
    ∃ b rest, r.line.drop r.pos = b :: rest ∧ p b = true := by
  rw [atEnd_eq, current_eq]
  cases r.line.drop r.pos with
  | nil => simp
  | cons b rest => simp

/-- The loop passes the longest run, even if the zero byte has the property. -/
lemma eatWhile_eq : r.eatWhile p = { r with pos := r.pos + (r.run p).length } := by
  fun_induction eatWhile r p with
  | case1 r h ih =>
      obtain ⟨b, rest, hrest, hb⟩ := (r.goesOn_iff p).1 h
      have hrun : r.run p = b :: run { r with pos := r.pos + 1 } p := by
        rw [run, hrest, List.takeWhile_cons_of_pos hb, run, ← List.tail_drop, hrest]
        rfl
      rw [ih, hrun, List.length_cons, Nat.add_assoc, Nat.add_comm 1]
  | case2 r h =>
      have hrun : r.run p = [] := by
        rw [run]
        cases hrest : r.line.drop r.pos with
        | nil => rfl
        | cons b rest =>
            exact List.takeWhile_cons_of_neg fun hb => h ((r.goesOn_iff p).2 ⟨b, rest, hrest, hb⟩)
      rw [hrun]
      rfl

/-! ## Before and after a run -/

lemma run_append_dropWhile : r.run p ++ (r.line.drop r.pos).dropWhile p = r.line.drop r.pos :=
  List.takeWhile_append_dropWhile

lemma take_drop_run : (r.line.drop r.pos).take (r.run p).length = r.run p :=
  (List.prefix_iff_eq_take.1 (List.takeWhile_prefix p)).symm

lemma drop_add_run :
    r.line.drop (r.pos + (r.run p).length) = (r.line.drop r.pos).dropWhile p := by
  calc r.line.drop (r.pos + (r.run p).length)
      = (r.line.drop r.pos).drop (r.run p).length := List.drop_drop.symm
    _ = (r.run p ++ (r.line.drop r.pos).dropWhile p).drop (r.run p).length := by
        rw [run_append_dropWhile]
    _ = (r.line.drop r.pos).dropWhile p := List.drop_left

lemma extract_run : r.line.extract r.pos (r.pos + (r.run p).length) = r.run p := by
  rw [List.extract_eq_take_drop, Nat.add_sub_cancel_left, take_drop_run]

lemma line_eq_append_run : r.line.take r.pos ++
    (r.run p ++ r.line.drop (r.pos + (r.run p).length)) = r.line := by
  rw [drop_add_run, run_append_dropWhile, List.take_append_drop]

lemma isRun_run : Text.IsRun p (r.run p) (r.line.drop (r.pos + (r.run p).length)) := by
  rw [drop_add_run]
  exact Text.isRun_takeWhile p _

lemma pos_add_run_le (h : r.pos ≤ r.line.length) :
    r.pos + (r.run p).length ≤ r.line.length := by
  have hrun : (r.run p).length ≤ (r.line.drop r.pos).length :=
    (List.takeWhile_prefix p).length_le
  rw [List.length_drop] at hrun
  omega

/-! ## Boundaries -/

section Valid

variable {r p} (hvalid : Utf8.Valid r.line) (hp : ∀ b, p b = true → b < 0x80)
  (hpos : r.pos ≤ r.line.length)

include hp in
lemma lt_of_mem_run : ∀ b ∈ r.run p, b < 0x80 := fun b hb => hp b ((r.isRun_run p).all b hb)

include hvalid hp hpos

/-- A run of ASCII bytes leads from one boundary to another. -/
lemma isBoundary_add_run (h : Utf8.isBoundary r.line r.pos = true) :
    Utf8.isBoundary r.line (r.pos + (r.run p).length) = true := by
  rw [Utf8.isBoundary_iff hvalid hpos] at h
  rw [Utf8.isBoundary_iff hvalid (r.pos_add_run_le p hpos), List.take_add, take_drop_run]
  exact Utf8.valid_append h (Utf8.valid_of_ascii (lt_of_mem_run hp))

/-- A run of ASCII bytes begins at a boundary, if there are any. -/
lemma isBoundary_of_run_ne_nil (hrun : r.run p ≠ []) :
    Utf8.isBoundary r.line r.pos = true := by
  obtain ⟨b, more, hcons⟩ := List.exists_cons_of_ne_nil hrun
  have hb : b < 0x80 := lt_of_mem_run hp b (hcons ▸ List.mem_cons_self)
  have hline := r.line_eq_append_run p
  rw [hcons, List.cons_append] at hline
  rw [Utf8.isBoundary_iff hvalid hpos]
  exact Utf8.valid_of_append_ascii hb (hline.symm ▸ hvalid)

/-- What is copied after a run of ASCII bytes is the run, even where it is empty and stands inside a
character. -/
lemma slice_run : slice { r with pos := r.pos + (r.run p).length } r.pos = r.run p := by
  by_cases hrun : r.run p = []
  · rw [slice, hrun]
    split
    · rw [List.length_nil, Nat.add_zero, List.extract_eq_take_drop, Nat.sub_self, List.take_zero]
    · rfl
  · have hstart := isBoundary_of_run_ne_nil hvalid hp hpos hrun
    have hstop := isBoundary_add_run hvalid hp hpos hstart
    rw [slice, if_pos, extract_run]
    rw [hstart, hstop, decide_eq_true (Nat.le_add_right _ _)]
    rfl

end Valid

/-! ## Runs that are passed -/

/-- The reader `s` stands in the line of `r`, and not before it. -/
structure Ahead (r s : LineReader) : Prop where
  line : s.line = r.line
  le : r.pos ≤ s.pos
  le_length : s.pos ≤ r.line.length

/-- From `r` to `s` goes the longest run of bytes with the property. -/
structure Passes (r : LineReader) (p : UInt8 → Bool) (s : LineReader) : Prop where
  ahead : r.Ahead s
  isRun : Text.IsRun p (r.line.extract r.pos s.pos) (r.line.drop s.pos)
  stops : s.atEnd = true ∨ p s.current = false

variable {r p cls} {s t : LineReader}

lemma Ahead.trans (hrs : r.Ahead s) (hst : s.Ahead t) : r.Ahead t where
  line := hst.line.trans hrs.line
  le := hrs.le.trans hst.le
  le_length := hrs.line ▸ hst.le_length

lemma passes_of_pos_eq (hpos : r.pos ≤ r.line.length) (hline : s.line = r.line)
    (hs : s.pos = r.pos + (r.run p).length) : r.Passes p s := by
  have hrun : Text.IsRun p (r.line.extract r.pos s.pos) (r.line.drop s.pos) := by
    rw [hs, extract_run]
    exact r.isRun_run p
  refine ⟨⟨hline, hs ▸ Nat.le_add_right _ _, hs ▸ r.pos_add_run_le p hpos⟩, hrun, ?_⟩
  rw [atEnd_eq, current_eq, hline]
  cases hrest : r.line.drop s.pos with
  | nil => exact Or.inl rfl
  | cons b rest => exact Or.inr (hrun.stops b (by rw [hrest]; rfl))

lemma passes_eatWhile (hpos : r.pos ≤ r.line.length) : r.Passes p (r.eatWhile p) := by
  rw [eatWhile_eq]
  exact passes_of_pos_eq hpos rfl rfl

/-! ## Identifiers -/

/-- An identifier is the run that begins at the place, whatever was in the buffer. -/
lemma identifier_eq (hvalid : Utf8.Valid r.line) (hpos : r.pos ≤ r.line.length) :
    r.identifier cls = ((r.run cls.contains).length,
      { r with pos := r.pos + (r.run cls.contains).length, buffer := r.run cls.contains }) := by
  -- the buffer is empty when the run is copied into it
  have hslice := slice_run (r := { r with buffer := [] }) hvalid
    (fun _ => IdentClass.lt_of_contains (c := cls)) hpos
  rw [identifier, eatWhile_eq]
  dsimp only
  rw [hslice, List.nil_append, Nat.add_sub_cancel_left]
  rfl

/-! ## Cursors -/

lemma cursor_advance : r.advance.cursor = r.cursor.advance := by
  rw [Cursor.advance]
  split
  · next hrest =>
    rw [advance, if_neg (Nat.not_lt.2 (List.drop_eq_nil_iff.1 hrest))]
  · next b rest hrest =>
    have hrest' : r.line.drop r.pos = b :: rest := hrest
    have hlt : r.pos < r.line.length := by
      by_contra hge
      rw [List.drop_eq_nil_of_le (Nat.not_lt.1 hge)] at hrest'
      cases hrest'
    rw [advance, if_pos hlt, cursor, cursor, List.take_add, ← List.tail_drop, hrest']
    rfl

lemma cursor_of_pos_eq (hline : s.line = r.line) (hs : s.pos = r.pos + (r.run p).length) :
    s.cursor = r.cursor.eatWhile p := by
  rw [cursor, hline, hs, List.take_add, take_drop_run, drop_add_run]
  rfl

lemma cursor_eatWhile : (r.eatWhile p).cursor = r.cursor.eatWhile p := by
  rw [eatWhile_eq]
  exact cursor_of_pos_eq rfl rfl

/-- An identifier is read as a cursor reads it, and is in the buffer then, whatever was in it
before. -/
lemma exists_identifier_eq (hvalid : Utf8.Valid r.line) (hpos : r.pos ≤ r.line.length)
    (cls : IdentClass) (held : Bytes) :
    ∃ s, identifier { r with buffer := held } cls = (s.buffer.length, s) ∧
      r.Passes cls.contains s ∧ s.buffer = r.line.extract r.pos s.pos ∧
      r.cursor.identifier cls = (s.buffer, s.cursor) := by
  let s : LineReader :=
    ⟨r.line, r.pos + (r.run cls.contains).length, r.run cls.contains⟩
  have hcursor : s.cursor = r.cursor.eatWhile cls.contains := cursor_of_pos_eq rfl rfl
  refine ⟨s, identifier_eq (r := { r with buffer := held }) hvalid hpos,
    passes_of_pos_eq hpos rfl rfl, (r.extract_run cls.contains).symm, ?_⟩
  rw [hcursor]
  rfl

/-! ## Moves -/

/-- A move goes forward in the line, and changes nothing else but the buffer. -/
lemma ahead_move (hpos : r.pos ≤ r.line.length) (m : Move) : r.Ahead (r.move m) := by
  cases m with
  | advance =>
      rw [move, advance]
      split
      · next hlt => exact ⟨rfl, Nat.le_succ _, hlt⟩
      · exact ⟨rfl, Nat.le_refl _, hpos⟩
  | eatWhile p => exact (passes_eatWhile hpos).ahead
  | skipBlanks => exact (passes_eatWhile hpos).ahead
  | identifier cls =>
      have hpass := (passes_eatWhile (r := { r with buffer := [] }) (p := cls.contains) hpos).ahead
      exact ⟨hpass.line, hpass.le, hpass.le_length⟩

/-- Every move is the move of a cursor. -/
lemma cursor_move (hvalid : Utf8.Valid r.line) (hpos : r.pos ≤ r.line.length) (m : Move) :
    (r.move m).cursor = r.cursor.move m := by
  cases m with
  | advance => exact cursor_advance
  | eatWhile p => exact cursor_eatWhile
  | skipBlanks => exact cursor_eatWhile
  | identifier cls =>
      rw [move, identifier_eq hvalid hpos]
      exact cursor_of_pos_eq rfl rfl

lemma ahead_after (hpos : r.pos ≤ r.line.length) (moves : List Move) :
    r.Ahead (r.after moves) := by
  induction moves generalizing r with
  | nil => exact ⟨rfl, Nat.le_refl _, hpos⟩
  | cons m rest ih =>
      have hmove := ahead_move hpos m
      exact hmove.trans (ih (hmove.line ▸ hmove.le_length))

lemma cursor_after (hvalid : Utf8.Valid r.line) (hpos : r.pos ≤ r.line.length)
    (moves : List Move) : (r.after moves).cursor = r.cursor.after moves := by
  induction moves generalizing r with
  | nil => rfl
  | cons m rest ih =>
      have hmove := ahead_move hpos m
      show ((r.move m).after rest).cursor = (r.cursor.move m).after rest
      rw [ih (hmove.line ▸ hvalid) (hmove.line ▸ hmove.le_length), cursor_move hvalid hpos]

/-- **A line is read byte by byte.**  Wherever its moves have taken it in a line of UTF-8, a reader
stands where a cursor does after the same moves, and no moves take it back or beyond the end.  Over
bytes with a property it passes the longest run of them.  As an identifier it passes the longest run
of bytes of the class, gives the number of these bytes and leaves exactly them in the buffer,
whatever the buffer held, as a cursor reads them.  After a run there stands a byte without the
property, or the line is at its end.

The place is a character boundary exactly if the text before it is UTF-8.  Blanks and identifiers
lead from one boundary to another. -/
theorem after_passes_runs (line buffer : Bytes) (hvalid : Utf8.Valid line) (moves : List Move) :
    let r := after { line, buffer } moves
    r.line = line ∧ r.cursor = (Cursor.ofLine line).after moves ∧
      (∀ more, r.Ahead (r.after more)) ∧ (∀ p, r.Passes p (r.eatWhile p)) ∧
      (∀ cls held, ∃ s, identifier { r with buffer := held } cls = (s.buffer.length, s) ∧
        r.Passes cls.contains s ∧ s.buffer = line.extract r.pos s.pos ∧
        r.cursor.identifier cls = (s.buffer, s.cursor)) ∧
      (Utf8.isBoundary line r.pos = true ↔ Utf8.Valid (line.take r.pos)) ∧
      (Utf8.isBoundary line r.pos = true →
        Utf8.isBoundary line r.skipBlanks.pos = true ∧
          ∀ cls, Utf8.isBoundary line (r.identifier cls).2.pos = true) := by
  intro r
  have hstart : Ahead { line, buffer } r := ahead_after (Nat.zero_le _) moves
  have hline : r.line = line := hstart.line
  have hpos : r.pos ≤ r.line.length := hline ▸ hstart.le_length
  have hvalid' : Utf8.Valid r.line := hline ▸ hvalid
  refine ⟨hline, cursor_after hvalid (Nat.zero_le _) moves, fun more => ahead_after hpos more,
    fun p => passes_eatWhile hpos, fun cls held => ?_, ?_, fun hbound => ⟨?_, fun cls => ?_⟩⟩
  · rw [← hline]
    exact exists_identifier_eq hvalid' hpos cls held
  · rw [← hline]
    exact Utf8.isBoundary_iff hvalid' hpos
  · rw [← hline] at hbound ⊢
    rw [skipBlanks, eatWhile_eq]
    exact isBoundary_add_run hvalid' (fun _ => Byte.lt_of_isBlank) hpos hbound
  · rw [← hline] at hbound ⊢
    rw [identifier_eq hvalid' hpos]
    exact isBoundary_add_run hvalid' (fun _ => IdentClass.lt_of_contains) hpos hbound

/-- A character of two bytes, a zero byte and a letter. -/
def accented : Bytes := [0xC3, 0xA9, 0x00, 0x64]

/-- Inside the character an identifier is empty, and the buffer with it.  Behind the zero byte,
which is passed like any other, there is one. -/
theorem after_passes_runs_accented :
    Utf8.Valid accented ∧ Utf8.isBoundary accented 1 = false ∧
      (∃ s, identifier { after { line := accented } [.advance] with
          buffer := Bytes.ofString "stale" } .dotted = (0, s) ∧
        s.buffer = [] ∧ s.cursor = ⟨[0xC3], [0xA9, 0x00, 0x64]⟩) ∧
      ∃ s, identifier { after { line := accented } [.advance, .eatWhile (0x80 ≤ ·),
          .eatWhile (· == 0)] with buffer := Bytes.ofString "stale" } .dotted = (1, s) ∧
        s.buffer = Bytes.ofString "d" ∧ s.cursor = ⟨accented, []⟩ := by
  have hvalid : Utf8.Valid accented := by decide
  have hread : ∀ moves held word c, ((Cursor.ofLine accented).after moves).identifier .dotted =
      (word, c) → ∃ s, identifier { after { line := accented } moves with buffer := held } .dotted =
        (word.length, s) ∧ s.buffer = word ∧ s.cursor = c := by
    intro moves held word c h
    obtain ⟨-, hcursor, -, -, hident, -⟩ := after_passes_runs accented [] hvalid moves
    obtain ⟨s, hs, -, -, hsame⟩ := hident .dotted held
    rw [hcursor, h] at hsame
    obtain ⟨rfl, rfl⟩ := Prod.mk.inj hsame
    exact ⟨s, hs, rfl, rfl⟩
  exact ⟨hvalid, by decide, hread _ _ [] ⟨[0xC3], [0xA9, 0x00, 0x64]⟩ (by decide),
    hread _ _ (Bytes.ofString "d") ⟨accented, []⟩ (by decide)⟩

end LineReader

end ElixirTags
