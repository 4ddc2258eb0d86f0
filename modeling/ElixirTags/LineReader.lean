import ElixirTags.Cursor
import ElixirTags.Text.Utf8

/-!
# Reading a line byte by byte

A `LineReader` keeps its line whole and counts the bytes before its place.  It goes over a run of
bytes by one look and one step at a time, and it looks for the end of the line before it looks at
the byte, because the zero byte that stands for the end may as well stand in the line.

An identifier is read in two goes.  First the reader passes its bytes, then it copies the text
between the two places into a buffer, which is used again for every identifier.  The copy is a text,
and between places inside characters there is none (`LineReader.slice`).

The cursor at the same place (`LineReader.cursor`) has the line cut in two instead, and needs no
buffer.
-/

namespace ElixirTags

/-- A place in a line, with a buffer for identifiers. -/
structure LineReader where
  line : Bytes
  /-- The number of bytes before the place. -/
  pos : Nat := 0
  /-- The identifier that was read last. -/
  buffer : Bytes := []
deriving DecidableEq, Repr

namespace LineReader

/-- The byte at the place, or zero at the end of the line. -/
def current (r : LineReader) : UInt8 := r.line[r.pos]?.getD 0

/-- Every byte of the line lies before the place. -/
def atEnd (r : LineReader) : Bool := r.line.length ≤ r.pos

/-- One byte forward, if there is one. -/
def advance (r : LineReader) : LineReader :=
  if r.pos < r.line.length then { r with pos := r.pos + 1 } else r

/-- Forward, byte by byte, as long as there is a byte and it satisfies `p`. -/
def eatWhile (r : LineReader) (p : UInt8 → Bool) : LineReader :=
  if !r.atEnd && p r.current then eatWhile { r with pos := r.pos + 1 } p else r
termination_by r.line.length - r.pos
decreasing_by
  rename_i h
  simp only [atEnd, Bool.and_eq_true, Bool.not_eq_true', decide_eq_false_iff_not] at h
  omega

/-- Forward over blanks. -/
def skipBlanks (r : LineReader) : LineReader := r.eatWhile Byte.isBlank

/-- The text from byte `start` to the place, or nothing if `start` lies behind the place or one of
the two is inside a character. -/
def slice (r : LineReader) (start : Nat) : Bytes :=
  if start ≤ r.pos && Utf8.isBoundary r.line start && Utf8.isBoundary r.line r.pos then
    r.line.extract start r.pos
  else []

/-- Passes the identifier that begins at the place, which may be empty, and leaves it in the buffer.
Gives the number of bytes that were passed. -/
def identifier (r : LineReader) (cls : IdentClass) : Nat × LineReader :=
  let start := r.pos
  let r := { r with buffer := [] }
  let r := r.eatWhile cls.contains
  (r.pos - start, { r with buffer := r.buffer ++ r.slice start })

/-! ## Moves -/

/-- A way to go forward. -/
inductive Move where
  | advance
  | eatWhile (p : UInt8 → Bool)
  | skipBlanks
  | identifier (cls : IdentClass)

/-- The reader after a move. -/
def move (r : LineReader) : Move → LineReader
  | .advance => r.advance
  | .eatWhile p => r.eatWhile p
  | .skipBlanks => r.skipBlanks
  | .identifier cls => (r.identifier cls).2

/-- The reader after some moves. -/
def after (r : LineReader) (moves : List Move) : LineReader := moves.foldl move r

end LineReader

/-! ## The cursor at the same place -/

/-- The cursor at the place of the reader. -/
def LineReader.cursor (r : LineReader) : Cursor := ⟨r.line.take r.pos, r.line.drop r.pos⟩

/-- The cursor after a move. -/
def Cursor.move (c : Cursor) : LineReader.Move → Cursor
  | .advance => c.advance
  | .eatWhile p => c.eatWhile p
  | .skipBlanks => c.skipBlanks
  | .identifier cls => (c.identifier cls).2

/-- The cursor after some moves. -/
def Cursor.after (c : Cursor) (moves : List LineReader.Move) : Cursor := moves.foldl move c

end ElixirTags
