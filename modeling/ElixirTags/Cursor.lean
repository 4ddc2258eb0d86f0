import ElixirTags.Ident

/-!
# A cursor on one line

A `Cursor` is a line cut in two at a byte: what has been read, and what has not.  It moves forward
only.  At the end of the line `current` is the zero byte, which is also what it is on a zero byte of
the line.
-/

namespace ElixirTags

/-- A place in a line. -/
structure Cursor where
  /-- The bytes before the place. -/
  consumed : Bytes
  /-- The bytes from the place on. -/
  rest : Bytes
deriving DecidableEq, Repr

namespace Cursor

/-- The start of a line. -/
def ofLine (line : Bytes) : Cursor := ⟨[], line⟩

/-- The byte at the cursor, or zero at the end of the line. -/
def current (c : Cursor) : UInt8 := c.rest.headD 0

/-- One byte forward, if there is one. -/
def advance (c : Cursor) : Cursor :=
  match c.rest with
  | [] => c
  | b :: rest => ⟨c.consumed ++ [b], rest⟩

/-- Forward over the bytes that satisfy `p`, up to the first that does not. -/
def eatWhile (c : Cursor) (p : UInt8 → Bool) : Cursor :=
  ⟨c.consumed ++ c.rest.takeWhile p, c.rest.dropWhile p⟩

/-- Forward over blanks. -/
def skipBlanks (c : Cursor) : Cursor := c.eatWhile Byte.isBlank

/-- The identifier that begins at the cursor, which may be empty, and the place after it. -/
def identifier (c : Cursor) (cls : IdentClass) : Bytes × Cursor :=
  (c.rest.takeWhile cls.contains, c.eatWhile cls.contains)

end Cursor

end ElixirTags
