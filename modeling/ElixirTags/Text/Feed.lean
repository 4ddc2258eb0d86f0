import ElixirTags.Text.Lines
import ElixirTags.Text.Utf8

/-!
# Text that arrives in pieces

A `Feed` brings a text bit by bit and ends well or with a failure.  How the text is cut into pieces
does not show: a line is complete when its newline has come, however many pieces it took.  A last
line without a newline counts if the feed ends well, and is lost if it fails.

The bytes of a feed need not be UTF-8.  They are repaired line by line.
-/

namespace ElixirTags

/-- A text that arrives in pieces. -/
inductive Feed (ε : Type) where
  /-- The text has come to its end. -/
  | done
  /-- No more can be read. -/
  | failed (failure : ε)
  /-- Some bytes, and what comes after them. -/
  | piece (bytes : Bytes) (rest : Feed ε)
deriving DecidableEq, Repr

namespace Feed

variable {ε : Type}

/-- The feed that brings a text at once. -/
def ofBytes (text : Bytes) : Feed ε := .piece text .done

/-- The feed that brings a text in pieces of at most `size` bytes and then goes on as `last`.  If
no byte fits into a piece, none is brought. -/
def inPieces (size : Nat) (last : Feed ε) (text : Bytes) : Feed ε :=
  match size, text with
  | 0, _ | _, [] => last
  | n + 1, b :: rest => .piece (b :: rest.take n) (inPieces (n + 1) last (rest.drop n))
termination_by text.length
decreasing_by simp only [List.length_drop, List.length_cons]; omega

/-- The failure that the feed ends in, if it does. -/
def failure? : Feed ε → Option ε
  | done => none
  | failed e => some e
  | piece _ rest => rest.failure?

/-- The lines of a feed, where `held` is the part of the first one that has come already. -/
def recordsFrom (held : Bytes) : Feed ε → List Bytes
  | done => if held = [] then [] else [held]
  | failed _ => []
  | piece bytes rest =>
    Text.endedLines (held ++ bytes) ++ rest.recordsFrom (Text.unended (held ++ bytes))

/-- The lines of a feed, without the newlines. -/
def records (feed : Feed ε) : List Bytes := feed.recordsFrom []

/-- The lines of a feed as source text: without carriage returns, without a byte order mark on the
first one, and repaired. -/
def lines (feed : Feed ε) : List Bytes :=
  match feed.records with
  | [] => []
  | first :: rest =>
    Utf8.repair (Text.dropMark (Text.dropReturn first)) ::
      rest.map fun line => Utf8.repair (Text.dropReturn line)

/-- The numbered lines of a feed as source text. -/
def sourceLines (feed : Feed ε) : List (LineNumber × Bytes) :=
  Text.numberFrom 1 feed.lines

end Feed

end ElixirTags
