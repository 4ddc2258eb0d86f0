import ElixirTags.Scan.Verdict

/-!
# Scanning lines

A scan goes through numbered lines and carries one thing from line to line: the owner, which is the
module whose definition was the last to begin.  It ends each line with a `Reading`, and the tags and
events of the scan are read off these.

`scanSource` scans a whole source text.  It starts without an owner.
-/

namespace ElixirTags

/-- A line in its place. -/
structure Reading where
  /-- The number of the line. -/
  line : LineNumber
  /-- The owner when the line was reached. -/
  owner : Option Bytes
  verdict : Verdict
deriving DecidableEq, Repr

namespace Reading

variable (config : Config)

/-- The tag of the line. -/
def tag? (r : Reading) : Option Tag := r.verdict.tag? config r.owner r.line

/-- The event of the line. -/
def event? (r : Reading) : Option Event := r.verdict.event? config r.owner r.line

/-- The owner after the line. -/
def ownerAfter (r : Reading) : Option Bytes := r.verdict.ownerAfter r.owner

/-- The reading of one line. -/
def ofLine (owner : Option Bytes) (line : LineNumber) (text : Bytes) : Reading :=
  ⟨line, owner, .ofLine config text⟩

/-- The readings of numbered lines, where `owner` is the owner before the first. -/
def ofLines (owner : Option Bytes) : List (LineNumber × Bytes) → List Reading
  | [] => []
  | (line, text) :: rest =>
    let reading := ofLine config owner line text
    reading :: ofLines reading.ownerAfter rest

/-- The tags of readings. -/
def tags (rs : List Reading) : List Tag := rs.filterMap (tag? config)

/-- The events of readings. -/
def events (rs : List Reading) : List Event := rs.filterMap (event? config)

end Reading

/-- The tags of numbered lines that make up a file. -/
def scanLines (config : Config) (lines : List (LineNumber × Bytes)) : List Tag :=
  Reading.tags config (Reading.ofLines config none lines)

/-- The tags of a source text. -/
def scanSource (config : Config) (source : Bytes) : List Tag :=
  scanLines config (Text.sourceLines source)

end ElixirTags
