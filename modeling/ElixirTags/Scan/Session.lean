import ElixirTags.Scan.Reading
import ElixirTags.Text.Feed

/-!
# Scan sessions

A `Session` scans one file after another.  A file may be handed over line by line, between
`beginFile` and `finishFile`, or whole, as lines, as a source text or as a feed.  All that a session
remembers is the owner, and whole files neither see it nor leave one behind.
-/

namespace ElixirTags

/-- A scan in progress. -/
structure Session where
  config : Config
  /-- The module that the lines so far have begun. -/
  owner : Option Bytes := none
deriving DecidableEq, Repr

namespace Session

/-- What a session can be asked to do.  A feed fails with a message. -/
inductive Call where
  | beginFile
  | finishFile
  /-- Scan one line of it. -/
  | line (number : LineNumber) (text : Bytes)
  /-- Scan a file given as numbered lines. -/
  | lines (lines : List (LineNumber × Bytes))
  /-- Scan a file given as source text. -/
  | source (text : Bytes)
  /-- Scan a file that arrives in pieces. -/
  | feed (feed : Feed String)
deriving DecidableEq, Repr

/-- What a call brings. -/
structure Reply where
  readings : List Reading := []
  /-- Why the file could not be read to its end. -/
  failure : Option String := none
deriving DecidableEq, Repr

/-- A whole file: nothing is remembered from before, and nothing after. -/
def wholeFile (s : Session) (lines : List (LineNumber × Bytes)) (failure : Option String) :
    Reply × Session :=
  (⟨Reading.ofLines s.config none lines, failure⟩, { s with owner := none })

/-- Answers a call. -/
def call (s : Session) : Call → Reply × Session
  | .beginFile | .finishFile => ({}, { s with owner := none })
  | .line number text =>
    let reading := Reading.ofLine s.config s.owner number text
    ({ readings := [reading] }, { s with owner := reading.ownerAfter })
  | .lines lines => s.wholeFile lines none
  | .source text => s.wholeFile (Text.sourceLines text) none
  | .feed feed => s.wholeFile feed.sourceLines feed.failure?

/-- Answers calls one after the other; every reply comes with the session after it. -/
def run (s : Session) : List Call → List (Reply × Session)
  | [] => []
  | c :: rest => s.call c :: (s.call c).2.run rest

end Session

end ElixirTags
