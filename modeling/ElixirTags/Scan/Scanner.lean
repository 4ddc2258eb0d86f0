import ElixirTags.Scan.Session

/-!
# Scanning with buffers

A `Scanner` answers the calls of a session with three buffers that are used again from line to line:
the owner, the word that a line begins with, and the name after the word.  A line is left as soon as
it is known to define nothing, so the buffers may hold what earlier lines have left in them.  A feed
is scanned while it comes, and the lines before a failure are scanned before the failure is known.

Only `reset` empties the buffers, before and after every file.  What can be seen of an answer
(`Scanner.seen`) is what a session answers, which keeps the owner and nothing else.
-/

namespace ElixirTags

/-- A scan in progress, with its buffers. -/
structure Scanner where
  config : Config
  /-- The name of the module that was begun last, or nothing if there is none. -/
  owner : Bytes := []
  /-- The word that a line begins with. -/
  word : Bytes := []
  /-- The name after the word. -/
  name : Bytes := []
deriving DecidableEq, Repr

/-- The tag that was found. -/
def Event.tag? : Event → Option Tag
  | tagFound tag => some tag
  | _ => none

namespace Scanner

/-- Empties the buffers. -/
def reset (s : Scanner) : Scanner := { s with owner := [], word := [], name := [] }

/-- The module that the lines so far have begun. -/
def owner? (s : Scanner) : Option Bytes := if s.owner = [] then none else some s.owner

/-! ## One line -/

/-- The tag for the name in its buffer, unless there is no name or its kind is not wanted. -/
def find (s : Scanner) (directive : Directive) (owner : Option Bytes) (number : LineNumber) :
    Option Event :=
  if s.name = [] ∨ directive.kind ∉ s.config.kinds then none
  else some <| .tagFound
    { name := s.name, kind := directive.kind, line := number, owner := owner.filter (· ≠ []) }

/-- Begins the module whose name is in its buffer, if the directive begins one and there is a
name. -/
def begin (s : Scanner) (directive : Directive) : Scanner :=
  if directive.beginsModule ∧ s.name ≠ [] then { s with owner := s.name } else s

/-- Does what a directive with the name in its buffer asks for. -/
def define (s : Scanner) (directive : Directive) (number : LineNumber) : Option Event × Scanner :=
  if directive.isFunction then
    if s.config.lettersOnly ∧ ¬ Verdict.startsWithLetter s.name then
      (some (.refusedName number directive s.name), s)
    else
      let owner := if s.config.scopes then s.owner? else none
      (s.find directive owner number, s.begin directive)
  else (s.find directive none number, s.begin directive)

/-- Scans a line. -/
def scanLine (s : Scanner) (number : LineNumber) (line : Bytes) : Option Event × Scanner :=
  let start := (Cursor.ofLine line).skipBlanks
  if start.current ≠ Directive.lead then (none, s)
  else
    let (word, afterWord) := start.identifier s.config.identClass
    let s := { s with word }
    match s.config.directive? s.word with
    | none => (some (.unknownWord number s.word), s)
    | some directive =>
      let (name, _) := afterWord.skipBlanks.identifier s.config.identClass
      let s := { s with name }
      s.define directive number

/-! ## Whole files -/

/-- Scans numbered lines. -/
def scanLines (s : Scanner) : List (LineNumber × Bytes) → List Event × Scanner
  | [] => ([], s)
  | (number, line) :: rest =>
    let (event?, s) := s.scanLine number line
    let (events, s) := s.scanLines rest
    (event?.toList ++ events, s)

/-- The line in a record of a feed. -/
def lineOfRecord (number : LineNumber) (record : Bytes) : Bytes :=
  let line := Text.dropReturn record
  Utf8.repair (if number = 1 then Text.dropMark line else line)

/-- Scans records of a feed, where `last` is the number of the line before.  Gives the number of the
last line besides. -/
def scanRecords (s : Scanner) (last : LineNumber) : List Bytes → List Event × LineNumber × Scanner
  | [] => ([], last, s)
  | record :: rest =>
    let (event?, s) := s.scanLine last.next (lineOfRecord last.next record)
    let (events, last, s) := s.scanRecords last.next rest
    (event?.toList ++ events, last, s)

/-- What a call brings. -/
structure Reply where
  events : List Event := []
  /-- Why the file could not be read to its end. -/
  failure : Option String := none
deriving DecidableEq, Repr

/-- Scans a feed while it comes, where `held` is the part of the next record that has come
already. -/
def scanFeed (s : Scanner) (last : LineNumber) (held : Bytes) : Feed String → Reply × Scanner
  | .done =>
    let (events, _, s) := s.scanRecords last (if held = [] then [] else [held])
    ({ events }, s)
  | .failed failure => ({ failure := some failure }, s)
  | .piece bytes rest =>
    let (events, last, s) := s.scanRecords last (Text.endedLines (held ++ bytes))
    let (reply, s) := s.scanFeed last (Text.unended (held ++ bytes)) rest
    ({ reply with events := events ++ reply.events }, s)

/-! ## Calls -/

/-- Answers a call. -/
def call (s : Scanner) : Session.Call → Reply × Scanner
  | .beginFile | .finishFile => ({}, s.reset)
  | .line number text =>
    let (event?, s) := s.scanLine number text
    ({ events := event?.toList }, s)
  | .lines lines =>
    let (events, s) := s.reset.scanLines lines
    ({ events }, s.reset)
  | .source text =>
    let (events, s) := s.reset.scanLines (Text.sourceLines text)
    ({ events }, s.reset)
  | .feed feed =>
    let (reply, s) := s.reset.scanFeed 0 [] feed
    (reply, s.reset)

/-- Answers calls one after the other; every reply comes with the scanner after it. -/
def run (s : Scanner) : List Session.Call → List (Reply × Scanner)
  | [] => []
  | c :: rest => s.call c :: (s.call c).2.run rest

end Scanner

/-! ## What can be seen -/

/-- What can be seen of the answer to a call. -/
structure Session.Seen where
  tags : List Tag
  events : List Event
  failure : Option String
  /-- The owner after the call. -/
  owner : Option Bytes
deriving DecidableEq, Repr

/-- What can be seen of an answer of a session. -/
def Session.seen (answer : Session.Reply × Session) : Session.Seen where
  tags := Reading.tags answer.2.config answer.1.readings
  events := Reading.events answer.2.config answer.1.readings
  failure := answer.1.failure
  owner := answer.2.owner

/-- What can be seen of an answer of a scanner. -/
def Scanner.seen (answer : Scanner.Reply × Scanner) : Session.Seen where
  tags := answer.1.events.filterMap Event.tag?
  events := answer.1.events
  failure := answer.1.failure
  owner := answer.2.owner?

end ElixirTags
