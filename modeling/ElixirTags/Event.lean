import ElixirTags.Directive
import ElixirTags.FileSystem.Path
import ElixirTags.Tag
import ElixirTags.Text.Quoted
import ElixirTags.Text.Utf8

/-!
# Events

What a run has to say besides its result.  Every event has a level and fixed words; what varies is
in its fields.
-/

namespace ElixirTags

/-- How much an event matters. -/
inductive Level where
  /-- A step of the work. -/
  | trace
  /-- A decision that explains the result. -/
  | debug
  /-- Something that was left out although it was asked for. -/
  | warn
deriving DecidableEq, Repr

/-- The levels that are shown.  The environment may name the least of them; otherwise being verbose
shows the decisions as well. -/
def Level.shown (verbose : Bool) : Option String → List Level
  | some "off" | some "error" => []
  | some "warn" | some "info" => [.warn]
  | some "debug" => [.warn, .debug]
  | some "trace" => [.warn, .debug, .trace]
  | _ => if verbose then [.warn, .debug] else [.warn]

/-- Something that happened during a run. -/
inductive Event where
  /-- A line begins with a word that is no directive. -/
  | unknownWord (line : LineNumber) (word : Bytes)
  /-- A function's name does not begin with a letter. -/
  | refusedName (line : LineNumber) (directive : Directive) (name : Bytes)
  | tagFound (tag : Tag)
  /-- A directory was named and directories are not entered. -/
  | directorySkipped (path : Path)
  /-- A file of another language was named. -/
  | otherLanguage (path : Path)
  /-- A walk met a link to a directory. -/
  | linkedDirectory (path : Path)
  | fileScanned (path : Path) (tags : Nat)
  /-- The path of a file cannot stand in a tag line. -/
  | unwritablePath (path : Path)
  | written (files tags : Nat)
deriving DecidableEq, Repr

namespace Event

/-- The level of the event. -/
def level : Event → Level
  | unknownWord .. | refusedName .. | tagFound .. => .trace
  | otherLanguage .. | linkedDirectory .. | fileScanned .. | written .. => .debug
  | directorySkipped .. | unwritablePath .. => .warn

/-- The words of the event. -/
def message : Event → String
  | unknownWord .. => "not a directive"
  | refusedName .. => "function name does not start with a letter"
  | tagFound .. => "tag"
  | directorySkipped .. => "skipping directory (use -R to recurse)"
  | otherLanguage .. => "not an Elixir source, skipping"
  | linkedDirectory .. => "not following directory symlink"
  | fileScanned .. => "scanned"
  | unwritablePath .. => "path contains a tab or line break, skipping its tags"
  | written .. => "tag file written"

/-- The path that the event is about, as it is shown.  A path that would break the line is
quoted. -/
def shownPath? : Event → Option String
  | directorySkipped p | otherLanguage p | linkedDirectory p | fileScanned p _ => some (Utf8.text p)
  | unwritablePath p => some (Text.quoted (Utf8.text p))
  | unknownWord .. | refusedName .. | tagFound .. | written .. => none

/-- The event as a line of a log. -/
def logLine (e : Event) : String :=
  e.message ++ (e.shownPath?.map (": " ++ ·)).getD "" ++ "\n"

/-- The log of events, as far as their levels are shown. -/
def log (shown : List Level) (events : List Event) : String :=
  String.join ((events.filter (·.level ∈ shown)).map logLine)

end Event

end ElixirTags
