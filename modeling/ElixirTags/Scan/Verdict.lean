import ElixirTags.Config
import ElixirTags.Cursor
import ElixirTags.Event

/-!
# What one line says

A line is read on its own: blanks, a word, blanks, a name.  If the word is a directive the line
defines the name; nothing after the name matters.  `Verdict.ofLine` holds all that a line says, and
what follows from it in its place in a file is read off the verdict: the tag (`tag?`), the module
that owns the functions after it (`ownerAfter`), and the event (`event?`).
-/

namespace ElixirTags

/-- What a line says, wherever it stands. -/
inductive Verdict where
  /-- The first byte that is not blank begins no directive. -/
  | ignored
  /-- The line begins with a word that is no directive. -/
  | unknownWord (word : Bytes)
  /-- The line defines a function whose name does not begin with a letter, as it would have to. -/
  | refusedName (directive : Directive) (name : Bytes)
  /-- The line has a directive and the given name after it, which may be empty. -/
  | defines (directive : Directive) (name : Bytes)
deriving DecidableEq, Repr

namespace Verdict

/-- The name begins with a letter. -/
def startsWithLetter (name : Bytes) : Bool := name.head?.any Byte.isLetter

/-- The verdict on a line. -/
def ofLine (config : Config) (line : Bytes) : Verdict :=
  let start := (Cursor.ofLine line).skipBlanks
  if start.current = Directive.lead then
    let (word, afterWord) := start.identifier config.identClass
    match config.directive? word with
    | none => .unknownWord word
    | some directive =>
      let (name, _) := afterWord.skipBlanks.identifier config.identClass
      if directive.isFunction && config.lettersOnly && !startsWithLetter name then
        .refusedName directive name
      else .defines directive name
  else .ignored

/-- The tag of a line with the given number, where `owner` is the module that the lines before it
have begun. -/
def tag? (config : Config) (owner : Option Bytes) (line : LineNumber) : Verdict → Option Tag
  | defines directive name =>
    if name ≠ [] ∧ directive.kind ∈ config.kinds then
      some { name, kind := directive.kind, line,
             owner := if directive.isFunction && config.scopes then owner else none }
    else none
  | _ => none

/-- The owner of the functions after the line. -/
def ownerAfter (owner : Option Bytes) : Verdict → Option Bytes
  | defines directive name => if directive.beginsModule && name ≠ [] then some name else owner
  | _ => owner

/-- The event of the line. -/
def event? (config : Config) (owner : Option Bytes) (line : LineNumber) (v : Verdict) :
    Option Event :=
  match v with
  | ignored => none
  | unknownWord word => some (.unknownWord line word)
  | refusedName directive name => some (.refusedName line directive name)
  | defines .. => (v.tag? config owner line).map .tagFound

end Verdict

end ElixirTags
