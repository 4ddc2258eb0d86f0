import ElixirTags.Config
import ElixirTags.FileSystem.Path

/-!
# Options and commands

What a command line asks for, once it has been understood.
-/

namespace ElixirTags

/-- Where the tag file goes. -/
inductive Target where
  | file (path : Path)
  | standardOutput
deriving DecidableEq, Repr

/-- The target that an argument names: a dash is the standard output. -/
def Target.ofArgument (argument : String) : Target :=
  if argument = "-" then .standardOutput else .file (Bytes.ofString argument)

/-- How tags are to be made. -/
structure Options where
  inputs : List Path := []
  target : Target := .file (Bytes.ofString "tags")
  recurse : Bool := false
  sort : Bool := true
  /-- An existing tag file is merged with the new entries. -/
  append : Bool := false
  verbose : Bool := false
  scan : Config := .standard
deriving DecidableEq, Repr

/-- What the program is to do. -/
inductive Command where
  | generate (options : Options)
  /-- List the kinds and say which are on. -/
  | listKinds (options : Options)
  /-- List the extensions of source files. -/
  | listMaps
  | help
  | version
deriving DecidableEq, Repr

end ElixirTags
