import ElixirTags.Event
import ElixirTags.Failure
import ElixirTags.Language
import ElixirTags.Sweep

/-!
# Finding sources

The inputs of a run are files and directories.  A file counts if its extension is right.  A
directory counts if directories are entered at all; then it is walked, leaving out hidden entries,
the directories in which builds and libraries are kept, and linked directories, which may lead back
up.

What is met on the way is a list of `Finding`s, from which the sources and the events are read off.
A source that is reached by several paths is taken once, by the first of them: `distinct` compares
sources by their `Identity`, the place that the path leads to.
-/

namespace ElixirTags

/-- Something that the search met. -/
inductive Finding where
  | source (path : Path)
  /-- A file that was named and is no source. -/
  | otherFile (path : Path)
  /-- A directory that was named while directories are not entered. -/
  | directory (path : Path)
  | linkedDirectory (path : Path)
deriving DecidableEq, Repr

namespace Finding

/-- The path of a source. -/
def source? : Finding → Option Path
  | source path => some path
  | _ => none

/-- What is said about the finding. -/
def event? : Finding → Option Event
  | source _ => none
  | otherFile path => some (.otherLanguage path)
  | directory path => some (.directorySkipped path)
  | linkedDirectory path => some (.linkedDirectory path)

end Finding

namespace Sources

/-- The directories that are never entered by a walk. -/
def skippedDirectories : List String := ["_build", "deps", "cover", "target", "node_modules"]

/-- The directory of this name is never entered by a walk. -/
def isSkipped (n : Name) : Bool :=
  skippedDirectories.any fun s => Bytes.ofString s == n

/-- The name is that of a hidden entry.  Names that are not UTF-8 are not looked at. -/
def isHidden (n : Name) : Bool :=
  Utf8.Valid n && n.head? == some Byte.dot

section Walk

variable (fs : FileSystem) (language : Language)

/-- A file that a walk met. -/
def candidate (path : Path) : List Finding :=
  if language.matchesPath path then [.source path] else []

mutual

/-- What a walk finds at an entry that is not hidden. -/
def walkEntry (path : Path) (n : Name) : Node → List Finding
  | .directory entries =>
    if fs.isDirectory path then
      if isSkipped n then [] else walkEntries path entries
    else candidate language path
  | .link _ => if fs.isDirectory path then [.linkedDirectory path] else candidate language path
  | .file _ => candidate language path

/-- What a walk finds in a directory, in the order of its entries. -/
def walkEntries (dir : Path) : List (Name × Node) → List Finding
  | [] => []
  | (n, node) :: rest =>
    (if isHidden n then [] else walkEntry (dir.join n) n node) ++ walkEntries dir rest

end

/-- What is found in a directory: first what is to be said about it, then its sources in the order
of paths. -/
def inDirectory (dir : Path) (entries : List (Name × Node)) : List Finding :=
  let found := walkEntries fs language dir entries
  let sources := (found.filterMap Finding.source?).mergeSort fun p q => (p.order q).isLE
  found.filter (·.source?.isNone) ++ sources.map .source

/-- What is found at an input. -/
def atInput (enter : Bool) (input : Path) : Except AccessFailure (List Finding) :=
  match fs.find input with
  | .error fault => .error ⟨input, fault⟩
  | .ok (.directory entries) =>
    .ok (if enter then inDirectory fs language input entries else [.directory input])
  | .ok _ => .ok (if language.matchesPath input then [.source input] else [.otherFile input])

/-- What is found at all inputs, up to the first one that cannot be accessed. -/
def survey (enter : Bool) (inputs : List Path) : Sweep AccessFailure (List Finding) :=
  .along (atInput fs language enter) inputs

end Walk

/-! ## Sources that are the same -/

/-- What makes two paths name the same source. -/
inductive Identity where
  /-- The place that the path leads to. -/
  | place (place : Location)
  /-- The look of a path that leads nowhere, or too far down to name the place. -/
  | path (components : List Path.Component)
deriving DecidableEq, Repr

/-- The identity of the source that a path names. -/
def identity (fs : FileSystem) (path : Path) : Identity :=
  match fs.canonical path with
  | .ok place => .place place
  | .error _ => .path path.components

/-- The paths whose sources have not been seen, each source by its first path. -/
def distinct (fs : FileSystem) (seen : List Identity) : List Path → List Path
  | [] => []
  | path :: rest =>
    if identity fs path ∈ seen then distinct fs seen rest
    else path :: distinct fs (identity fs path :: seen) rest

/-- The sources among findings. -/
def ofFindings (fs : FileSystem) (findings : List Finding) : List Path :=
  distinct fs [] (findings.filterMap Finding.source?)

/-- The sources that the inputs name, or the first input that cannot be accessed. -/
def find (fs : FileSystem) (enter : Bool) (inputs : List Path) :
    Except AccessFailure (List Path) :=
  (survey fs .elixir enter inputs).result.map fun found => ofFindings fs found.flatten

end Sources

end ElixirTags
