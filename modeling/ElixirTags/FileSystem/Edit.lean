import ElixirTags.FileSystem.Resolve

/-!
# Changing a file system

`FileSystem.write` is what a program does to store a file: it needs the directory to be there and
says what is wrong if it cannot write.  The other operations build up a file system from outside, in
the way a shell user would: they make the directories they need, and do nothing where they cannot do
what they are asked for.
-/

namespace ElixirTags.FileSystem

/-- Stores a file.  What is there already is replaced, also behind a link.  It is taken that a file
that can be opened for writing takes all of the content: no write fails half-way. -/
def write (fs : FileSystem) (path : Path) (content : Bytes) : Except AccessFault FileSystem := do
  match ← fs.placeFor path with
  | .new dir n => .ok (fs.setEntry dir n (.file content))
  | .existing place =>
    match place.getLast?, fs.at? place with
    | some n, some (.file _) => .ok (fs.setEntry place.dropLast n (.file content))
    | _, _ => .error .isDirectory

/-! ## Building a file system -/

/-- Segments that end in a name, as what comes before it and the name.  Blanks and dots after the
name do not count. -/
def lastName? (segments : List Path.Segment) : Option (List Path.Segment × Name) :=
  match segments.reverse.dropWhile fun s => s == .blank || s == .here with
  | .name n :: before => some (before.reverse, n)
  | _ => none

/-- The directory that some segments lead to from the start of a path. -/
def directoryAt? (fs : FileSystem) (path : Path) (segments : List Path.Segment) : Option Location :=
  let start := path.startFrom fs.workingDirectory
  (resolve fs.tree anywhere maxLinks start (segments ++ [.blank])).toOption

/-- Adds an entry to a directory, unless there is one of that name. -/
def addEntry (fs : FileSystem) (dir : Location) (n : Name) (node : Node) : FileSystem :=
  if n.length ≤ maxNameLength && (fs.at? (dir ++ [n])).isNone then fs.setEntry dir n node else fs

/-- Makes the directories named by `segments`, where those named by `before` have been made. -/
def makeDirectories (fs : FileSystem) (path : Path) (before : List Path.Segment) :
    List Path.Segment → FileSystem
  | [] => fs
  | .name n :: rest =>
    let made := match fs.directoryAt? path before with
      | some dir => fs.addEntry dir n (.directory [])
      | none => fs
    made.makeDirectories path (before ++ [.name n]) rest
  | segment :: rest => fs.makeDirectories path (before ++ [segment]) rest

/-- Makes a directory and those above it. -/
def createDirectory (fs : FileSystem) (path : Path) : FileSystem :=
  fs.makeDirectories path [] path.segments

/-- Makes the directories above a path. -/
def createParents (fs : FileSystem) (path : Path) : FileSystem :=
  match lastName? path.segments with
  | some (before, _) => fs.makeDirectories path [] before
  | none => fs

/-- Stores a file and makes the directories above it. -/
def createFile (fs : FileSystem) (path : Path) (content : Bytes) : FileSystem :=
  let fs := fs.createParents path
  match fs.write path content with
  | .ok written => written
  | .error _ => fs

/-- Makes a symbolic link and the directories above it. -/
def createLink (fs : FileSystem) (target path : Path) : FileSystem :=
  let fs := fs.createParents path
  match lastName? path.segments with
  | some (before, n) =>
    match fs.directoryAt? path before with
    | some dir => fs.addEntry dir n (.link target)
    | none => fs
  | none => fs

/-- Removes a file, a link or a directory with all that is in it. -/
def remove (fs : FileSystem) (path : Path) : FileSystem :=
  match lastName? path.segments with
  | some (before, n) =>
    match fs.directoryAt? path before with
    | some dir => fs.removeEntry dir n
    | none => fs
  | none => fs

end ElixirTags.FileSystem
