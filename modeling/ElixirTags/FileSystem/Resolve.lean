import ElixirTags.FileSystem.Tree
import ElixirTags.Text.Utf8

/-!
# Where a path leads

A path is walked segment by segment from the root or the working directory.  `walk` goes until the
path ends or something comes in between: a name that is not there, a link, or a fault.  Links are
followed by walking their target in their place, forty at most for one path (`resolve`).

`FileSystem.locate` is the whole look-up with the checks on the path itself.  A path that leads
nowhere but may be created is found by `FileSystem.placeFor`: then the last name need not be there.

A short path may lead far down by way of links, to a place whose own path is too long to be used.
A walk can be kept from such places: `FileSystem.canonical` finds the place of a path only if all
places on the way can be named.  The other way round it takes paths that are too long for any other
use, such as one that goes down and up again often enough.
-/

namespace ElixirTags

/-- Why a path, or the standard output, cannot be used. -/
inductive AccessFault where
  | notFound
  /-- A directory is needed where there is none. -/
  | notDirectory
  /-- A directory stands where a file is needed. -/
  | isDirectory
  | nameTooLong
  | tooManyLinks
  | zeroByte
  /-- The file is needed as text and is not UTF-8. -/
  | notUtf8
  /-- There is no room for what is put out. -/
  | noSpace
  /-- Nobody reads what is put out. -/
  | brokenPipe
  /-- A device fails. -/
  | deviceError
deriving DecidableEq, Repr

namespace AccessFault

/-- The words of the operating system for the fault. -/
def message : AccessFault → String
  | notFound => "No such file or directory (os error 2)"
  | notDirectory => "Not a directory (os error 20)"
  | isDirectory => "Is a directory (os error 21)"
  | nameTooLong => "File name too long (os error 36)"
  | tooManyLinks => "Too many levels of symbolic links (os error 40)"
  | zeroByte => "file name contained an unexpected NUL byte"
  | notUtf8 => "stream did not contain valid UTF-8"
  | noSpace => "No space left on device (os error 28)"
  | brokenPipe => "Broken pipe (os error 32)"
  | deviceError => "Input/output error (os error 5)"

end AccessFault

/-! ## Walking -/

/-- Where a walk stops. -/
inductive Stop where
  | arrived (place : Location)
  /-- At a name that is not in its directory, with the rest of the path. -/
  | missing (dir : Location) (n : Name) (rest : List Path.Segment)
  /-- At a link, with its directory, its target and the rest of the path. -/
  | link (dir : Location) (target : Path) (rest : List Path.Segment)
  | fault (fault : AccessFault)
deriving DecidableEq, Repr

/-- The greatest length of a name. -/
def maxNameLength : Nat := 255

/-- The length from which on a path is too long. -/
def pathLengthLimit : Nat := 4096

/-- The number of links that may be followed for one path. -/
def maxLinks : Nat := 40

/-- Walks from a place until the path ends or a link or a fault comes in between.  Every segment
needs a directory to start from, and the entries that it names have to be at places in `range`. -/
def walk (tree : Node) (range : Location → Bool) : Location → List Path.Segment → Stop
  | place, [] => .arrived place
  | place, segment :: rest =>
    match (tree.at? place).bind Node.entries? with
    | none => .fault .notDirectory
    | some entries =>
      match segment with
      | .blank | .here => walk tree range place rest
      | .up => walk tree range place.dropLast rest
      | .name n =>
        if maxNameLength < n.length then .fault .nameTooLong
        else match entries.lookup n with
          | none => .missing place n rest
          | some node =>
            if !range (place ++ [n]) then .fault .nameTooLong
            else match node with
              | .link target => .link place target rest
              | _ => walk tree range (place ++ [n]) rest

/-- The range of a walk that may go anywhere. -/
def anywhere : Location → Bool := fun _ => true

/-- The places whose paths are short enough to be used. -/
def nameable (place : Location) : Bool := place.toPath.length < pathLengthLimit

/-- Where the walk of a path starts, if relative paths start from `dir`. -/
def Path.startFrom (dir : Location) (path : Path) : Location :=
  if path.isAbsolute then [] else dir

/-- The place at the end of a walk, with at most `links` links on the way. -/
def resolve (tree : Node) (range : Location → Bool) (links : Nat) (place : Location)
    (segments : List Path.Segment) : Except AccessFault Location :=
  match walk tree range place segments with
  | .arrived place => .ok place
  | .missing .. => .error .notFound
  | .fault f => .error f
  | .link dir target rest =>
    match links with
    | 0 => .error .tooManyLinks
    | links + 1 => resolve tree range links (target.startFrom dir) (target.segments ++ rest)

/-! ## Places for new files -/

/-- Where a file is to be written. -/
inductive FilePlace where
  | existing (place : Location)
  | new (dir : Location) (n : Name)
deriving DecidableEq, Repr

/-- The path without its last name, if it ends in a name and a slash and so asks for a directory. -/
def Path.beforeSlashedName? (segments : List Path.Segment) : Option (List Path.Segment) :=
  match segments.reverse with
  | .blank :: rest =>
    match rest.dropWhile (· == .blank) with
    | .name _ :: before => some before.reverse
    | _ => none
  | _ => none

/-- The place for a file at the end of a walk.  A last name that is not there is a place for a new
file, also behind a link; a last name with a slash after it is not, whether it is there or not. -/
def resolveFilePlace (tree : Node) (links : Nat) (place : Location)
    (segments : List Path.Segment) : Except AccessFault FilePlace :=
  match Path.beforeSlashedName? segments with
  | some before =>
    (resolve tree anywhere links place (before ++ [.blank])).bind fun _ => .error .isDirectory
  | none =>
    match walk tree anywhere place segments with
    | .arrived place => .ok (.existing place)
    | .missing dir n [] => .ok (.new dir n)
    | .missing .. => .error .notFound
    | .fault f => .error f
    | .link dir target rest =>
      match links with
      | 0 => .error .tooManyLinks
      | links + 1 => resolveFilePlace tree links (target.startFrom dir) (target.segments ++ rest)

namespace FileSystem

/-- Refuses paths that nothing can be named by. -/
def checkBytes (path : Path) : Except AccessFault Unit :=
  if 0 ∈ path then .error .zeroByte
  else if path = [] then .error .notFound
  else .ok ()

/-- Refuses paths that cannot be walked at all. -/
def checkPath (path : Path) : Except AccessFault Unit := do
  checkBytes path
  if pathLengthLimit ≤ path.length then .error .nameTooLong else .ok ()

/-- The place that a path leads to. -/
def locate (fs : FileSystem) (path : Path) : Except AccessFault Location := do
  checkPath path
  resolve fs.tree anywhere maxLinks (path.startFrom fs.workingDirectory) path.segments

/-- The place that a path leads to, if all places on the way can be named.  The places are looked
up one by one, each by a path of its own, so the path itself may be of any length. -/
def canonical (fs : FileSystem) (path : Path) : Except AccessFault Location := do
  checkBytes path
  resolve fs.tree nameable maxLinks (path.startFrom fs.workingDirectory) path.segments

/-- The node that a path leads to. -/
def find (fs : FileSystem) (path : Path) : Except AccessFault Node := do
  let place ← fs.locate path
  match fs.at? place with
  | some node => .ok node
  | none => .error .notFound

/-- The path leads to a directory. -/
def isDirectory (fs : FileSystem) (path : Path) : Bool :=
  match fs.find path with
  | .ok (.directory _) => true
  | _ => false

/-- The bytes of the file that a path leads to. -/
def read (fs : FileSystem) (path : Path) : Except AccessFault Bytes := do
  match ← fs.find path with
  | .file content => .ok content
  | .directory _ => .error .isDirectory
  | .link _ => .error .notFound

/-- The text of the file that a path leads to, which has to be UTF-8. -/
def readText (fs : FileSystem) (path : Path) : Except AccessFault Bytes := do
  let content ← fs.read path
  if Utf8.Valid content then .ok content else .error .notUtf8

/-- The place where a file with the given path is written. -/
def placeFor (fs : FileSystem) (path : Path) : Except AccessFault FilePlace := do
  checkPath path
  resolveFilePlace fs.tree maxLinks (path.startFrom fs.workingDirectory) path.segments

end FileSystem

end ElixirTags
