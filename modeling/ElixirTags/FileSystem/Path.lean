import ElixirTags.Text.Bytes

/-!
# Paths

A path is text until a file system reads it.  Two readings are defined here.  As a row of
`Path.Component`s it says what it looks like: blank and `.` pieces do not count, and paths are
sorted and compared by what is left.  As a row of `Path.Segment`s it says how to walk, and there
every piece counts, because even a blank one asks for a directory before it.
-/

namespace ElixirTags

/-- The name of an entry in a directory. -/
abbrev Name := Bytes

/-- A path as it is written. -/
abbrev Path := Bytes

namespace Path

/-- The pieces between slashes. -/
def pieces (path : Path) : List Bytes := path.splitOn Byte.slash

/-- The piece `.`, for the directory itself. -/
def hereName : Name := [Byte.dot]

/-- The piece `..`, for the directory above. -/
def upName : Name := [Byte.dot, Byte.dot]

/-- The path starts at the root. -/
def isAbsolute (path : Path) : Bool := path.head? == some Byte.slash

/-- The path of an entry of a directory. -/
def join (dir : Path) (name : Name) : Path :=
  if dir = [] || dir.getLast? = some Byte.slash then dir ++ name else dir ++ Byte.slash :: name

/-! ## What a path looks like -/

/-- A part of a path. -/
inductive Component where
  /-- The slash that starts an absolute path. -/
  | root
  /-- The dot that starts a relative path. -/
  | here
  | up
  | name (n : Name)
deriving DecidableEq, Repr

namespace Component

/-- The place of each sort of component in the order: names come last. -/
def rank : Component → Nat
  | root => 0
  | here => 1
  | up => 2
  | name _ => 3

/-- The name of the component, if it has one. -/
def bytes : Component → Bytes
  | name n => n
  | _ => []

/-- Components are ordered by their sort, names among themselves by bytes. -/
instance : Ord Component where
  compare := compareLex (compareOn rank) (compareOn bytes)

instance : Std.TransOrd Component :=
  inferInstanceAs (Std.TransCmp (compareLex (compareOn rank) (compareOn bytes)))

instance : Std.LawfulEqOrd Component where
  eq_of_compare {a b} h := by
    have h' : (compareLex (compareOn rank) (compareOn bytes) a b) = .eq := h
    simp only [compareLex, compareOn, Ordering.then_eq_eq, Std.compare_eq_iff_eq] at h'
    cases a <;> cases b <;> simp_all [rank, bytes]

end Component

/-- The component of a piece that is not the first. -/
def Component.ofPiece? (piece : Bytes) : Option Component :=
  if piece = [] || piece = hereName then none
  else if piece = upName then some .up
  else some (.name piece)

/-- What a path starts with, besides names. -/
def origin (path : Path) : List Component :=
  if path.isAbsolute then [.root]
  else if path.pieces.head? = some hereName then [.here]
  else []

/-- The components of a path. -/
def components (path : Path) : List Component :=
  origin path ++ path.pieces.filterMap Component.ofPiece?

/-- The order of paths in listings. -/
def order (p q : Path) : Ordering := compare p.components q.components

/-- The name that the path ends in.  There is none if it ends in `..` or has no names. -/
def fileName? (path : Path) : Option Name :=
  match path.components.getLast? with
  | some (.name n) => some n
  | _ => none

/-- What follows the last dot of a name, unless that dot is the first byte. -/
def nameExtension? (name : Name) : Option Bytes :=
  match name.reverse.dropWhile (· != Byte.dot) with
  | _ :: _ :: _ => some (name.reverse.takeWhile (· != Byte.dot)).reverse
  | _ => none

/-- The extension of the file that the path names. -/
def extension? (path : Path) : Option Bytes := path.fileName?.bind nameExtension?

/-! ## How to walk a path -/

/-- One step of a walk. -/
inductive Segment where
  /-- Nothing between two slashes or after the last: stay, in a directory. -/
  | blank
  /-- A dot: stay, in a directory. -/
  | here
  /-- Two dots: go up. -/
  | up
  /-- Go to an entry. -/
  | name (n : Name)
deriving DecidableEq, Repr

/-- The step that a piece asks for. -/
def Segment.ofPiece (piece : Bytes) : Segment :=
  if piece = [] then .blank
  else if piece = hereName then .here
  else if piece = upName then .up
  else .name piece

/-- The steps of a path, from where it starts. -/
def segments (path : Path) : List Segment := path.pieces.map Segment.ofPiece

end Path

end ElixirTags
