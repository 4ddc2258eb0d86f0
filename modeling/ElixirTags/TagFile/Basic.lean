import ElixirTags.Event
import ElixirTags.TagFile.Entry

/-!
# Tag files

A `TagFile` gathers entries: those of an existing tag file that are kept (`retain`) and those of
scanned files (`add`).  `render` writes the header and then the entries, sorted if the file is to be
sorted.

A file is known in a tag file by its path as shown.  A path with a tab or a line break cannot be
written there, so the tags of such a file are left out.
-/

namespace ElixirTags

/-- The name of the program in what it writes. -/
def programName : String := "extags"

/-- The version of the program. -/
def programVersion : String := "0.1.0"

/-- The tags of one file. -/
structure FileTags where
  path : Path
  /-- The tags, in the order of their lines. -/
  tags : List Tag
deriving DecidableEq, Repr

namespace FileTags

/-- The path as tag files show it. -/
def shownPath (f : FileTags) : Bytes := Utf8.repair f.path

/-- The path can be a field of a line. -/
def isWritable (f : FileTags) : Bool :=
  f.shownPath.all fun b => b != Byte.tab && b != Byte.newline && b != Byte.carriageReturn

/-- The entries of the file: one for each tag, or none if its path cannot be written. -/
def entries (f : FileTags) : List Entry :=
  if f.isWritable then f.tags.map (Entry.ofTag f.shownPath) else []

/-- What is said about a file whose tags are left out. -/
def event? (f : FileTags) : Option Event :=
  if f.isWritable then none else some (.unwritablePath f.path)

end FileTags

/-- A tag file that is being put together. -/
structure TagFile where
  sorted : Bool
  /-- The entries, in the order they came. -/
  entries : List Entry := []
deriving DecidableEq, Repr

namespace TagFile

/-- The number of entries. -/
def size (t : TagFile) : Nat := t.entries.length

/-- The entries of an existing tag file. -/
def existingEntries (text : Bytes) : List Entry :=
  (Text.recordLines text).filterMap Entry.parse?

/-- Keeps the entries of an existing tag file, except those of the files in `replaced`. -/
def retain (t : TagFile) (text : Bytes) (replaced : List Bytes) : TagFile :=
  { t with entries := t.entries ++ (existingEntries text).filter (·.file ∉ replaced) }

/-- Adds the entries of a file. -/
def add (t : TagFile) (f : FileTags) : TagFile :=
  { t with entries := t.entries ++ f.entries }

/-- A way to put entries into a tag file. -/
inductive Edit where
  /-- Keep what is in an existing tag file, except for the given files. -/
  | retain (text : Bytes) (replaced : List Bytes)
  | add (f : FileTags)
deriving DecidableEq, Repr

/-- Applies an edit. -/
def edit (t : TagFile) : Edit → TagFile
  | .retain text replaced => t.retain text replaced
  | .add f => t.add f

/-! ## Writing -/

/-- The lines about the tag file itself. -/
def header (sorted : Bool) : Bytes :=
  Bytes.ofString <|
    "!_TAG_FILE_FORMAT\t2\t/extended format; --format=1 will not append ;\" to lines/\n" ++
    "!_TAG_FILE_SORTED\t" ++ (if sorted then "1" else "0") ++
      "\t/0=unsorted, 1=sorted, 2=foldcase/\n" ++
    "!_TAG_PROGRAM_NAME\t" ++ programName ++ "\t//\n" ++
    "!_TAG_PROGRAM_VERSION\t" ++ programVersion ++ "\t//\n"

/-- The entries in the order they are written.  Entries that are equal in name, file and line stay
in the order they came. -/
def ordered (t : TagFile) : List Entry :=
  if t.sorted then t.entries.mergeSort Entry.le else t.entries

/-- The bytes of the tag file. -/
def render (t : TagFile) : Bytes :=
  header t.sorted ++ t.ordered.flatMap fun e => e.text ++ [Byte.newline]

/-- Sorting loses and adds nothing. -/
theorem ordered_perm (t : TagFile) : t.ordered.Perm t.entries := by
  unfold ordered
  split
  · exact List.mergeSort_perm _ _
  · exact .refl _

end TagFile

end ElixirTags
