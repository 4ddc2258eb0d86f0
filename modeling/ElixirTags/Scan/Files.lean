import ElixirTags.Failure
import ElixirTags.Scan.Reading
import ElixirTags.Sweep
import ElixirTags.TagFile.Basic
import ElixirTags.Text.Feed

/-!
# Scanning files

Files are scanned one after the other, each on its own, until one cannot be read.
-/

namespace ElixirTags

/-- A file and the readings of its lines. -/
structure ScannedFile where
  path : Path
  readings : List Reading
deriving DecidableEq, Repr

namespace ScannedFile

variable (config : Config)

/-- The tags of the file. -/
def fileTags (f : ScannedFile) : FileTags := ⟨f.path, Reading.tags config f.readings⟩

/-- The events of the scan. -/
def events (f : ScannedFile) : List Event :=
  Reading.events config f.readings ++ [.fileScanned f.path (Reading.tags config f.readings).length]

end ScannedFile

/-- Scans the file that a path leads to. -/
def scanFile (fs : FileSystem) (config : Config) (path : Path) :
    Except AccessFailure ScannedFile :=
  match fs.read path with
  | .error fault => .error ⟨path, fault⟩
  | .ok content =>
    let feed : Feed Empty := .ofBytes content
    .ok ⟨path, Reading.ofLines config none feed.sourceLines⟩

/-- Scans files up to the first that cannot be read. -/
def scanFiles (fs : FileSystem) (config : Config) (paths : List Path) :
    Sweep AccessFailure ScannedFile :=
  .along (scanFile fs config) paths

end ElixirTags
