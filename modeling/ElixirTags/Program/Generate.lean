import ElixirTags.CommandLine.Options
import ElixirTags.FileSystem.Edit
import ElixirTags.Scan.Files
import ElixirTags.Sources

/-!
# Making a tag file

The sources that the inputs name are found and scanned, the entries of an existing tag file are kept
if they are to be merged, and the new tag file is stored.  Nothing is written before the last step,
so a run that fails leaves the file system as it was (`Generation.eq_failed_of_generate`).
-/

namespace ElixirTags

/-! ## Scanning the inputs -/

/-- What came of the inputs. -/
structure ScannedInputs where
  /-- The tags of every source, or the first file that cannot be used. -/
  result : Except AccessFailure (List FileTags)
  events : List Event

/-- Finds and scans the sources. -/
def scanInputs (fs : FileSystem) (o : Options) : ScannedInputs :=
  let survey := Sources.survey fs .elixir o.recurse o.inputs
  let met := survey.done.flatten.filterMap Finding.event?
  match survey.result with
  | .error failure => ⟨.error failure, met⟩
  | .ok found =>
    let scan := scanFiles fs o.scan (Sources.ofFindings fs found.flatten)
    { result := scan.result.map (·.map (·.fileTags o.scan))
      events := met ++ scan.done.flatMap (·.events o.scan) }

/-! ## Putting the tag file together -/

/-- The text of the tag file that is to be merged with the new entries.  There may be none yet. -/
def existingText (fs : FileSystem) (o : Options) : Except AccessFailure (Option Bytes) :=
  match o.append, o.target with
  | true, .file path =>
    match fs.readText path with
    | .ok text => .ok (some text)
    | .error .notFound => .ok none
    | .error fault => .error ⟨path, fault⟩
  | _, _ => .ok none

/-- The tag file of some scanned files.  Of an existing one, the entries of other files are kept and
come first. -/
def TagFile.ofFiles (sorted : Bool) (existing : Option Bytes) (files : List FileTags) : TagFile :=
  let start : TagFile := { sorted }
  let kept := match existing with
    | some text => start.retain text (files.map FileTags.shownPath)
    | none => start
  files.foldl add kept

/-- What the standard output does with a tag file. -/
inductive StandardOutput where
  /-- It takes all of it. -/
  | takes
  /-- It takes nothing. -/
  | refuses (fault : AccessFault)
deriving DecidableEq, Repr

/-- What is said in the place of a path if the standard output refuses a tag file. -/
def StandardOutput.name : Path := Bytes.ofString "<stdout>"

/-- Stores the tag file.  Gives the file system after that and what goes to the standard output. -/
def store (fs : FileSystem) (stdout : StandardOutput) (target : Target) (content : Bytes) :
    Except AccessFailure (FileSystem × Bytes) :=
  match target with
  | .standardOutput =>
    match stdout with
    | .takes => .ok (fs, content)
    | .refuses fault => .error ⟨StandardOutput.name, fault⟩
  | .file path =>
    match fs.write path content with
    | .ok after => .ok (after, [])
    | .error fault => .error ⟨path, fault⟩

/-! ## The run -/

/-- The counts of a run. -/
structure Summary where
  files : Nat
  /-- The number of tags written for them. -/
  tags : Nat
deriving DecidableEq, Repr

/-- What came of a run. -/
structure Generation where
  /-- The counts, or the file that cannot be used. -/
  result : Except AccessFailure Summary
  files : FileSystem
  output : Bytes := []
  events : List Event

/-- A run that failed. -/
def Generation.failed (fs : FileSystem) (failure : AccessFailure) (events : List Event) :
    Generation :=
  { result := .error failure, files := fs, events }

/-- Puts the tag file together and stores it; `events` is what happened before. -/
def writeTagFile (fs : FileSystem) (o : Options) (stdout : StandardOutput) (files : List FileTags)
    (events : List Event) : Generation :=
  match existingText fs o with
  | .error failure => .failed fs failure events
  | .ok existing =>
    let events := events ++ files.filterMap FileTags.event?
    match store fs stdout o.target (TagFile.ofFiles o.sort existing files).render with
    | .error failure => .failed fs failure events
    | .ok (after, output) =>
      let summary : Summary := ⟨files.length, (files.flatMap (·.entries)).length⟩
      { result := .ok summary
        files := after
        output
        events := events ++ [.written summary.files summary.tags] }

/-- Makes a tag file. -/
def generate (fs : FileSystem) (o : Options) (stdout : StandardOutput := .takes) : Generation :=
  let scanned := scanInputs fs o
  match scanned.result with
  | .error failure => .failed fs failure scanned.events
  | .ok files => writeTagFile fs o stdout files scanned.events

namespace Generation

variable {fs : FileSystem} {o : Options} {stdout : StandardOutput} {files : List FileTags}
  {events : List Event} {failure : AccessFailure}

theorem eq_failed_of_writeTagFile
    (h : (writeTagFile fs o stdout files events).result = .error failure) :
    ∃ es, writeTagFile fs o stdout files events = failed fs failure es := by
  unfold writeTagFile at h ⊢
  cases he : existingText fs o with
  | error f =>
    simp only [he] at h ⊢
    cases h
    exact ⟨_, rfl⟩
  | ok existing =>
    simp only [he] at h ⊢
    cases hs : store fs stdout o.target (TagFile.ofFiles o.sort existing files).render with
    | error f =>
      simp only [hs] at h ⊢
      cases h
      exact ⟨_, rfl⟩
    | ok stored =>
      simp only [hs] at h
      cases h

/-- A run that fails changes no file and puts nothing out. -/
theorem eq_failed_of_generate (h : (generate fs o stdout).result = .error failure) :
    ∃ es, generate fs o stdout = failed fs failure es := by
  unfold generate at h ⊢
  cases hs : (scanInputs fs o).result with
  | error f =>
    simp only [hs] at h ⊢
    cases h
    exact ⟨_, rfl⟩
  | ok files =>
    simp only [hs] at h ⊢
    exact eq_failed_of_writeTagFile h

end Generation

end ElixirTags
