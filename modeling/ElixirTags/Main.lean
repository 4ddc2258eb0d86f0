import ElixirTags.Program.Run

/-!
# The command line

`Program.run` works on a file system in memory.  Here the part of the real one that a command line
names is loaded into memory, the program is run on it, and what it has to say and to store goes out.

A link is loaded as a link to the place it leads to in the end, and that place is loaded with it, so
that paths lead to the same places in memory as outside.
-/

namespace ElixirTags.Loading

/-- Loading adds to a file system in memory. -/
abbrev LoadM := StateT FileSystem IO

/-- The result of an action, or `default` if it fails. -/
def attempt {α : Type} (action : IO α) (default : α) : LoadM α := do
  try action catch _ => return default

/-- The path of something that does not exist, for links that lead nowhere. -/
def nowhere : String := "/no such place"

/-- Every start of a path that ends before a slash or at its end. -/
def starts (path : String) : List String :=
  let names := (path.splitOn "/").filter (· ≠ "")
  (List.range names.length).map fun n => "/" ++ "/".intercalate (names.take (n + 1))

mutual

/-- Loads what stands at a path, without the entries of a directory. -/
partial def loadEntry (path : String) : LoadM Unit := do
  let bytes := Bytes.ofString path
  let root ← IO.FS.realPath "/"
  let some info ← attempt (some <$> (root / path).symlinkMetadata) none | return
  match info.type with
  | .dir => modify (·.createDirectory bytes)
  | .symlink =>
    let place ← attempt (toString <$> IO.FS.realPath path) nowhere
    let known := ((← get).locate bytes).isOk
    modify (·.createLink (Bytes.ofString place) bytes)
    unless known do loadPath place
  | _ =>
    let content ← attempt (IO.FS.readBinFile path) .empty
    modify (·.createFile bytes content.toList)

/-- Loads what stands on the way to a path and at its end. -/
partial def loadPath (path : String) : LoadM Unit :=
  (starts path).forM loadEntry

end

/-- Loads the sources and links below a directory. -/
partial def loadBelow (dir : String) : LoadM Unit := do
  let root ← IO.FS.realPath "/"
  for entry in ← attempt (root / dir).readDir #[] do
    let path := entry.path.toString
    let info ← entry.path.symlinkMetadata
    match info.type with
    | .dir =>
      loadEntry path
      loadBelow path
    | .symlink => loadEntry path
    | _ => if Language.elixir.matchesPath (Bytes.ofString path) then loadEntry path

/-- The part of the file system that a command needs. -/
def forOptions (workingDirectory : String) (o : Options) : LoadM Unit := do
  let absolute (path : Path) : String :=
    if path.isAbsolute then Utf8.text path else workingDirectory ++ "/" ++ Utf8.text path
  loadPath workingDirectory
  for input in o.inputs do
    loadPath (absolute input)
    if o.recurse then
      if let .ok place ← (return (← get).locate input) then
        loadBelow (Utf8.text place.toPath)
  if let .file path := o.target then loadPath (absolute path)

end ElixirTags.Loading

namespace ElixirTags

/-- Stores the tag file if the run has changed it. -/
def storeChanges (before after : FileSystem) (path : Path) : IO Unit := do
  if let .ok content := after.read path then
    if (before.read path).toOption ≠ some content then
      IO.FS.writeBinFile (Utf8.text path) ⟨content.toArray⟩

/-- Why something cannot be put out. -/
def outputFault : IO.Error → AccessFault
  | .resourceExhausted .. => .noSpace
  | .resourceVanished .. => .brokenPipe
  | _ => .deviceError

/-- Puts out some bytes, if the standard output takes them. -/
def putOut (bytes : Bytes) : IO StandardOutput := do
  let stdout ← IO.getStdout
  try
    stdout.write ⟨bytes.toArray⟩
    stdout.flush
    return .takes
  catch e => return .refuses (outputFault e)

end ElixirTags

open ElixirTags in
/-- Runs the program on the real file system. -/
def main (arguments : List String) : IO UInt32 := do
  let here := (← IO.FS.realPath (← IO.currentDir)).toString
  let start := FileSystem.empty (((here.splitOn "/").filter (· ≠ "")).map Bytes.ofString)
  let options := match Command.ofArguments arguments with
    | .ok (.generate o) => some o
    | _ => none
  let files ← match options with
    | some o => (·.2) <$> (Loading.forOptions here o).run start
    | none => pure start
  let logLevel ← IO.getEnv "EXTAGS_LOG"
  let run (stdout : StandardOutput) := Program.run files arguments logLevel stdout
  -- what becomes of the output is known only once it has been put out
  let outcome := run (← putOut (run .takes).output)
  IO.eprint outcome.log
  if let some (.file path) := options.map Options.target then
    storeChanges files outcome.files path
  IO.eprint outcome.complaint
  return outcome.exitCode
