import ElixirTags.CommandLine.Parse
import ElixirTags.Program.Generate

/-!
# The program

`Program.run` takes a file system, the arguments of a command line, the log level that the
environment asks for and whether the standard output takes a tag file, and gives everything that can
be seen of the program afterwards.

What else a run may meet is left out.  The arguments are text, the file system is one of
`ElixirTags.FileSystem.Tree` that nobody else changes during the run, and what is written is written
as a whole or not at all.  Texts that are not tag files can always be put out.
-/

namespace ElixirTags.Program

/-- The explanation of the command line. -/
def usage : String :=
  "Usage: " ++ programName ++ " [options] <file|dir>...

Generate a ctags-compatible tag file for Elixir sources.

Options:
  -R, --recurse              Recurse into directories
  -f, -o <file>              Write tags to <file> (default: tags, '-' for stdout)
  -a, --append               Merge into an existing tag file
  --sort=yes|no              Sort tags by name (default: yes)
  --kinds-elixir=<spec>      Enable/disable kinds, e.g. -pl or fm
  --ident=punctuated|dotted  Identifier class (default: punctuated)
  --no-scope                 Do not attach module scope to functions
  --all-names                Also tag functions not starting with a letter
                             (def __struct__, defp _helper)
  --legacy                   Dotted identifiers, no protocol/impl, no scope,
                             all function names
  --list-kinds[=Elixir]      List tag kinds
  --list-maps                List file extensions
  -v, --verbose              Debug logging (or set EXTAGS_LOG)
  -h, --help                 Show this help
  -V, --version              Show version
"

/-- The extensions of the language's files, as patterns. -/
def maps (language : Language) : String :=
  padRight 10 language.name ++ " " ++ " ".intercalate (language.extensions.map ("*." ++ ·)) ++ "\n"

/-- Everything that can be seen of a run. -/
structure Outcome where
  /-- How the program ends: 0 is success, 1 a file that cannot be used, 2 a faulty command line. -/
  exitCode : UInt32 := 0
  output : Bytes := []
  log : String := ""
  /-- What is said about a failure, after the log. -/
  complaint : String := ""
  files : FileSystem

/-- A run that says something and does nothing. -/
def Outcome.telling (fs : FileSystem) (text : String) : Outcome :=
  { output := Bytes.ofString text, files := fs }

/-- The words for a failure, after the name of the program. -/
def complain (message : String) : String := programName ++ ": " ++ message ++ "\n"

/-- Runs the program. -/
def run (fs : FileSystem) (arguments : List String) (logLevel : Option String := none)
    (stdout : StandardOutput := .takes) : Outcome :=
  match Command.ofArguments arguments with
  | .error fault =>
    { exitCode := 2
      complaint := complain fault.message ++
        "Try '" ++ programName ++ " --help' for more information.\n"
      files := fs }
  | .ok .help => .telling fs usage
  | .ok .version => .telling fs (programName ++ " " ++ programVersion ++ "\n")
  | .ok .listMaps => .telling fs (maps .elixir)
  | .ok (.listKinds o) => .telling fs o.scan.kinds.listing
  | .ok (.generate o) =>
    let made := generate fs o stdout
    let log := Event.log (Level.shown o.verbose logLevel) made.events
    match made.result with
    | .ok _ => { output := made.output, log, files := made.files }
    | .error failure =>
      { exitCode := 1, log, complaint := complain failure.message, files := made.files }

end ElixirTags.Program
