import ElixirTags.CommandLine.Options
import ElixirTags.Failure
import ElixirTags.Language

/-!
# Arguments one by one

Every argument is a `Switch`, or a fault, by itself.  Only the options that take the next argument
as their value reach further, and then that argument is nothing else, whatever it looks like
(`Switch.ofArguments`).
-/

namespace ElixirTags

/-- What one argument asks for. -/
inductive Switch where
  | help
  | version
  | listKinds
  /-- List the extensions of source files. -/
  | listMaps
  | recurse
  /-- Merge with the existing tag file. -/
  | append
  | verbose
  /-- Do not attribute functions to modules. -/
  | unscoped
  /-- Report functions whatever their names begin with. -/
  | allNames
  /-- Read the language the older way. -/
  | legacy
  /-- Write the tag file somewhere else. -/
  | target (target : Target)
  | sort (on : Bool)
  /-- Take another class of identifiers. -/
  | identClass (cls : IdentClass)
  | kinds (spec : KindSpec)
  /-- Look at a file or directory. -/
  | input (path : Path)
deriving DecidableEq, Repr

/-! ## Cutting an argument -/

/-- The parts of a text before and after the first place where `sep` occurs. -/
def splitFirst? (sep : List Char) : List Char → Option (List Char × List Char)
  | [] => none
  | c :: rest =>
    match sep.isPrefixOf? (c :: rest) with
    | some after => some ([], after)
    | none => (splitFirst? sep rest).map fun (before, after) => (c :: before, after)

/-- What follows the given words at the start of an argument. -/
def afterWords? (words : String) (argument : List Char) : Option (List Char) :=
  words.toList.isPrefixOf? argument

/-- The language and the kind spec in an option that has both.  The language stands either after
the word `kinds` or before it. -/
def kindsOption? (argument : List Char) : Option (List Char × List Char) :=
  match afterWords? "--kinds-" argument with
  | some rest => splitFirst? ['='] rest
  | none => (afterWords? "--" argument).bind (splitFirst? "-kinds=".toList)

namespace Switch

/-! ## Values -/

/-- A value that says yes or no. -/
def yesOrNo (option value : String) : Except UsageFault Bool :=
  if value = "yes" ∨ value = "1" ∨ value = "true" then .ok true
  else if value = "no" ∨ value = "0" ∨ value = "false" then .ok false
  else .error (.invalidValue option value)

/-- A value that names a class of identifiers. -/
def identClassOf (option value : String) : Except UsageFault IdentClass :=
  match IdentClass.ofName? value with
  | some cls => .ok cls
  | none => .error (.invalidValue option value)

/-- Refuses a language that is not scanned. -/
def checkLanguage (name : String) : Except UsageFault Unit :=
  if Language.elixir.isNamed name then .ok () else .error (.unknownLanguage name)

/-- A value that is a kind spec. -/
def kindSpecOf (value : String) : Except UsageFault KindSpec :=
  (KindSpec.parse value).mapError .kindSpec

/-! ## Arguments -/

/-- The switches that are a single word. -/
def words : List (String × Switch) :=
  [("-h", help), ("--help", help), ("-V", version), ("--version", version),
    ("--list-kinds", listKinds), ("--list-maps", listMaps), ("-R", recurse),
    ("--recurse", recurse), ("-a", append), ("--append", append), ("-v", verbose),
    ("--verbose", verbose), ("--no-scope", unscoped), ("--all-names", allNames),
    ("--legacy", legacy)]

/-- The argument takes the next one as its value. -/
def takesNext (argument : String) : Bool := argument == "-o" || argument == "-f"

/-- An argument that is no single word: an option with a value in it, or an input. -/
def ofValued (argument : String) : Except UsageFault Switch :=
  let chars := argument.toList
  if let some value := afterWords? "--output=" chars then
    .ok (.target (.ofArgument (String.ofList value)))
  else if let some value := afterWords? "--sort=" chars then
    (yesOrNo "--sort" (String.ofList value)).map .sort
  else if let some value := afterWords? "--ident=" chars then
    (identClassOf "--ident" (String.ofList value)).map .identClass
  else if let some language := afterWords? "--list-kinds=" chars then
    (checkLanguage (String.ofList language)).map fun _ => .listKinds
  else if let some (language, spec) := kindsOption? chars then
    (checkLanguage (String.ofList language)).bind fun _ =>
      (kindSpecOf (String.ofList spec)).map .kinds
  else if chars.head? = some '-' ∧ argument ≠ "-" then .error (.unknownOption argument)
  else .ok (.input (Bytes.ofString argument))

/-- An argument by itself. -/
def ofArgument (argument : String) : Except UsageFault Switch :=
  match words.lookup argument with
  | some switch => .ok switch
  | none => ofValued argument

/-- The switches of a command line, with a fault in the place of each argument that is none. -/
def ofArguments : List String → List (Except UsageFault Switch)
  | [] => []
  | [argument] =>
    [if takesNext argument then .error (.missingValue argument) else ofArgument argument]
  | argument :: value :: rest =>
    if takesNext argument then .ok (.target (.ofArgument value)) :: ofArguments rest
    else ofArgument argument :: ofArguments (value :: rest)

end Switch

end ElixirTags
