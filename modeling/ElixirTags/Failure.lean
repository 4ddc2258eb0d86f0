import ElixirTags.FileSystem.Resolve
import ElixirTags.Kind.Spec

/-!
# What can go wrong

A run fails either because its command line cannot be understood, a `UsageFault`, or because a file
cannot be used, an `AccessFailure`.  Scanning itself never fails.
-/

namespace ElixirTags

/-- Why a command line cannot be understood. -/
inductive UsageFault where
  | kindSpec (fault : KindSpec.Fault)
  | unknownOption (argument : String)
  /-- The option needs a value and is the last argument. -/
  | missingValue (option : String)
  /-- The option does not take this value. -/
  | invalidValue (option value : String)
  /-- The language is not the one that is scanned. -/
  | unknownLanguage (name : String)
  /-- No file or directory is named. -/
  | noInputs
deriving DecidableEq, Repr

/-- The words for a fault. -/
def UsageFault.message : UsageFault → String
  | kindSpec fault => "invalid kind spec: " ++ fault.message
  | unknownOption argument => "unknown option '" ++ argument ++ "'"
  | missingValue option => "option '" ++ option ++ "' requires a value"
  | invalidValue option value => "invalid value '" ++ value ++ "' for option '" ++ option ++ "'"
  | unknownLanguage name => "unknown language '" ++ name ++ "'"
  | noInputs => "no input files specified"

/-- A file that cannot be used, and why. -/
structure AccessFailure where
  /-- The path as it was given or found. -/
  path : Path
  fault : AccessFault
deriving DecidableEq, Repr

/-- The words for the failure. -/
def AccessFailure.message (f : AccessFailure) : String :=
  "cannot access '" ++ Utf8.text f.path ++ "': " ++ f.fault.message

end ElixirTags
