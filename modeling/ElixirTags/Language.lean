import ElixirTags.FileSystem.Path

/-!
# The scanned language

A language has a name, by which command lines refer to its kinds, and the extensions of its files.
-/

namespace ElixirTags

/-- A language with its source files. -/
structure Language where
  name : String
  /-- The extensions of its files, without the dot. -/
  extensions : List String
deriving DecidableEq, Repr

namespace Language

/-- The one language that is scanned. -/
def elixir : Language := ⟨"Elixir", ["ex", "exs"]⟩

/-- The extension is one of the language's; letter case counts. -/
def matchesExtension (language : Language) (extension : Bytes) : Bool :=
  language.extensions.any fun e => Bytes.ofString e == extension

/-- The file at the path is a source of the language. -/
def matchesPath (language : Language) (path : Path) : Bool :=
  path.extension?.any language.matchesExtension

/-- The text names the language; the case of ASCII letters does not count. -/
def isNamed (language : Language) (name : String) : Bool :=
  name.toList.map Char.toLower == language.name.toList.map Char.toLower

end Language

end ElixirTags
