import ElixirTags.Kind.Basic
import ElixirTags.Text.Lines

/-!
# Tags

A tag says where something is defined.  Only functions have an owner, the module whose definition
was the last to begin before theirs.
-/

namespace ElixirTags

/-- One definition. -/
structure Tag where
  name : Bytes
  kind : Kind
  line : LineNumber
  /-- The module that the definition is attributed to. -/
  owner : Option Bytes := none
deriving DecidableEq, Repr

namespace Tag

/-- The tag, attributed to a module. -/
def inModule (tag : Tag) (owner : Bytes) : Tag := { tag with owner := some owner }

/-- The scope of the tag in words: the label `module` and the owner. -/
def scope (tag : Tag) : Option Bytes :=
  tag.owner.map (Bytes.ofString "module:" ++ ·)

end Tag

end ElixirTags
