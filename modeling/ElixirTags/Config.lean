import ElixirTags.Directive
import ElixirTags.Ident
import ElixirTags.Kind.Set

/-!
# Scan configurations

What a scan takes for an identifier, which directives it knows and which definitions it reports.
`Config.standard` is the default; `Config.legacy` is the older reading of the language, without
protocols and scopes and with dotted names.
-/

namespace ElixirTags

/-- The policy of a scan. -/
structure Config where
  identClass : IdentClass
  /-- Protocols and their implementations are known. -/
  protocols : Bool
  /-- Functions are attributed to the module they stand in. -/
  scopes : Bool
  /-- Functions whose names do not begin with a letter are left out. -/
  lettersOnly : Bool
  kinds : KindSet
deriving DecidableEq, Repr

namespace Config

/-- The default policy. -/
def standard : Config where
  identClass := .punctuated
  protocols := true
  scopes := true
  lettersOnly := true
  kinds := .standard

/-- The older reading of the language. -/
def legacy : Config where
  identClass := .dotted
  protocols := false
  scopes := false
  lettersOnly := false
  kinds := .standard

/-- The directive with the given keyword, among those that the configuration knows. -/
def directive? (config : Config) (word : Bytes) : Option Directive :=
  (Directive.ofKeyword? word).filter fun d => config.protocols || !d.kind.isExtended

end Config

end ElixirTags
