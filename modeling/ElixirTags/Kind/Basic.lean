/-!
# Kinds of definitions

Every tag has a `Kind`.  A kind is known by a letter in kind specs and by a name in braces there and
in tag files; both name it uniquely (`ofCode?_code`, `ofName?_name`).
-/

namespace ElixirTags

/-- What a tag defines. -/
inductive Kind where
  | macroDef
  | functionDef
  | moduleDef
  | recordDef
  | protocolDef
  | protocolImpl
deriving DecidableEq, Repr

namespace Kind

/-- Every kind, in the order of listings. -/
def all : List Kind :=
  [macroDef, functionDef, moduleDef, recordDef, protocolDef, protocolImpl]

/-- The place of the kind in listings. -/
def index : Kind → Nat
  | macroDef => 0
  | functionDef => 1
  | moduleDef => 2
  | recordDef => 3
  | protocolDef => 4
  | protocolImpl => 5

/-- The letter of the kind in kind specs. -/
def code : Kind → Char
  | macroDef => 'd'
  | functionDef => 'f'
  | moduleDef => 'm'
  | recordDef => 'r'
  | protocolDef => 'p'
  | protocolImpl => 'l'

/-- The name of the kind. -/
def name : Kind → String
  | macroDef => "macro"
  | functionDef => "function"
  | moduleDef => "module"
  | recordDef => "record"
  | protocolDef => "protocol"
  | protocolImpl => "impl"

/-- The words that explain the kind in listings. -/
def description : Kind → String
  | macroDef => "macro definitions"
  | functionDef => "functions"
  | moduleDef => "modules"
  | recordDef => "record definitions"
  | protocolDef => "protocol definitions"
  | protocolImpl => "protocol implementations"

/-- The kind is on when nothing is said about it. -/
def onByDefault : Kind → Bool
  | _ => true

/-- The kind comes only from directives that a configuration may leave out. -/
def isExtended : Kind → Bool
  | protocolDef | protocolImpl => true
  | _ => false

/-- The kind of the given letter. -/
def ofCode? (c : Char) : Option Kind :=
  all.find? (·.code == c)

/-- The kind of the given name. -/
def ofName? (name : String) : Option Kind :=
  all.find? (·.name == name)

theorem ofCode?_code (k : Kind) : ofCode? k.code = some k := by
  cases k <;> decide

theorem ofName?_name (k : Kind) : ofName? k.name = some k := by
  cases k <;> decide

theorem code_inj {j k : Kind} : j.code = k.code ↔ j = k := by
  cases j <;> cases k <;> decide

theorem name_inj {j k : Kind} : j.name = k.name ↔ j = k := by
  cases j <;> cases k <;> decide

theorem index_lt (k : Kind) : k.index < 6 := by
  cases k <;> decide

theorem index_inj {j k : Kind} : j.index = k.index ↔ j = k := by
  cases j <;> cases k <;> decide

end Kind

end ElixirTags
