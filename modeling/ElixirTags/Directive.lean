import ElixirTags.Kind.Basic
import ElixirTags.Text.Bytes

/-!
# Directives

The words that define something.  All of them begin with the letter `d`, which lets a scan pass
over most lines after one look (`head_keyword`).
-/

namespace ElixirTags

/-- A word at the start of a line that defines what the next word names. -/
inductive Directive where
  | functionDef
  | privateFunctionDef
  | macroDef
  | privateMacroDef
  | recordDef
  | moduleDef
  | protocolDef
  | protocolImpl
deriving DecidableEq, Repr

namespace Directive

/-- Every directive. -/
def all : List Directive :=
  [functionDef, privateFunctionDef, macroDef, privateMacroDef, recordDef, moduleDef, protocolDef,
    protocolImpl]

/-- The word in the source text. -/
def keyword : Directive → String
  | functionDef => "def"
  | privateFunctionDef => "defp"
  | macroDef => "defmacro"
  | privateMacroDef => "defmacrop"
  | recordDef => "defrecord"
  | moduleDef => "defmodule"
  | protocolDef => "defprotocol"
  | protocolImpl => "defimpl"

/-- The first byte of every keyword. -/
def lead : UInt8 := 0x64

/-- The kind of what the directive defines. -/
def kind : Directive → Kind
  | functionDef | privateFunctionDef => .functionDef
  | macroDef | privateMacroDef => .macroDef
  | recordDef => .recordDef
  | moduleDef => .moduleDef
  | protocolDef => .protocolDef
  | protocolImpl => .protocolImpl

/-- The directive defines a function.  Only functions are attributed to a module and only their
names may have to begin with a letter. -/
def isFunction : Directive → Bool
  | functionDef | privateFunctionDef => true
  | _ => false

/-- The directive begins a module. -/
def beginsModule : Directive → Bool
  | moduleDef => true
  | _ => false

/-- The directive with the given keyword; letter case counts. -/
def ofKeyword? (word : Bytes) : Option Directive :=
  all.find? fun d => Bytes.ofString d.keyword == word

theorem ofKeyword?_keyword (d : Directive) : ofKeyword? (Bytes.ofString d.keyword) = some d := by
  cases d <;> decide

theorem eq_keyword_of_ofKeyword? {word : Bytes} {d : Directive} (h : ofKeyword? word = some d) :
    word = Bytes.ofString d.keyword := by
  have hd := List.find?_some h
  exact (beq_iff_eq.1 hd).symm

theorem head_keyword (d : Directive) : (Bytes.ofString d.keyword).head? = some lead := by
  cases d <;> decide

end Directive

end ElixirTags
