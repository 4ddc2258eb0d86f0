import ElixirTags.Text.Bytes

/-!
# Identifier classes

Which punctuation belongs to an identifier is a choice of the scan.  The language lets a function's
name end in `?` or `!` and joins the parts of a module's name with dots, and no one class serves
both: `punctuated` reads `valid?` whole and stops a module's name at its first dot, `dotted` reads
`Foo.Bar` whole and stops at the question mark.
-/

namespace ElixirTags

/-- The bytes that belong to identifiers, one class for a whole scan. -/
inductive IdentClass where
  /-- Word bytes, `?` and `!`. -/
  | punctuated
  /-- Word bytes and the dot. -/
  | dotted
deriving DecidableEq, Repr

namespace IdentClass

/-- The byte belongs to identifiers of the class. -/
def contains : IdentClass → UInt8 → Bool
  | punctuated, b => Byte.isWord b || b == 0x3F || b == 0x21
  | dotted, b => Byte.isWord b || b == Byte.dot

/-- The name of the class on the command line. -/
def name : IdentClass → String
  | punctuated => "punctuated"
  | dotted => "dotted"

/-- The class of the given name. -/
def ofName? (name : String) : Option IdentClass :=
  [punctuated, dotted].find? (·.name == name)

theorem ofName?_name (c : IdentClass) : ofName? c.name = some c := by
  cases c <;> decide

theorem contains_of_isWord {b : UInt8} (h : Byte.isWord b = true) (c : IdentClass) :
    c.contains b = true := by
  cases c <;> simp [contains, h]

set_option maxRecDepth 2000 in
/-- Identifiers are ASCII. -/
theorem lt_of_contains {c : IdentClass} {b : UInt8} (h : c.contains b = true) : b < 0x80 :=
  Byte.forall_of_fin (p := fun b => c.contains b = true → b < 0x80) (by cases c <;> decide) b h

set_option maxRecDepth 2000 in
/-- A blank ends every identifier. -/
theorem not_isBlank_of_contains {c : IdentClass} {b : UInt8} (h : c.contains b = true) :
    Byte.isBlank b = false :=
  Byte.forall_of_fin (p := fun b => c.contains b = true → Byte.isBlank b = false)
    (by cases c <;> decide) b h

end IdentClass

end ElixirTags
