/-!
# Byte texts

Source files, file names and tag files are sequences of bytes.  Most of them are UTF-8, none of
them is promised to be, so the library works on bytes throughout and keeps `String` for what a
person types or reads.

The objects are the type `Bytes`, the classes of bytes in the namespace `Byte`, and
`Bytes.ofString`, which gives the bytes of the library's own words.
-/

namespace ElixirTags

/-- A text as the sequence of its bytes. -/
abbrev Bytes := List UInt8

/-! ## Single bytes -/

namespace Byte

/-- The byte that separates the fields of a tag line. -/
def tab : UInt8 := 0x09

/-- The byte that ends a line. -/
def newline : UInt8 := 0x0A

/-- The byte that may stand before the newline of a line. -/
def carriageReturn : UInt8 := 0x0D

/-- The byte that separates the components of a path. -/
def slash : UInt8 := 0x2F

/-- The byte in front of a file extension and of a hidden name. -/
def dot : UInt8 := 0x2E

/-- Blank bytes: space, tab, newline, vertical tab, form feed and carriage return. -/
def isBlank (b : UInt8) : Bool :=
  b == 0x20 || (0x09 ≤ b && b ≤ 0x0D)

/-- ASCII letters. -/
def isLetter (b : UInt8) : Bool :=
  (0x41 ≤ b && b ≤ 0x5A) || (0x61 ≤ b && b ≤ 0x7A)

/-- ASCII digits. -/
def isDigit (b : UInt8) : Bool :=
  0x30 ≤ b && b ≤ 0x39

/-- Letters, digits and the underscore: the bytes of a plain word. -/
def isWord (b : UInt8) : Bool :=
  isLetter b || isDigit b || b == 0x5F

/-- What holds of each of the 256 bytes holds of every byte. -/
theorem forall_of_fin {p : UInt8 → Prop} (h : ∀ n : Fin 256, p (.ofFin n)) (b : UInt8) : p b := by
  simpa using h b.toFin

end Byte

/-! ## Words of the library as bytes -/

namespace Bytes

/-- The UTF-8 bytes of a string. -/
def ofString (s : String) : Bytes :=
  s.toList.flatMap String.utf8EncodeChar

@[simp] theorem ofString_append (s t : String) : ofString (s ++ t) = ofString s ++ ofString t := by
  simp [ofString]

end Bytes

end ElixirTags
