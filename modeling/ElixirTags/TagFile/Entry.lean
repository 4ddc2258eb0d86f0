import ElixirTags.Tag
import ElixirTags.Text.Decimal

/-!
# Lines of a tag file

Each tag is one line of fields between tabs:

    name <tab> file <tab> line;" <tab> kind:<kind> [<tab> module:<owner>]

An `Entry` keeps such a line whole, together with the three values that it is sorted by.  It comes
either from a tag (`Entry.ofTag`) or from a line of an existing tag file (`Entry.parse?`), which any
tool may have written: only the first three fields have to be there, and an address that is no line
number counts as line 0.
-/

namespace ElixirTags

/-- A line of a tag file. -/
structure Entry where
  name : Bytes
  file : Bytes
  line : LineNumber
  /-- The whole line. -/
  text : Bytes
deriving DecidableEq, Repr

namespace Entry

/-- What stands between a line number and the fields that explain the tag. -/
def addressMark : Bytes := Bytes.ofString ";\""

/-- The field that names the kind. -/
def kindField (k : Kind) : Bytes := Bytes.ofString "kind:" ++ Bytes.ofString k.name

/-- The fields of a tag found in `file`. -/
def fieldsOfTag (file : Bytes) (tag : Tag) : List Bytes :=
  [tag.name, file, Decimal.digits tag.line ++ addressMark, kindField tag.kind] ++ tag.scope.toList

/-- The entry of a tag found in `file`. -/
def ofTag (file : Bytes) (tag : Tag) : Entry where
  name := tag.name
  file := file
  line := tag.line
  text := [Byte.tab].intercalate (fieldsOfTag file tag)

/-! ## Reading -/

/-- What the lines about the tag file itself begin with. -/
def headerMark : Bytes := Bytes.ofString "!_"

/-- The text is a line about the tag file itself. -/
def isHeader (text : Bytes) : Bool := headerMark.isPrefixOf text

/-- Drops address marks from the front of a text written backwards. -/
def dropMarks : Bytes → Bytes
  | 0x22 :: 0x3B :: rest => dropMarks rest
  | text => text

/-- The line number of an address, or 0. -/
def lineOfAddress (address : Bytes) : LineNumber :=
  (Decimal.parse? (dropMarks address.reverse).reverse).getD 0

/-- Reads a line of a tag file.  Lines about the tag file itself are no entries, and neither are
lines that do not name a definition and a file. -/
def parse? (text : Bytes) : Option Entry :=
  if isHeader text then none
  else match text.splitOn Byte.tab with
    | name :: file :: address :: _ =>
      if name = [] || file = [] then none
      else some { name, file, line := lineOfAddress address, text }
    | _ => none

/-! ## Order -/

/-- Entries are ordered by name, then by file, then by line. -/
instance : Ord Entry where
  compare := compareLex (compareOn name) (compareLex (compareOn file) (compareOn line))

instance : Std.TransOrd Entry :=
  inferInstanceAs (Std.TransCmp
    (compareLex (compareOn name) (compareLex (compareOn file) (compareOn line))))

/-- The first entry may stand before the second. -/
def le (a b : Entry) : Bool := (compare a b).isLE

theorem le_trans {a b c : Entry} (hab : a.le b = true) (hbc : b.le c = true) : a.le c = true :=
  Std.TransCmp.isLE_trans hab hbc

theorem le_total (a b : Entry) : (a.le b || b.le a) = true := by
  have h : compare b a = (compare a b).swap := Std.OrientedCmp.eq_swap
  simp only [le, h]
  cases compare a b <;> rfl

end Entry

end ElixirTags
