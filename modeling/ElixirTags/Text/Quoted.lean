import ElixirTags.Text.Printable

/-!
# Quoted text

A text in double quotes on one line, in which every character can be read: quotes, backslashes and
line breaks are escaped, and a character without an appearance of its own is given by its number.
-/

namespace ElixirTags.Text

/-- The code point of a character in braces, in lower-case hexadecimal digits. -/
def codePointEscape (c : Char) : List Char :=
  ['\\', 'u', '\x7b'] ++ Nat.toDigits 16 c.toNat ++ ['\x7d']

/-- A character as it stands between double quotes. -/
def escape (c : Char) : List Char :=
  if c = '\x00' then ['\\', '0']
  else if c = '\t' then ['\\', 't']
  else if c = '\n' then ['\\', 'n']
  else if c = '\r' then ['\\', 'r']
  else if c = '\x22' then ['\\', '\x22']
  else if c = '\\' then ['\\', '\\']
  else if isPrintable c then [c]
  else codePointEscape c

/-- The text between double quotes, with escapes. -/
def quoted (s : String) : String :=
  String.ofList ('\x22' :: s.toList.flatMap escape ++ ['\x22'])

example : escape '\t' = ['\\', 't'] := by decide
example : codePointEscape '\u0301' = "\\u\x7b301\x7d".toList := by decide

end ElixirTags.Text
