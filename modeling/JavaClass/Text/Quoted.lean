import JavaClass.Text.Unshown

/-!
# Quoted text

Text inside messages and listings stands in double quotes. The quote and the backslash are preceded
by a backslash; the zero character, tab, line feed and carriage return have short names; any other
character without a visible form is written as its code point in braces.
-/

namespace JavaClass.Text

/-- A character as it stands in quoted text. -/
def escape (c : Char) : List Char :=
  if c = '\x00' then ['\\', '0']
  else if c = '\t' then ['\\', 't']
  else if c = '\n' then ['\\', 'n']
  else if c = '\r' then ['\\', 'r']
  else if c = '\\' then ['\\', '\\']
  else if c = '\x22' then ['\\', '\x22']
  else if isUnshown c then ['\\', 'u', '\x7b'] ++ Nat.toDigits 16 c.toNat ++ ['\x7d']
  else [c]

/-- A text in double quotes. -/
def quoted (text : String) : String :=
  String.ofList ('\x22' :: text.toList.flatMap escape ++ ['\x22'])

/-- A byte as two upper-case hexadecimal digits. -/
def hexByte (byte : UInt8) : String :=
  String.ofList ([byte.toNat / 16, byte.toNat % 16].map fun d => (Nat.digitChar d).toUpper)

end JavaClass.Text
