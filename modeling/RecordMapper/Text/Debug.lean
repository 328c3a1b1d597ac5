import RecordMapper.Text.Visible

/-!
# Texts quoted for error messages

A text in an error message stands between quotation marks. Inside, the mark and the backslash
have a backslash before them, tab, line feed, carriage return and the null character are written
with a letter or `0`, and any other character that would not show on its own is written by its
number in lower-case hexadecimal digits.
-/

namespace RecordMapper.Text

/-- A character as it stands in a quoted text. -/
def debugChar (c : Char) : List Char :=
  if c = '\x22' then ['\\', '\x22']
  else if c = '\\' then ['\\', '\\']
  else if c = '\n' then ['\\', 'n']
  else if c = '\x0d' then ['\\', 'r']
  else if c = '\t' then ['\\', 't']
  else if c.toNat = 0 then ['\\', '0']
  else if isVisible c then [c]
  else ['\\', 'u', '\x7b'] ++ Nat.toDigits 16 c.toNat ++ ['\x7d']

/-- A text between quotation marks. -/
def debugQuote (s : String) : String :=
  String.ofList ('\x22' :: s.toList.flatMap debugChar ++ ['\x22'])

end RecordMapper.Text
