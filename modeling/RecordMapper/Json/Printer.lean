import RecordMapper.Json.Basic

/-!
# Compact text of a document

No blanks, members in order. Inside a string the quotation mark, the backslash and the
characters below space are escaped, the latter by a letter where there is one and by four
lower-case hexadecimal digits otherwise; every other character stands for itself.
-/

namespace RecordMapper.Json

/-- The digit for a number below 16. -/
def hexDigit (n : Nat) : Char := (Nat.toDigits 16 n).headD '0'

/-- The four hexadecimal digits of a 16-bit number. -/
def hex4 (n : Nat) : List Char :=
  [hexDigit (n / 4096 % 16), hexDigit (n / 256 % 16), hexDigit (n / 16 % 16), hexDigit (n % 16)]

/-- A character as it is written inside a string. -/
def escapeChar (c : Char) : List Char :=
  if c = '\x22' then ['\\', '\x22']
  else if c = '\\' then ['\\', '\\']
  else if c = '\x08' then ['\\', 'b']
  else if c = '\x0c' then ['\\', 'f']
  else if c = '\n' then ['\\', 'n']
  else if c = '\x0d' then ['\\', 'r']
  else if c = '\t' then ['\\', 't']
  else if c.toNat < 0x20 then '\\' :: 'u' :: hex4 c.toNat
  else [c]

/-- A string between quotation marks. -/
def quote (s : String) : String :=
  String.ofList ('\x22' :: s.toList.flatMap escapeChar ++ ['\x22'])

/-- Texts with a comma between each two of them. -/
def commaSeparated (texts : List String) : String := String.intercalate "," texts

mutual

/-- The compact text of a value. -/
def render : Json → String
  | null => "null"
  | bool true => "true"
  | bool false => "false"
  | num n => n.render
  | str s => quote s
  | arr items => "[" ++ commaSeparated (renderItems items) ++ "]"
  | obj members => "\x7b" ++ commaSeparated (renderMembers members) ++ "\x7d"

/-- The texts of the items of an array. -/
def renderItems : List Json → List String
  | [] => []
  | j :: js => render j :: renderItems js

/-- The texts of the members of an object, each its key, a colon and its value. -/
def renderMembers : List (String × Json) → List String
  | [] => []
  | (k, j) :: js => (quote k ++ ":" ++ render j) :: renderMembers js

end

end RecordMapper.Json
