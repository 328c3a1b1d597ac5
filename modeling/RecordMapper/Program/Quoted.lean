import RecordMapper.Json.Printer
import RecordMapper.Text.Blank

/-!
# String literals of generated programs

A text in a program is a literal on one line: backslashes, line ends, tabs and all other control
characters are escaped, and so is the quote mark that the literal stands in.
-/

namespace RecordMapper.Program

/-- A character inside a literal, quote marks apart. -/
def escapeChar (c : Char) : List Char :=
  if c = '\\' then ['\\', '\\']
  else if c = '\n' then ['\\', 'n']
  else if c = '\x0d' then ['\\', 'r']
  else if c = '\t' then ['\\', 't']
  else if c = '\u2028' ∨ c = '\u2029' then '\\' :: 'u' :: Json.hex4 c.toNat
  else if Text.isControl c then
    ['\\', 'x', Json.hexDigit (c.toNat / 16 % 16), Json.hexDigit (c.toNat % 16)]
  else [c]

/-- The characters of a text inside a literal, quote marks apart. -/
def escapeBody (cs : List Char) : List Char := cs.flatMap escapeChar

/-- The characters with a backslash before each single quote mark. -/
def escapeSingle (cs : List Char) : List Char :=
  cs.flatMap fun c => if c = '\x27' then ['\\', c] else [c]

/-- A literal in single quote marks. -/
def quoteSingle (s : String) : String :=
  String.ofList ('\x27' :: escapeSingle (escapeBody s.toList) ++ ['\x27'])

/-- A literal in single quote marks, or in double ones if the text holds single ones and no
double one. -/
def quoteEither (s : String) : String :=
  let body := escapeBody s.toList
  if body.contains '\x27' && !body.contains '\x22' then
    String.ofList ('\x22' :: body ++ ['\x22'])
  else String.ofList ('\x27' :: escapeSingle body ++ ['\x27'])

end RecordMapper.Program
