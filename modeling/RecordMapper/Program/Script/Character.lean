import RecordMapper.Json.Token
import RecordMapper.Text.Blank
import RecordMapper.Text.Identifier

/-!
# Characters of scripts

The classes of characters that JavaScript tells apart, and the escapes that stand for characters
in names, strings and templates.
-/

namespace RecordMapper.Program.Script

/-- Whether a character ends a line. -/
def endsLine (c : Char) : Bool :=
  c == '\n' || c == '\x0d' || c == '\u2028' || c == '\u2029'

/-- Whether a character is a blank between lexemes; beyond white space, the two blanks without a
width are taken for such. -/
def isSpace (c : Char) : Bool :=
  c == '\ufeff' || c == '\u200b' || (Text.isBlank c && !endsLine c)

/-- Whether a name may start with a character. -/
def startsName (c : Char) : Bool :=
  c.isAlpha || c == '_' || c == '$' || (0x80 ≤ c.toNat && Text.startsIdentifier c)

/-- Whether a name may go on with a character. -/
def inName (c : Char) : Bool :=
  c.isAlphanum || c == '_' || c == '$' || c == '\u200c' || c == '\u200d' ||
    (0x80 ≤ c.toNat && Text.continuesIdentifier c)

/-- Whether a character is a hexadecimal digit. -/
def isHexDigit (c : Char) : Bool := (Json.Token.hexDigit? c).isSome

/-- Whether a character is an octal digit. -/
def isOctalDigit (c : Char) : Bool := '0' ≤ c && c ≤ '7'

/-- Whether a character is a binary digit. -/
def isBinaryDigit (c : Char) : Bool := c == '0' || c == '1'

/-- The number that hexadecimal digits stand for. -/
def hexValue (digits : List Char) : Nat :=
  digits.foldl (fun n c => n * 16 + (Json.Token.hexDigit? c).getD 0) 0

/-- The number of a character that is written behind a backslash and `u`, and the rest: four
digits, or some in braces for a number that characters can have. -/
def escapedNumber? : List Char → Option (Nat × List Char)
  | '\x7b' :: rest =>
    let digits := rest.takeWhile isHexDigit
    match rest.drop digits.length with
    | '\x7d' :: rest =>
      if digits.isEmpty || 0x10FFFF < hexValue digits then none else some (hexValue digits, rest)
    | _ => none
  | cs => Json.Token.hex4? cs

/-- Whether the escape behind a backslash is well formed; in a string it may be an octal number,
in a template it may not. -/
def isEscape (inString : Bool) : List Char → Bool
  | 'x' :: a :: b :: _ => isHexDigit a && isHexDigit b
  | 'x' :: _ => false
  | 'u' :: rest => (escapedNumber? rest).isSome
  | '0' :: c :: _ => inString || !c.isDigit
  | c :: _ => inString || !c.isDigit || c == '0'
  | [] => false

end RecordMapper.Program.Script
