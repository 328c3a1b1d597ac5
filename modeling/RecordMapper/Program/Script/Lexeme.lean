import RecordMapper.Program.Script.Literal

/-!
# Lexemes of scripts

The lexemes that scripts are made of. Comments and blanks are left out; a lexeme knows whether a
line ended before it. Which lexeme stands at a place may depend on what is due there: a slash
starts a pattern where an operand is due, and a closing brace goes on with a template where a
substitution ends. So lexemes are read one by one, and `Lexeme.asPattern?` and
`Lexeme.asTemplate?` read one again that was taken for a sign.
-/

namespace RecordMapper.Program.Script

/-- The kinds of lexemes. -/
inductive LexemeKind where
  | name (text : String) (escaped : Bool)
  | privateName (text : String)
  | number
  /-- a string; it has no text if half of a surrogate pair stands alone in it -/
  | string (text : Option String)
  /-- a piece of a template -/
  | template (isLast isValid : Bool)
  /-- a regular expression -/
  | pattern
  | sign (text : String)
  /-- the end of the script -/
  | finish
  /-- characters that make up no lexeme -/
  | unreadable
deriving DecidableEq

/-- A lexeme, whether a line ended between the one before and it, and the characters behind it. -/
structure Lexeme where
  kind : LexemeKind
  newLine : Bool
  rest : List Char

/-! ## Blanks and comments -/

mutual

/-- What follows blanks and comments, and whether a line ended among them or before; none if a
comment does not end. -/
def skipBlanks (newLine : Bool) : List Char → Option (Bool × List Char)
  | '/' :: '/' :: rest => skipLine newLine rest
  | '/' :: '*' :: rest => skipBlock newLine rest
  | c :: rest =>
    if endsLine c then skipBlanks true rest
    else if isSpace c then skipBlanks newLine rest
    else some (newLine, c :: rest)
  | [] => some (newLine, [])

/-- What follows a comment that ends with its line. -/
def skipLine (newLine : Bool) : List Char → Option (Bool × List Char)
  | c :: rest => if endsLine c then skipBlanks true rest else skipLine newLine rest
  | [] => some (newLine, [])

/-- What follows a comment that ends with a star and a slash. -/
def skipBlock (newLine : Bool) : List Char → Option (Bool × List Char)
  | '*' :: '/' :: rest => skipBlanks newLine rest
  | c :: rest => skipBlock (newLine || endsLine c) rest
  | [] => none

end

/-! ## Names -/

/-- The characters of a name, whether some of them are escaped, and the rest. No more characters
are read than `fuel`. -/
def scanName (atStart : Bool) : Nat → List Char → Option (List Char × Bool × List Char)
  | fuel + 1, '\\' :: 'u' :: rest => do
    let (n, rest) ← escapedNumber? rest
    let c := Char.ofNat n
    if n.isValidChar && (if atStart then startsName c else inName c) then
      let (cs, _, rest) ← scanName false fuel rest
      some (c :: cs, true, rest)
    else none
  | fuel + 1, c :: rest =>
    if if atStart then startsName c else inName c then do
      let (cs, escaped, rest) ← scanName false fuel rest
      some (c :: cs, escaped, rest)
    else if atStart || c == '\\' then none
    else some ([], false, c :: rest)
  | _, rest => if atStart then none else some ([], false, rest)

/-- The name at the start of a text, whether it has escapes, and the rest. -/
def name? (cs : List Char) : Option (String × Bool × List Char) :=
  let plain := cs.takeWhile inName
  let rest := cs.drop plain.length
  if plain.head?.any startsName && rest.head? != some '\\' then
    some (String.ofList plain, false, rest)
  else
    (scanName true cs.length cs).map fun (text, escaped, rest) =>
      (String.ofList text, escaped, rest)

/-! ## Lexemes -/

/-- The signs, the longest first among those that start alike. -/
def signs : List String :=
  ["(", ")", ".", ",", ";", "\x7b", "\x7d", "[", "]", ":", "=>", "===", "==", "=", "...", ">>>=",
    "!==", "**=", "<<=", ">>=", ">>>", "&&=", "||=", "??=", "!=", "<=", ">=", "&&", "||", "??",
    "?.", "++", "--", "+=", "-=", "*=", "/=", "%=", "&=", "|=", "^=", "<<", ">>", "**", "<", ">",
    "+", "-", "*", "/", "%", "&", "|", "^", "!", "~", "?", "@"]

/-- The sign at the start of a text. A question mark before a point and a digit stands alone, and
three points are one sign. -/
def sign? : List Char → Option String
  | '?' :: '.' :: c :: _ => some (if c.isDigit then "?" else "?.")
  | '.' :: '.' :: '.' :: _ => some "..."
  | cs => signs.find? fun sign => sign.toList.isPrefixOf cs

namespace Lexeme

/-- The lexeme at the start of a text that starts with neither blank nor comment, and the
rest. -/
def read? : List Char → Option (LexemeKind × List Char)
  | [] => some (.finish, [])
  | c :: rest =>
    if c == '\x27' || c == '\x22' then
      (stringTail c rest).map fun (content, rest) => (.string (stringText? content), rest)
    else if c == '\x60' then
      (templatePiece true rest).map fun piece =>
        (.template piece.isLast piece.isValid, piece.rest)
    else if c == '#' then
      (name? rest).map fun (text, _, rest) => (.privateName text, rest)
    else if c.isDigit || (c == '.' && rest.head?.any Char.isDigit) then
      (afterNumber (c :: rest)).map fun rest => (.number, rest)
    else
      match sign? (c :: rest) with
      | some sign => some (.sign sign, (c :: rest).drop sign.length)
      | none =>
        (name? (c :: rest)).map fun (text, escaped, rest) => (.name text escaped, rest)

/-- The first lexeme of a text. -/
def first (cs : List Char) : Lexeme :=
  match skipBlanks false cs with
  | some (newLine, cs) =>
    match read? cs with
    | some (kind, rest) => ⟨kind, newLine, rest⟩
    | none => ⟨.unreadable, newLine, []⟩
  | none => ⟨.unreadable, false, []⟩

/-- The first lexeme of a script, which may start with a line that says what runs it. -/
def firstOfScript : List Char → Lexeme
  | '#' :: '!' :: rest => first (rest.dropWhile fun c => !endsLine c)
  | cs => first cs

/-- The lexeme that follows another one. -/
def next (l : Lexeme) : Lexeme := first l.rest

/-- The pattern that starts with a lexeme, which was taken for a division. -/
def asPattern? (l : Lexeme) : Option Lexeme :=
  match l.kind with
  | .sign "/" => (afterPattern l.rest).map fun rest => ⟨.pattern, l.newLine, rest⟩
  | .sign "/=" => (afterPattern ('=' :: l.rest)).map fun rest => ⟨.pattern, l.newLine, rest⟩
  | _ => none

/-- The piece of a template that starts with a lexeme, which was taken for a closing brace. -/
def asTemplate? (l : Lexeme) : Option Lexeme :=
  match l.kind with
  | .sign "\x7d" =>
    (templatePiece true l.rest).map fun piece =>
      ⟨.template piece.isLast piece.isValid, l.newLine, piece.rest⟩
  | _ => none

end Lexeme

end RecordMapper.Program.Script
