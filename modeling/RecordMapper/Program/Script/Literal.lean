import RecordMapper.Program.Script.Character

/-!
# Literals of scripts

Where literals end: numbers, strings, pieces of templates and patterns. Each function takes the
characters from some place in a literal on and gives those behind it, none if there is no such
literal.
-/

namespace RecordMapper.Program.Script

/-! ## Numbers -/

/-- Behind further digits; an underscore may stand between two of them. -/
def afterMoreDigits (isDigit : Char → Bool) : List Char → Option (List Char)
  | '_' :: c :: rest => if isDigit c then afterMoreDigits isDigit rest else none
  | '_' :: [] => none
  | c :: rest => if isDigit c then afterMoreDigits isDigit rest else some (c :: rest)
  | [] => some []

/-- Behind one digit or more. -/
def afterDigits (isDigit : Char → Bool) : List Char → Option (List Char)
  | c :: rest => if isDigit c then afterMoreDigits isDigit rest else none
  | [] => none

/-- Behind the digits after a point, if there are any. -/
def afterFraction (cs : List Char) : Option (List Char) :=
  if cs.head?.any Char.isDigit then afterDigits Char.isDigit cs else some cs

/-- Behind an exponent, if there is one. -/
def afterExponent : List Char → Option (List Char)
  | c :: rest =>
    if c == 'e' || c == 'E' then
      match rest with
      | '+' :: rest => afterDigits Char.isDigit rest
      | '-' :: rest => afterDigits Char.isDigit rest
      | rest => afterDigits Char.isDigit rest
    else some (c :: rest)
  | [] => some []

/-- Behind the mark of a whole number without bounds, if there is one. -/
def afterWholeMark : List Char → List Char
  | 'n' :: rest => rest
  | cs => cs

/-- Behind a number of digits that start with a zero. They are octal, and nothing may follow,
unless there is an eight or a nine among them. -/
def afterLeadingZero (cs : List Char) : Option (List Char) :=
  let rest := cs.dropWhile Char.isDigit
  if (cs.takeWhile Char.isDigit).all isOctalDigit then some rest
  else
    match rest with
    | '.' :: rest => (afterFraction rest).bind afterExponent
    | rest => afterExponent rest

/-- Behind a decimal number. -/
def afterDecimal (cs : List Char) : Option (List Char) := do
  match ← afterDigits Char.isDigit cs with
  | '.' :: rest => (afterFraction rest).bind afterExponent
  | 'n' :: rest => some rest
  | rest => afterExponent rest

/-- Behind the characters of a number, whatever follows them. -/
def afterNumeral : List Char → Option (List Char)
  | '.' :: rest => (afterDigits Char.isDigit rest).bind afterExponent
  | '0' :: c :: rest =>
    if c == 'x' || c == 'X' then (afterDigits isHexDigit rest).map afterWholeMark
    else if c == 'o' || c == 'O' then (afterDigits isOctalDigit rest).map afterWholeMark
    else if c == 'b' || c == 'B' then (afterDigits isBinaryDigit rest).map afterWholeMark
    else if c == '_' then none
    else if c.isDigit then afterLeadingZero (c :: rest)
    else afterDecimal ('0' :: c :: rest)
  | cs => afterDecimal cs

/-- Behind a number. Neither a name nor a digit follows it directly. -/
def afterNumber (cs : List Char) : Option (List Char) :=
  match afterNumeral cs with
  | some (c :: rest) => if startsName c || c.isDigit then none else some (c :: rest)
  | rest => rest

/-! ## Strings -/

/-- The characters of a string before its closing mark, as they are written, and behind it. A
string ends on the line on which it starts, unless a backslash stands before the end of the
line. -/
def stringTail (mark : Char) : List Char → Option (List Char × List Char)
  | '\\' :: '\x0d' :: '\n' :: rest => stringTail mark rest
  | '\\' :: c :: rest =>
    if isEscape true (c :: rest) then
      (stringTail mark rest).map fun (content, rest) => ('\\' :: c :: content, rest)
    else none
  | c :: rest =>
    if c = mark then some ([], rest)
    else if c = '\n' || c = '\x0d' then none
    else (stringTail mark rest).map fun (content, rest) => (c :: content, rest)
  | [] => none

/-- How many octal digits at the start make up the number of an escape. -/
def octalLength (cs : List Char) : Nat :=
  min (cs.takeWhile isOctalDigit).length (if cs.head?.any (· ≤ '3') then 3 else 2)

/-- The number of the character that an escape in a string stands for, if it stands for one, and
the rest. -/
def escaped : List Char → Option Nat × List Char
  | 'b' :: rest => (some 0x08, rest)
  | 'f' :: rest => (some 0x0C, rest)
  | 'n' :: rest => (some 0x0A, rest)
  | 'r' :: rest => (some 0x0D, rest)
  | 't' :: rest => (some 0x09, rest)
  | 'v' :: rest => (some 0x0B, rest)
  | 'x' :: a :: b :: rest => (some (hexValue [a, b]), rest)
  | 'u' :: rest =>
    match escapedNumber? rest with
    | some (n, rest) => (some n, rest)
    | none => (none, rest)
  | c :: rest =>
    if endsLine c then (none, rest)
    else if isOctalDigit c then
      let length := octalLength (c :: rest)
      (some (((c :: rest).take length).foldl (fun n d => n * 8 + (d.toNat - '0'.toNat)) 0),
        (c :: rest).drop length)
    else (some c.toNat, rest)
  | [] => (none, [])

/-- The numbers that the characters of a string stand for, as they are written. No more characters
are read than `fuel`. -/
def stringNumbers : Nat → List Char → List Nat
  | fuel + 1, '\\' :: rest =>
    let (n, rest) := escaped rest
    n.toList ++ stringNumbers fuel rest
  | fuel + 1, c :: rest => c.toNat :: stringNumbers fuel rest
  | _, _ => []

/-- The characters of some numbers, two halves of a surrogate pair taken together; none if a half
stands alone. -/
def charactersOf : List Nat → Option (List Char)
  | [] => some []
  | n :: rest =>
    if Json.Token.isHigh n then
      match rest with
      | low :: rest =>
        if Json.Token.isLow low then
          (charactersOf rest).map
            (Char.ofNat (0x10000 + (n - 0xD800) * 0x400 + (low - 0xDC00)) :: ·)
        else none
      | [] => none
    else if Json.Token.isLow n then none
    else (charactersOf rest).map (Char.ofNat n :: ·)

/-- The text of a string whose characters are written in some way; none if it has no text, since
half of a surrogate pair stands alone in it. -/
def stringText? (content : List Char) : Option String :=
  (charactersOf (stringNumbers content.length content)).map String.ofList

/-! ## Templates -/

/-- How a piece of a template ends. -/
structure TemplatePiece where
  /-- whether the template ends with it, and no substitution follows -/
  isLast : Bool
  /-- whether all escapes in it are well formed -/
  isValid : Bool
  rest : List Char

/-- The end of a piece of a template, where `isValid` tells of the characters before. -/
def templatePiece (isValid : Bool) : List Char → Option TemplatePiece
  | '\\' :: c :: rest => templatePiece (isValid && isEscape false (c :: rest)) rest
  | '$' :: '\x7b' :: rest => some ⟨false, isValid, rest⟩
  | c :: rest => if c = '\x60' then some ⟨true, isValid, rest⟩ else templatePiece isValid rest
  | [] => none

/-! ## Patterns -/

/-- Behind the slash that ends a pattern, where `inClass` tells whether a class of characters is
open. A pattern ends on the line on which it starts. -/
def afterPatternBody (inClass : Bool) : List Char → Option (List Char)
  | '\\' :: c :: rest => if endsLine c then none else afterPatternBody inClass rest
  | c :: rest =>
    if endsLine c then none
    else if c = '[' then afterPatternBody true rest
    else if c = ']' then afterPatternBody false rest
    else if c = '/' && !inClass then some rest
    else afterPatternBody inClass rest
  | [] => none

/-- The letters that may follow a pattern, each at most once. -/
def patternFlags : List Char := ['d', 'g', 'i', 'm', 's', 'u', 'v', 'y']

/-- Behind a pattern, from the character after its first slash on. -/
def afterPattern (cs : List Char) : Option (List Char) := do
  let rest ← afterPatternBody false cs
  let isFlag := fun (c : Char) => c.isAlphanum || c == '_' || c == '$'
  let flags := rest.takeWhile isFlag
  if flags.all patternFlags.contains && flags.eraseDups.length == flags.length then
    some (rest.dropWhile isFlag)
  else none

end RecordMapper.Program.Script
