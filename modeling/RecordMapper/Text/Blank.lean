/-!
# Character classes and trimming

White space is the Unicode property `White_Space`, 25 characters in ten ranges; control
characters are the general category `Cc`. Both sets are closed by the standard, so the tables
below are complete. `trim` removes white space at both ends of a text and nothing else.
-/

namespace RecordMapper.Text

/-- White space in the sense of the property `White_Space`. -/
def isBlank (c : Char) : Bool :=
  let n := c.toNat
  (0x09 ≤ n && n ≤ 0x0D) || n == 0x20 || n == 0x85 || n == 0xA0 || n == 0x1680 ||
    (0x2000 ≤ n && n ≤ 0x200A) || n == 0x2028 || n == 0x2029 || n == 0x202F || n == 0x205F ||
    n == 0x3000

/-- Control characters: the 32 below space, and those from delete to the end of the block
that follows it. -/
def isControl (c : Char) : Bool :=
  c.toNat < 0x20 || (0x7F ≤ c.toNat && c.toNat ≤ 0x9F)

/-- The characters between the first and the last one that is not blank. -/
def trimChars (cs : List Char) : List Char :=
  ((cs.dropWhile isBlank).reverse.dropWhile isBlank).reverse

/-- The text without the white space at its two ends. -/
def trim (s : String) : String :=
  String.ofList (trimChars s.toList)

/-- A text of white space only; the empty text is one. -/
def isBlankText (s : String) : Bool :=
  s.toList.all isBlank

/-- The text with its ASCII letters in lower case. The words it is compared with are made of
ASCII characters that no other character turns into in lower case, so this is enough to find
them whatever else the text holds. -/
def asciiLower (s : String) : String :=
  String.ofList (s.toList.map Char.toLower)

/-- Whether `word` occurs in the characters, at any place. -/
def occursIn (word : List Char) : List Char → Bool
  | [] => word.isEmpty
  | c :: cs => word.isPrefixOf (c :: cs) || occursIn word cs

theorem trimChars_nil : trimChars [] = [] := rfl

theorem trim_toList (s : String) : (trim s).toList = trimChars s.toList := by
  simp [trim]

end RecordMapper.Text
