import RecordMapper.Number.Basic

/-!
# Tokens of a document text

A text is cut into punctuation, the three words, strings and numbers, with blanks between them
left out. A string token has no text if it holds the escape of half a surrogate pair, and a
number token has no value if it overflows: such a token is well formed, and only a reader that
wants its value refuses it.
-/

namespace RecordMapper.Json

/-- A token of a document text. -/
inductive Token where
  | openArray
  | closeArray
  | openObject
  | closeObject
  | comma
  | colon
  | null
  | bool (value : Bool)
  | str (text : Option String)
  | num (value : Option Number)

namespace Token

/-- The four characters that may stand between tokens. -/
def isSpace (c : Char) : Bool := c == ' ' || c == '\t' || c == '\n' || c == '\x0d'

/-- The value of a decimal digit. -/
def digit? (c : Char) : Option Nat :=
  if c.isDigit then some (c.toNat - '0'.toNat) else none

/-- The value of a hexadecimal digit of either case. -/
def hexDigit? (c : Char) : Option Nat :=
  if c.isDigit then some (c.toNat - '0'.toNat)
  else if 'a' ≤ c ∧ c ≤ 'f' then some (c.toNat - 'a'.toNat + 10)
  else if 'A' ≤ c ∧ c ≤ 'F' then some (c.toNat - 'A'.toNat + 10)
  else none

/-- The number that four hexadecimal digits at the start stand for, and the rest. -/
def hex4? : List Char → Option (Nat × List Char)
  | a :: b :: c :: d :: rest => do
    let a ← hexDigit? a
    let b ← hexDigit? b
    let c ← hexDigit? c
    let d ← hexDigit? d
    some (((a * 16 + b) * 16 + c) * 16 + d, rest)
  | _ => none

/-- The character that a one-letter escape stands for. -/
def shortEscape? : Char → Option Char
  | '\x22' => some '\x22'
  | '\\' => some '\\'
  | '/' => some '/'
  | 'b' => some '\x08'
  | 'f' => some '\x0c'
  | 'n' => some '\n'
  | 'r' => some '\x0d'
  | 't' => some '\t'
  | _ => none

/-- First half of a surrogate pair. -/
def isHigh (n : Nat) : Bool := 0xD800 ≤ n && n ≤ 0xDBFF

/-- Second half of a surrogate pair. -/
def isLow (n : Nat) : Bool := 0xDC00 ≤ n && n ≤ 0xDFFF

/-- What is read at one place inside a string. -/
inductive Piece where
  | char (c : Char)
  | half
  | close

/-- The next piece of a string and the rest. A pair of escapes that make up one character is
one piece; an escape of half a pair is read on its own. -/
def piece? : List Char → Option (Piece × List Char)
  | '\x22' :: rest => some (.close, rest)
  | '\\' :: 'u' :: rest => do
    let (n, rest) ← hex4? rest
    if isHigh n then
      match rest with
      | '\\' :: 'u' :: rest' =>
        let (m, rest') ← hex4? rest'
        if isLow m then
          some (.char (Char.ofNat (0x10000 + (n - 0xD800) * 0x400 + (m - 0xDC00))), rest')
        else some (.half, rest)
      | _ => some (.half, rest)
    else if isLow n then some (.half, rest)
    else some (.char (Char.ofNat n), rest)
  | '\\' :: c :: rest => do
    let c ← shortEscape? c
    some (.char c, rest)
  | c :: rest => if c.toNat < 0x20 || c == '\\' then none else some (.char c, rest)
  | [] => none

theorem hex4?_length {cs rest : List Char} {n : Nat} (h : hex4? cs = some (n, rest)) :
    rest.length < cs.length := by
  unfold hex4? at h
  split at h
  · simp only [Option.bind_eq_bind, Option.bind_eq_some_iff, Option.some.injEq,
      Prod.mk.injEq] at h
    obtain ⟨_, _, _, _, _, _, _, _, _, rfl⟩ := h
    simp only [List.length_cons]
    omega
  · simp at h

/-- A piece takes at least one character, so a string ends or its text does. -/
theorem piece?_length {cs rest : List Char} {p : Piece} (h : piece? cs = some (p, rest)) :
    rest.length < cs.length := by
  unfold piece? at h
  split at h
  · simp only [Option.some.injEq, Prod.mk.injEq] at h
    simp [← h.2]
  · simp only [Option.bind_eq_bind, Option.bind_eq_some_iff, Prod.exists] at h
    obtain ⟨n, r, hr, h⟩ := h
    have hl := hex4?_length hr
    simp only [List.length_cons]
    split at h
    · split at h
      · simp only [Option.bind_eq_some_iff, Prod.exists] at h
        obtain ⟨m, r', hr', h⟩ := h
        have hl' := hex4?_length hr'
        simp only [List.length_cons] at hl
        split at h <;> simp only [Option.some.injEq, Prod.mk.injEq] at h <;>
          obtain ⟨_, rfl⟩ := h
        · omega
        · simp only [List.length_cons]
          omega
      · simp only [Option.some.injEq, Prod.mk.injEq] at h
        obtain ⟨_, rfl⟩ := h
        omega
    · split at h <;> simp only [Option.some.injEq, Prod.mk.injEq] at h <;>
        obtain ⟨_, rfl⟩ := h <;> omega
  · simp only [Option.bind_eq_bind, Option.bind_eq_some_iff, Option.some.injEq,
      Prod.mk.injEq] at h
    obtain ⟨_, _, _, rfl⟩ := h
    simp only [List.length_cons]
    omega
  · split at h
    · simp at h
    · simp only [Option.some.injEq, Prod.mk.injEq] at h
      simp [← h.2]
  · simp at h

/-- The text of a string up to its closing mark, with the characters read so far in reverse,
and the rest; the text is none once half a pair was read. -/
def stringFrom? (acc : Option (List Char)) (cs : List Char) :
    Option (Option String × List Char) :=
  match h : piece? cs with
  | none => none
  | some (.close, rest) => some (acc.map fun cs => String.ofList cs.reverse, rest)
  | some (.char c, rest) =>
    have := piece?_length h
    stringFrom? (acc.map (c :: ·)) rest
  | some (.half, rest) =>
    have := piece?_length h
    stringFrom? none rest
termination_by cs.length

/-- The digits at the start and the rest. -/
def digits (cs : List Char) : List Nat × List Char :=
  ((cs.takeWhile Char.isDigit).filterMap digit?, cs.dropWhile Char.isDigit)

/-- The fraction at the start: a point and at least one digit. -/
def fraction? : List Char → Option (Option (List Nat) × List Char)
  | '.' :: cs =>
    match digits cs with
    | ([], _) => none
    | (ds, rest) => some (some ds, rest)
  | cs => some (none, cs)

/-- The exponent at the start: the letter in either case, perhaps a sign, and at least one
digit. -/
def exponent? (cs : List Char) : Option (Option Int × List Char) :=
  let number (negative : Bool) (cs : List Char) : Option (Option Int × List Char) :=
    match digits cs with
    | ([], _) => none
    | (ds, rest) =>
      let n : Nat := ds.foldl (fun n d => n * 10 + d) 0
      some (some (if negative then -(n : Int) else (n : Int)), rest)
  match cs with
  | c :: rest =>
    if c == 'e' || c == 'E' then
      match rest with
      | '+' :: rest => number false rest
      | '-' :: rest => number true rest
      | _ => number false rest
    else some (none, cs)
  | [] => some (none, cs)

/-- The number at the start, after its sign. More than one digit before the point do not start
with a zero. -/
def number? (negative : Bool) (cs : List Char) : Option (Option Number × List Char) := do
  let (whole, rest) := digits cs
  if whole.isEmpty || (whole.head? == some 0 && whole.length != 1) then none
  else do
    let (fraction, rest) ← fraction? rest
    let (exponent, rest) ← exponent? rest
    some (Number.ofLiteral? ⟨negative, whole, fraction, exponent⟩, rest)

/-- The token at the start of a text that does not begin with a blank, and the rest. -/
def next? : List Char → Option (Token × List Char)
  | '[' :: rest => some (openArray, rest)
  | ']' :: rest => some (closeArray, rest)
  | '\x7b' :: rest => some (openObject, rest)
  | '\x7d' :: rest => some (closeObject, rest)
  | ',' :: rest => some (comma, rest)
  | ':' :: rest => some (colon, rest)
  | 'n' :: 'u' :: 'l' :: 'l' :: rest => some (null, rest)
  | 't' :: 'r' :: 'u' :: 'e' :: rest => some (bool true, rest)
  | 'f' :: 'a' :: 'l' :: 's' :: 'e' :: rest => some (bool false, rest)
  | '\x22' :: rest => do
    let (text, rest) ← stringFrom? (some []) rest
    some (str text, rest)
  | '-' :: rest => do
    let (n, rest) ← number? true rest
    some (num n, rest)
  | cs => do
    let (n, rest) ← number? false cs
    some (num n, rest)

/-- The tokens of a text, after those read so far in reverse. Each token takes at least one
character, so as many steps as there are characters are enough. -/
def scanFrom (acc : List Token) : Nat → List Char → Option (List Token)
  | 0, _ => none
  | fuel + 1, cs =>
    match cs.dropWhile isSpace with
    | [] => some acc.reverse
    | c :: rest => do
      let (t, rest) ← next? (c :: rest)
      scanFrom (t :: acc) fuel rest

/-- The tokens of a text. -/
def scan (s : String) : Option (List Token) :=
  scanFrom [] (s.utf8ByteSize + 1) s.toList

end Token

end RecordMapper.Json
