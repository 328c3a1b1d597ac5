import RecordMapper.Path.Basic
import RecordMapper.Text.Blank

/-!
# JSONPath texts

A JSONPath is `$` and steps: `.name`, `.*`, `['name']`, `["name"]`, `[0]` and `[*]`. A name after
a point ends before the next point or opening bracket; in a quoted name a backslash takes the
next character literally. A path is concrete if it has no wildcard. A path is written with
brackets and quotes around each key that the notation with a point cannot carry.
-/

namespace RecordMapper.JsonPath

/-- One step as it is written. -/
inductive Token where
  | key (name : String)
  | index (digits : String)
  | wildcard
deriving DecidableEq

/-- Why the steps of a path are refused: a character with the offset at which it stands, or the
end of the text inside a bracket. -/
inductive Fault where
  | unexpected (offset : Nat) (found : Char)
  | unterminated
deriving DecidableEq

/-- Whether a character may stand in a name after a point. -/
def inName (c : Char) : Bool := c != '.' && c != '['

/-- The quote marks of both kinds. -/
def isQuote (c : Char) : Bool := c == '\x27' || c == '\x22'

/-- The name up to the closing quote mark, and the rest after that. -/
def quoted (mark : Char) : List Char → Option (List Char × List Char)
  | [] => none
  | ['\\'] => none
  | '\\' :: c :: rest => (quoted mark rest).map fun (name, rest) => (c :: name, rest)
  | c :: rest =>
    if c = mark then some ([], rest)
    else (quoted mark rest).map fun (name, rest) => (c :: name, rest)

/-- What stands between brackets, and the rest from the closing bracket on. An offset is the
length `n` of the whole text less what is left from the character on. -/
def content (n : Nat) : List Char → Except Fault (Token × List Char)
  | [] => .error .unterminated
  | c :: rest =>
    if c = '*' then .ok (.wildcard, rest)
    else if isQuote c then
      match quoted c rest with
      | some (name, rest) => .ok (.key (String.ofList name), rest)
      | none => .error .unterminated
    else if c.isDigit then
      .ok (.index (String.ofList ((c :: rest).takeWhile Char.isDigit)),
        (c :: rest).dropWhile Char.isDigit)
    else .error (.unexpected (n - (c :: rest).length) c)

/-- The step after an opening bracket, and the rest after the closing one. -/
def bracket (n : Nat) (cs : List Char) : Except Fault (Token × List Char) :=
  match content n cs with
  | .error e => .error e
  | .ok (token, rest) =>
    match rest with
    | ']' :: rest => .ok (token, rest)
    | c :: rest => .error (.unexpected (n - (c :: rest).length) c)
    | [] => .error .unterminated

theorem quoted_length {mark : Char} {cs name rest : List Char}
    (h : quoted mark cs = some (name, rest)) : rest.length < cs.length := by
  fun_induction quoted mark cs generalizing name rest with
  | case1 => simp at h
  | case2 => simp at h
  | case3 c tail ih =>
    obtain ⟨⟨a, b⟩, hq, he⟩ := Option.map_eq_some_iff.1 h
    obtain ⟨rfl, rfl⟩ := Prod.mk.inj he
    have := ih hq
    simp only [List.length_cons]
    omega
  | case4 =>
    simp only [Option.some.injEq, Prod.mk.injEq] at h
    simp [← h.2]
  | case5 c tail _ _ _ ih =>
    obtain ⟨⟨a, b⟩, hq, he⟩ := Option.map_eq_some_iff.1 h
    obtain ⟨rfl, rfl⟩ := Prod.mk.inj he
    have := ih hq
    simp only [List.length_cons]
    omega

theorem length_dropWhile_le {α : Type} (p : α → Bool) (cs : List α) :
    (cs.dropWhile p).length ≤ cs.length :=
  (List.dropWhile_suffix p).sublist.length_le

theorem content_length {n : Nat} {cs rest : List Char} {t : Token}
    (h : content n cs = .ok (t, rest)) : rest.length < cs.length := by
  unfold content at h
  split at h
  · simp at h
  · rename_i c tail
    split at h
    · simp only [Except.ok.injEq, Prod.mk.injEq] at h
      simp [← h.2]
    · split at h
      · split at h
        · rename_i hq
          simp only [Except.ok.injEq, Prod.mk.injEq] at h
          have := quoted_length hq
          simp only [List.length_cons, ← h.2]
          omega
        · simp at h
      · split at h
        · rename_i hd
          simp only [Except.ok.injEq, Prod.mk.injEq] at h
          have := length_dropWhile_le Char.isDigit tail
          simp only [List.length_cons, ← h.2, List.dropWhile_cons, hd, if_true]
          omega
        · simp at h

/-- A bracketed step takes at least two characters after the opening bracket. -/
theorem bracket_length {n : Nat} {cs rest : List Char} {t : Token}
    (h : bracket n cs = .ok (t, rest)) : rest.length < cs.length := by
  unfold bracket at h
  split at h
  · simp at h
  · rename_i hc
    have := content_length hc
    split at h <;> simp only [Except.ok.injEq, Prod.mk.injEq, reduceCtorEq] at h
    simp only [List.length_cons] at this
    rw [← h.2]
    omega

/-- The steps of a text of length `n` from one place on. -/
def steps (n : Nat) (cs : List Char) : Except Fault (List Token) :=
  match cs with
  | [] => .ok []
  | '.' :: '*' :: rest => (steps n rest).map (.wildcard :: ·)
  | '.' :: rest =>
    if (rest.takeWhile inName).isEmpty then .error (.unexpected (n - ('.' :: rest).length) '.')
    else
      have := length_dropWhile_le inName rest
      (steps n (rest.dropWhile inName)).map
        (.key (String.ofList (rest.takeWhile inName)) :: ·)
  | '[' :: rest =>
    match h : bracket n rest with
    | .error e => .error e
    | .ok (token, rest') =>
      have := bracket_length h
      (steps n rest').map (token :: ·)
  | c :: rest => .error (.unexpected (n - (c :: rest).length) c)
termination_by cs.length
decreasing_by all_goals simp only [List.length_cons]; omega

/-- The steps of a JSONPath, wildcards included. Blanks around the path are ignored, and offsets
count from its first character that is not blank. -/
def tokenize (path : String) : Except PathError (List Token) :=
  match Text.trimChars path.toList with
  | '$' :: rest =>
    match steps (rest.length + 1) rest with
    | .ok tokens => .ok tokens
    | .error (.unexpected offset found) => .error (.unexpected path offset found)
    | .error .unterminated => .error (.unterminated path)
  | _ => .error (.missingRoot path)

/-- The segment that a step denotes; a wildcard denotes none. -/
def Token.segment? : Token → Option Segment
  | key name => some (.key name)
  | index digits => some (.index digits)
  | wildcard => none

/-- The path that a concrete JSONPath denotes. -/
def parse (path : String) : Except PathError Path :=
  match tokenize path with
  | .error e => .error e
  | .ok tokens =>
    match tokens.mapM Token.segment? with
    | some segments => .ok (Segment.root :: segments)
    | none => .error (.wildcard path)

/-- Whether a key has to be written in brackets and quotes. -/
def needsBrackets (name : List Char) : Bool :=
  name.isEmpty || name.any fun c =>
    c == '.' || c == '[' || c == ']' || isQuote c || c == '\\' || c == '*' || Text.isBlank c

/-- The characters of a quoted key, with a backslash before each backslash and single quote
mark. -/
def escape : List Char → List Char
  | [] => []
  | c :: rest => if c = '\\' ∨ c = '\x27' then '\\' :: c :: escape rest else c :: escape rest

/-- The text of one step. -/
def renderSegment : Segment → List Char
  | .index digits => '[' :: digits.toList ++ [']']
  | .key name =>
    if needsBrackets name.toList then
      ['[', '\x27'] ++ escape name.toList ++ ['\x27', ']']
    else '.' :: name.toList

/-- The JSONPath to a path. -/
def render (path : Path) : String :=
  String.ofList ('$' :: path.steps.flatMap renderSegment)

end RecordMapper.JsonPath
