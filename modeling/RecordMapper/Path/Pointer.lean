import RecordMapper.Path.Basic

/-!
# JSON Pointers

A pointer is empty, or components with a slash before each. In a component `~0` stands for a
tilde and `~1` for a slash, and a tilde stands nowhere else. A component is an index exactly if
it is made of one or more ASCII digits.
-/

namespace RecordMapper.Pointer

/-- The parts of a text between slashes; one more than there are slashes. -/
def components : List Char → List (List Char)
  | [] => [[]]
  | c :: cs =>
    if c = '/' then [] :: components cs
    else
      match components cs with
      | [] => [[c]]
      | part :: parts => (c :: part) :: parts

/-- The text that a component stands for, or what stands in place of `0` or `1` after a
tilde. -/
def unescape : List Char → Except (Option Char) (List Char)
  | [] => .ok []
  | '~' :: '0' :: rest => (unescape rest).map ('~' :: ·)
  | '~' :: '1' :: rest => (unescape rest).map ('/' :: ·)
  | '~' :: c :: _ => .error (some c)
  | ['~'] => .error none
  | c :: rest => (unescape rest).map (c :: ·)

/-- A component with its tildes and slashes escaped. -/
def escape : List Char → List Char
  | [] => []
  | c :: rest =>
    if c = '~' then '~' :: '0' :: escape rest
    else if c = '/' then '~' :: '1' :: escape rest
    else c :: escape rest

/-- The segment for an unescaped component. -/
def segmentOf (component : List Char) : Segment :=
  if Text.isDigits component then .index (String.ofList component)
  else .key (String.ofList component)

/-- The path that a pointer denotes. -/
def parse (pointer : String) : Except PathError Path :=
  match pointer.toList with
  | [] => .ok Path.root
  | '/' :: rest =>
    match (components rest).mapM unescape with
    | .ok parts => .ok (Segment.root :: parts.map segmentOf)
    | .error found => .error (.badEscape pointer found)
  | _ => .error (.missingSlash pointer)

/-- The pointer to a path. -/
def render (path : Path) : String :=
  String.ofList (path.steps.flatMap fun s => '/' :: escape s.text.toList)

end RecordMapper.Pointer
