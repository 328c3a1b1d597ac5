import RecordMapper.Text.Digits

/-!
# Paths into a document

A path is a list of segments, from the root segment on. A segment is the key of an object
member or the index of an array item. An index keeps its text, leading zeros included; it is
usable if it denotes a number of at most 64 bits.
-/

namespace RecordMapper

/-- One step of a path. -/
inductive Segment where
  | key (name : String)
  | index (digits : String)
deriving DecidableEq

/-- A path: segments in order, the root segment first. -/
abbrev Path := List Segment

/-- Why the text of a path or of a pointer is refused. -/
inductive PathError where
  | missingRoot (path : String)
  | missingSlash (pointer : String)
  | unexpected (path : String) (offset : Nat) (found : Char)
  | unterminated (path : String)
  | badEscape (pointer : String) (found : Option Char)
  | wildcard (path : String)
deriving DecidableEq

/-- The text of a path error. -/
def PathError.message : PathError → String
  | missingRoot path => "JSONPath '" ++ path ++ "' must start with '$'"
  | missingSlash pointer =>
    "JSON Pointer '" ++ pointer ++ "' must be empty or start with '/'"
  | unexpected path offset found =>
    "Unexpected '" ++ String.singleton found ++ "' at offset " ++ toString offset ++
      " in '" ++ path ++ "'"
  | unterminated path => "Unterminated bracket in '" ++ path ++ "'"
  | badEscape pointer found =>
    "Invalid escape '~" ++ String.ofList found.toList ++ "' in JSON Pointer '" ++ pointer ++ "'"
  | wildcard path => "Wildcards are not allowed in a concrete path: '" ++ path ++ "'"

namespace Segment

/-- The segment that every path starts with. -/
def root : Segment := key "$"

/-- The text of a segment. -/
def text : Segment → String
  | key name => name
  | index digits => digits

/-- Whether a segment is an index. -/
def isIndex : Segment → Bool
  | key _ => false
  | index _ => true

/-- Whether a segment is a key that reads like the root segment. -/
def isRoot (s : Segment) : Bool := s == root

end Segment

/-- The first place that does not fit 64 bits. -/
def placeLimit : Nat := 0x10000000000000000

/-- The place that the text of an index denotes, none if it has no number or more than 64 bits.
A plus sign before the digits changes nothing. -/
def indexValue? (text : String) : Option Nat :=
  let digits := match text.toList with
    | '+' :: rest => rest
    | cs => cs
  if Text.isDigits digits && Text.digitsValue digits < placeLimit then
    some (Text.digitsValue digits)
  else none

/-- The place that an index segment denotes; none for a key. -/
def Segment.place? : Segment → Option Nat
  | .key _ => none
  | .index digits => indexValue? digits

namespace Path

/-- The path of the whole document. -/
def root : Path := [Segment.root]

/-- The segments after the root segment. -/
def steps : Path → List Segment
  | [] => []
  | s :: rest => if s.isRoot then rest else s :: rest

/-- Whether `path` leads into an item of the array at `array`, or beyond: it continues `array`,
and does so with an index. -/
def isWithinArray (path array : Path) : Bool :=
  array.isPrefixOf path &&
    match path.drop array.length with
    | s :: _ => s.isIndex
    | [] => false

end Path

end RecordMapper
