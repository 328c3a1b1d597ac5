import RecordMapper.Json.Basic
import RecordMapper.Json.Tree

/-!
# Reading a document

A document is a well-formed text whose strings all have a text, whose numbers all have a value
and whose arrays and objects are nested at most 127 deep. If an object repeats a key, the last
value wins and stands where the key came first.
-/

namespace RecordMapper.Json

/-- The deepest nesting of arrays and objects that a document may have. -/
def maxDepth : Nat := 127

/-- The members with repeated keys merged: the last value at the place of the first. -/
def mergeMembers (members : List (String × Json)) : List (String × Json) :=
  members.foldl (fun ms m => putMember m.1 m.2 ms) []

namespace Tree

mutual

/-- The value of a tree that may be nested so many levels more. -/
def value? (depth : Nat) : Tree → Option Json
  | null => some .null
  | bool b => some (.bool b)
  | num n => n.map .num
  | str s => s.map .str
  | arr items =>
    if depth = 0 then none else (values? (depth - 1) items).map .arr
  | obj members =>
    if depth = 0 then none
    else (memberValues? (depth - 1) members).map fun ms => .obj (mergeMembers ms)

/-- The values of the items of an array. -/
def values? (depth : Nat) : List Tree → Option (List Json)
  | [] => some []
  | t :: ts =>
    match value? depth t, values? depth ts with
    | some j, some js => some (j :: js)
    | _, _ => none

/-- The values of the members of an object, repeated keys included. -/
def memberValues? (depth : Nat) : List (Option String × Tree) → Option (List (String × Json))
  | [] => some []
  | (key, t) :: ts =>
    match key, value? depth t, memberValues? depth ts with
    | some k, some j, some js => some ((k, j) :: js)
    | _, _, _ => none

end

end Tree

/-- The document that a text holds. -/
def read? (s : String) : Option Json := do
  let t ← Tree.read? s
  t.value? maxDepth

end RecordMapper.Json
