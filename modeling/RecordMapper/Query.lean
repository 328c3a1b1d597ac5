import RecordMapper.Json.Basic
import RecordMapper.Path.JsonPath
import RecordMapper.Path.Pointer

/-!
# Queries on a document

A pointer leads to exactly one value, and each step that leads nowhere is an error. A JSONPath
selects all values that match it, in document order, and steps that lead nowhere select nothing.
A component of digits is an index in an array and a key in an object.
-/

namespace RecordMapper

/-- Why a query has no answer. -/
inductive QueryError where
  | badPath (cause : PathError)
  | notFound (query segment : String)
  | typeMismatch (query segment found : String)
  | notText (found : String)
deriving DecidableEq

/-- The text of a query error. -/
def QueryError.message : QueryError → String
  | badPath cause => "Invalid query syntax: " ++ cause.message
  | notFound query segment =>
    "Nothing found at '" ++ query ++ "' (missing '" ++ segment ++ "')"
  | typeMismatch query segment found =>
    "Cannot step into " ++ found ++ " with '" ++ segment ++ "' while resolving '" ++ query ++ "'"
  | notText found => "Query must be a string, got " ++ found

namespace Pointer

/-- The value one step below a value. -/
def step (query : String) (value : Json) (s : Segment) : Except QueryError Json :=
  match value with
  | .obj members =>
    match members.lookup s.text with
    | some v => .ok v
    | none => .error (.notFound query s.text)
  | .arr items =>
    if s.isIndex then
      match s.place?.bind (items[·]?) with
      | some v => .ok v
      | none => .error (.notFound query s.text)
    else .error (.typeMismatch query s.text "array")
  | other => .error (.typeMismatch query s.text other.typeName)

/-- The value that a path leads to, step by step. -/
def follow (query : String) (value : Json) : List Segment → Except QueryError Json
  | [] => .ok value
  | s :: rest =>
    match step query value s with
    | .ok v => follow query v rest
    | .error e => .error e

/-- The value that a pointer leads to in a document. -/
def resolve (pointer : String) (document : Json) : Except QueryError Json :=
  match parse pointer with
  | .ok path => follow pointer document path.tail
  | .error e => .error (.badPath e)

end Pointer

namespace JsonPath

/-- The values that one step selects below a value. -/
def select (value : Json) : Token → List Json
  | .key name =>
    match value with
    | .obj members => (members.lookup name).toList
    | _ => []
  | .index digits =>
    match value with
    | .arr items => ((indexValue? digits).bind (items[·]?)).toList
    | _ => []
  | .wildcard =>
    match value with
    | .obj members => members.map (·.2)
    | .arr items => items
    | _ => []

/-- The values that steps select, starting from several values. -/
def selectAll (values : List Json) : List Token → List Json
  | [] => values
  | t :: rest => selectAll (values.flatMap fun v => select v t) rest

/-- The values of a document that match a JSONPath. -/
def findAll (path : String) (document : Json) : Except QueryError (List Json) :=
  match tokenize path with
  | .ok tokens => .ok (selectAll [document] tokens)
  | .error e => .error (.badPath e)

end JsonPath

end RecordMapper
