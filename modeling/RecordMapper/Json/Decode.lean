import RecordMapper.Json.Basic
import RecordMapper.Text.Debug

/-!
# Values of an unexpected shape

When a value is to be read as something in particular, the first one that has another shape
decides the error.
-/

namespace RecordMapper

/-- Why a value cannot be read as what is wanted. -/
inductive DecodeError where
  /-- the value has another shape -/
  | unexpected (found : Json) (wanted : String)
  /-- an object lacks a member that it must have -/
  | missing (name : String)
  /-- an array that stands for an object lacks an item that it must have -/
  | tooShort (length : Nat) (wanted : String)
  /-- an array that stands for an object has more items than the object has members -/
  | tooLong (length : Nat)

/-- What an error text says of a value that was found. -/
def Json.describe : Json → String
  | .null => "null"
  | .bool b => "boolean `" ++ (if b then "true" else "false") ++ "`"
  | .num (.int n) => "integer `" ++ toString n ++ "`"
  | .num (.float x) => "floating point `" ++ Number.render (.float x) ++ "`"
  | .str s => "string " ++ Text.debugQuote s
  | .arr _ => "sequence"
  | .obj _ => "map"

namespace DecodeError

/-- The text of the error. -/
def message : DecodeError → String
  | unexpected found wanted => "invalid type: " ++ found.describe ++ ", expected " ++ wanted
  | missing name => "missing field `" ++ name ++ "`"
  | tooShort length wanted => "invalid length " ++ toString length ++ ", expected " ++ wanted
  | tooLong length =>
    "invalid length " ++ toString length ++ ", expected fewer elements in array"

end DecodeError

namespace Json

/-- The text that a string value is. -/
def asText : Json → Except DecodeError String
  | .str s => .ok s
  | j => .error (.unexpected j "a string")

/-- The members that an object value has. -/
def asMembers : Json → Except DecodeError (List (String × Json))
  | .obj ms => .ok ms
  | j => .error (.unexpected j "a map")

/-- The items that an array value has. -/
def asItems : Json → Except DecodeError (List Json)
  | .arr js => .ok js
  | j => .error (.unexpected j "a sequence")

/-- What null stands for, which is nothing, or else what the value is read as. -/
def asOption {α : Type} (read : Json → Except DecodeError α) : Json → Except DecodeError (Option α)
  | .null => .ok none
  | j => (read j).map some

/-- The members of something that is written as an object, or as an array of the values of its
first members in order. Members of the array form that are left out take their defaults. -/
def asFields (wanted : String) (names : List String) :
    Json → Except DecodeError (List (String × Json))
  | .obj ms => .ok ms
  | .arr js => .ok (names.zip js)
  | j => .error (.unexpected j wanted)

/-- Refuses an array form with more items than there are members. -/
def checkLength (names : List String) : Json → Except DecodeError Unit
  | .arr js => if names.length < js.length then .error (.tooLong js.length) else .ok ()
  | _ => .ok ()

end Json

end RecordMapper
