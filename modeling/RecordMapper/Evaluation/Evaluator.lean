import RecordMapper.Evaluation.Error

/-!
# Evaluators

An evaluator turns a document into a value or a failure. It may also read the number of the
document in its batch and the name of the design that it belongs to. The evaluators below are
those that blocks are made into.
-/

namespace RecordMapper

/-- What an evaluator may read. -/
structure Context where
  document : Json
  index : Nat
  design : String

/-- What is evaluated once for each document. -/
abbrev Evaluator := Context → Outcome

namespace Evaluator

/-- The same value for every document. -/
def const (value : Json) : Evaluator := fun _ => .ok value

/-- The answer of a pointer: the value that it leads to. -/
def pointer (query : String) : Evaluator := fun context =>
  match Pointer.resolve query context.document with
  | .ok value => .ok value
  | .error e => .error (.query e)

/-- The answer of a path: the array of all values that match it. -/
def path (query : String) : Evaluator := fun context =>
  match JsonPath.findAll query context.document with
  | .ok values => .ok (.arr values)
  | .error e => .error (.query e)

/-- The answer of a query that another evaluator gives, which has to be a text. -/
def queryOf (run : String → Evaluator) (query : Evaluator) : Evaluator := fun context =>
  match query context with
  | .ok (.str text) => run text context
  | .ok other => .error (.query (.notText other.typeName))
  | .error e => .error e

/-- The values of evaluators as an array; the first failure wins. -/
def list (items : List Evaluator) : Evaluator := fun context =>
  (items.mapM fun (item : Evaluator) => item context).map Json.arr

/-- A value that is logged under a description and handed on unchanged. -/
def log (_description : String) (value : Evaluator) : Evaluator := value

/-- A value with a fallback, which is evaluated only if it is needed. -/
def otherwise (value other : Evaluator) : Evaluator := fun context =>
  (value context).otherwise fun _ => other context

/-- The message that a value is: a string as it is, nothing for null, and the compact text of any
other value. -/
def messageOf : Json → String
  | .str s => s
  | .null => ""
  | j => j.render

/-- An explicit stop. The message is evaluated first, and a failure of that comes instead. -/
def stop (message : Option Evaluator) : Evaluator := fun context =>
  match message with
  | none => .error (Outcome.stop (some ""))
  | some message =>
    match message context with
    | .ok value => .error (Outcome.stop (some (messageOf value)))
    | .error e => .error e

end Evaluator

end RecordMapper
