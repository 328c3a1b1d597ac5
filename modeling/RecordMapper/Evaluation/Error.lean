import RecordMapper.Query
import RecordMapper.Record.Atom

/-!
# Failed evaluations

An evaluation fails because of a query, because the design asks to stop, or for a stated reason.
Each failure is of one kind; a run is told which kinds it may tolerate.
-/

namespace RecordMapper

/-- The kinds of failure. -/
inductive ErrorKind where
  | querySyntax
  | queryNotFound
  | queryTypeMismatch
  | stopped
  | failed
deriving DecidableEq

/-- The name of a kind, as configurations give it. -/
def ErrorKind.name : ErrorKind → String
  | querySyntax => "query-syntax"
  | queryNotFound => "query-not-found"
  | queryTypeMismatch => "query-type-mismatch"
  | stopped => "stopped"
  | failed => "failed"

/-- All kinds. -/
def ErrorKind.all : List ErrorKind :=
  [querySyntax, queryNotFound, queryTypeMismatch, stopped, failed]

/-- The kind of a name. -/
def ErrorKind.ofName? (name : String) : Option ErrorKind :=
  all.find? (·.name == name)

theorem ErrorKind.ofName?_name (kind : ErrorKind) : ErrorKind.ofName? kind.name = some kind := by
  cases kind <;> decide

/-- Why an evaluation failed. -/
inductive EvalError where
  | query (cause : QueryError)
  | stopped (message : String)
  | failed (reason : String)
deriving DecidableEq

/-- The text of a failure. -/
def EvalError.message : EvalError → String
  | query cause => cause.message
  | stopped message => "Design stopped. " ++ message
  | failed reason => reason

/-- The kind of a failure. -/
def EvalError.kind : EvalError → ErrorKind
  | query (.badPath _) => .querySyntax
  | query (.notText _) => .querySyntax
  | query (.notFound _ _) => .queryNotFound
  | query (.typeMismatch _ _ _) => .queryTypeMismatch
  | stopped _ => .stopped
  | failed _ => .failed

/-- What an evaluation comes to. -/
abbrev Outcome := Except EvalError Json

namespace Outcome

/-- A value that is not empty-ish, or else the outcome of the fallback. Only an explicit stop
passes the fallback by. -/
def otherwise (first : Outcome) (fallback : Unit → Outcome) : Outcome :=
  match first with
  | .ok value => if value.isEmptyish then fallback () else .ok value
  | .error (.stopped message) => .error (.stopped message)
  | .error _ => fallback ()

/-- The stop with a message, or with a standard one if the message is blank. -/
def stop (message : Option String) : EvalError :=
  match message with
  | some m => if Text.isBlankText m then .stopped "No error message provided" else .stopped m
  | none => .stopped "No error message provided"

end Outcome

end RecordMapper
