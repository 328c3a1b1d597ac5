import RecordMapper.Evaluation.Evaluator
import RecordMapper.Record.Basic

/-!
# Designs

A design says how a record is made from a document: its id, perhaps a persistent identifier, a
condition under which the document is skipped, and values under keys. A backlink under a key asks
for a link back to every record that links to this one in a given way.
-/

namespace RecordMapper

/-- What is registered under a key: an evaluator, or a backlink for links under another key. -/
inductive Source where
  | value (evaluator : Evaluator)
  | backlink (forward : String)

/-- A design. Evaluators are grouped by key, the keys in the order in which they first came;
backlinks are pairs of the key of the link and the key of the link back, all different. -/
structure Design where
  name : String
  id : Option Evaluator
  pid : Option Evaluator
  skip : Option Evaluator
  attributes : List (String × List Evaluator)
  backlinks : List (String × String)

/-- Why an id cannot be used. -/
inductive BadId where
  | notText (value : Json)
  | empty

/-- The text of why an id cannot be used. -/
def BadId.message : BadId → String
  | notText value => "expected a string, got " ++ value.render
  | empty => "the id is empty"

/-- Why a run is aborted; documents are counted from 0. -/
inductive RunError where
  | missingId (design : String)
  | id (design : String) (document : Nat) (cause : EvalError)
  | badId (design : String) (document : Nat) (reason : BadId)
  | pid (design : String) (document : Nat) (cause : EvalError)
  | skip (design : String) (document : Nat) (cause : EvalError)
  | value (design key : String) (document : Nat) (cause : EvalError)

namespace RunError

/-- The end of most texts: the document and what failed. -/
def place (document : Nat) (cause : String) : String :=
  " for document #" ++ toString document ++ ": " ++ cause

/-- The text of a run error. -/
def message : RunError → String
  | missingId design => "Design '" ++ design ++ "' has no id evaluator"
  | id design document cause =>
    "Design '" ++ design ++ "' failed to compute an id" ++ place document cause.message
  | badId design document reason =>
    "Design '" ++ design ++ "' produced an unusable id" ++ place document reason.message
  | pid design document cause =>
    "Design '" ++ design ++ "' failed to compute a pid" ++ place document cause.message
  | skip design document cause =>
    "Design '" ++ design ++ "' failed to evaluate its skip condition" ++
      place document cause.message
  | value design key document cause =>
    "Design '" ++ design ++ "' failed on attribute '" ++ key ++ "'" ++
      place document cause.message

/-- The failed evaluation behind a run error, if there is one. -/
def cause? : RunError → Option EvalError
  | missingId _ => none
  | badId _ _ _ => none
  | id _ _ cause => some cause
  | pid _ _ cause => some cause
  | skip _ _ cause => some cause
  | value _ _ _ cause => some cause

end RunError

/-- A rule of inference: a record that holds `receiver` under `forward` asks for its own id under
`backward` in the record `target`. -/
structure Rule where
  forward : String
  receiver : String
  target : String
  backward : String

/-- The rules with one more. There is one rule for a condition: a later one takes the place of an
earlier one. -/
def Rule.put (rule : Rule) : List Rule → List Rule
  | [] => [rule]
  | r :: rest =>
    if r.forward = rule.forward ∧ r.receiver = rule.receiver then rule :: rest
    else r :: put rule rest

/-- The rules with several more, in order. -/
def Rule.putAll (new : List Rule) (rules : List Rule) : List Rule :=
  new.foldl (fun rules r => r.put rules) rules

/-- What a design comes to on a document. -/
inductive Applied where
  | skipped
  | recorded (record : Record) (rules : List Rule) (dropped : Nat)

namespace Design

/-- The design of a name that says nothing yet. -/
def empty (name : String) : Design := ⟨name, none, none, none, [], []⟩

/-- The groups with an evaluator added to the group of a key. -/
def addEvaluator (key : String) (e : Evaluator) :
    List (String × List Evaluator) → List (String × List Evaluator)
  | [] => [(key, [e])]
  | (k, es) :: rest =>
    if k = key then (k, es ++ [e]) :: rest else (k, es) :: addEvaluator key e rest

theorem keys_addEvaluator (key : String) (e : Evaluator) (groups : List (String × List Evaluator)) :
    (addEvaluator key e groups).map (·.1) =
      if key ∈ groups.map (·.1) then groups.map (·.1) else groups.map (·.1) ++ [key] := by
  induction groups with
  | nil => simp [addEvaluator]
  | cons g rest ih =>
    obtain ⟨k, es⟩ := g
    by_cases h : k = key
    · simp [addEvaluator, h]
    · simp only [addEvaluator, if_neg h, List.map_cons, ih, List.mem_cons, Ne.symm h, false_or]
      split <;> rfl

/-- The design with a source registered under a key. A backlink that it has already changes
nothing. -/
def add (key : String) (source : Source) (d : Design) : Design :=
  match source with
  | .value e => { d with attributes := addEvaluator key e d.attributes }
  | .backlink forward =>
    if (forward, key) ∈ d.backlinks then d
    else { d with backlinks := d.backlinks ++ [(forward, key)] }

/-- The keys under which there are evaluators. -/
def keys (d : Design) : List String := d.attributes.map (·.1)

/-- All evaluators with their keys, in the order in which they are evaluated. -/
def evaluators (d : Design) : List (String × Evaluator) :=
  d.attributes.flatMap fun (key, es) => es.map (key, ·)

/-- Whether the design skips a document. -/
def skips (d : Design) (context : Context) : Except RunError Bool :=
  match d.skip with
  | none => .ok false
  | some condition =>
    match condition context with
    | .ok value => .ok value.isTruthy
    | .error e => .error (.skip d.name context.index e)

/-- The id of the record of a document. -/
def idFor (d : Design) (context : Context) : Except RunError String :=
  match d.id with
  | none => .error (.missingId d.name)
  | some evaluator =>
    match evaluator context with
    | .error e => .error (.id d.name context.index e)
    | .ok value =>
      match value.identifier? with
      | none => .error (.badId d.name context.index (.notText value))
      | some id => if id.isEmpty then .error (.badId d.name context.index .empty) else .ok id

/-- The persistent identifier of the record of a document; a value without a text is none. -/
def pidFor (d : Design) (context : Context) : Except RunError (Option String) :=
  match d.pid with
  | none => .ok none
  | some evaluator =>
    match evaluator context with
    | .ok value => .ok (value.identifier?.filter fun pid => !pid.isEmpty)
    | .error e => .error (.pid d.name context.index e)

/-- The record, and the number of values dropped from it, after one more evaluator. A failure of a
tolerable kind drops the value; any other one aborts. -/
def addTo (d : Design) (tolerable : List ErrorKind) (context : Context) (acc : Record × Nat)
    (entry : String × Evaluator) : Except RunError (Record × Nat) :=
  match entry.2 context with
  | .ok value => .ok (acc.1.addValue entry.1 value, acc.2)
  | .error e =>
    if e.kind ∈ tolerable then .ok (acc.1, acc.2 + 1)
    else .error (.value d.name entry.1 context.index e)

/-- The rules that the backlinks of a design give for the record of an id. -/
def rulesFor (d : Design) (id : String) : List Rule :=
  Rule.putAll (d.backlinks.map fun (forward, backward) => ⟨forward, id, id, backward⟩) []

/-- What a design comes to on a document: first the skip condition, then the id, the persistent
identifier and the values. -/
def apply (d : Design) (tolerable : List ErrorKind) (index : Nat) (document : Json) :
    Except RunError Applied := do
  let context : Context := ⟨document, index, d.name⟩
  if ← d.skips context then .ok .skipped
  else
    let id ← d.idFor context
    let pid ← d.pidFor context
    let start : Record := ⟨id, pid, []⟩
    let (record, dropped) ← d.evaluators.foldlM (d.addTo tolerable context) (start, 0)
    .ok (.recorded record (d.rulesFor id) dropped)

end Design

end RecordMapper
