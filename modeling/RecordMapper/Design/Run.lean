import RecordMapper.Design.Basic

/-!
# Runs

A run applies every design to every document, the designs outermost. A later record takes the
place of an earlier one with the same id. When all records are there, backlinks are inferred in
one pass: what it adds is worked out before anything is added, so no addition leads to another.
-/

namespace RecordMapper

/-- The kinds of failure that are tolerated unless a configuration says otherwise. -/
def ErrorKind.defaultTolerable : List ErrorKind := [.queryNotFound, .queryTypeMismatch]

/-- What is counted in a run. -/
structure Stats where
  designs : Nat
  documents : Nat
  records : Nat
  skipped : Nat
  droppedValues : Nat
  inferredLinks : Nat
  replaced : Nat
deriving DecidableEq

namespace Run

/-- What a run has come to: the records in the order of their ids' first coming, the rules, and
the counts of skipped pairs, dropped values and replaced records. -/
structure State where
  records : List Record
  rules : List Rule
  skipped : Nat
  dropped : Nat
  replaced : Nat

/-- The state before anything was applied. -/
def State.start : State := ⟨[], [], 0, 0, 0⟩

/-- The records with one put in: in place of the one with its id, or else at the end. -/
def putRecord (record : Record) : List Record → List Record
  | [] => [record]
  | r :: rest => if r.id = record.id then record :: rest else r :: putRecord record rest

theorem ids_putRecord (record : Record) (rs : List Record) :
    (putRecord record rs).map Record.id =
      if record.id ∈ rs.map Record.id then rs.map Record.id else rs.map Record.id ++ [record.id] := by
  induction rs with
  | nil => simp [putRecord]
  | cons r rest ih =>
    by_cases h : r.id = record.id
    · simp [putRecord, h]
    · simp only [putRecord, if_neg h, List.map_cons, ih, List.mem_cons, Ne.symm h, false_or]
      split <;> rfl

/-- The state after a design was applied to a document. -/
def State.add (s : State) : Applied → State
  | .skipped => { s with skipped := s.skipped + 1 }
  | .recorded record rules dropped =>
    { records := putRecord record s.records
      rules := Rule.putAll rules s.rules
      skipped := s.skipped
      dropped := s.dropped + dropped
      replaced := s.replaced + if s.records.any (·.id == record.id) then 1 else 0 }

/-- The pairs of a design and a numbered document, in the order in which they are applied. -/
def pairs (designs : List Design) (documents : List Json) : List (Design × Nat × Json) :=
  designs.flatMap fun d => documents.zipIdx.map fun (document, index) => (d, index, document)

/-- The state after one more pair. -/
def step (tolerable : List ErrorKind) (s : State) (pair : Design × Nat × Json) :
    Except RunError State :=
  match pair.1.apply tolerable pair.2.1 pair.2.2 with
  | .ok applied => .ok (s.add applied)
  | .error e => .error e

/-! ## Backlinks -/

/-- A link to be added: the receiving record, the key, and the id of the sending record. -/
structure Link where
  receiver : String
  key : String
  sender : String

/-- The entry that a link adds to its receiver. -/
def Link.entry (link : Link) : Entry := ⟨link.key, .text link.sender⟩

/-- Whether a record meets the condition of a rule. -/
def meets (record : Record) (rule : Rule) : Bool :=
  record.holds ⟨rule.forward, .text rule.receiver⟩

/-- The links that records and rules ask for: for each record in order, each rule in order whose
condition it meets. -/
def links (records : List Record) (rules : List Rule) : List Link :=
  records.flatMap fun record =>
    (rules.filter (meets record)).map fun rule => ⟨rule.target, rule.backward, record.id⟩

/-- The records with a link added, and whether it was new. A link to a record that is not there
adds nothing. -/
def addLink (link : Link) : List Record → List Record × Bool
  | [] => ([], false)
  | r :: rest =>
    if r.id = link.receiver then (r.addEntry link.entry :: rest, !r.holds link.entry)
    else
      let (rest, new) := addLink link rest
      (r :: rest, new)

theorem ids_addLink (link : Link) (rs : List Record) :
    (addLink link rs).1.map Record.id = rs.map Record.id := by
  induction rs with
  | nil => rfl
  | cons r rest ih =>
    unfold addLink
    split
    · simp [Record.id_addEntry]
    · simp [ih]

/-- The records with links added in order, and how many of them were new. -/
def addLinks (ls : List Link) (records : List Record) : List Record × Nat :=
  ls.foldl (fun (records, n) link =>
    let (records, new) := addLink link records
    (records, if new then n + 1 else n)) (records, 0)

/-- The records with all backlinks, and how many entries those are. -/
def inferBacklinks (records : List Record) (rules : List Rule) : List Record × Nat :=
  addLinks (links records rules) records

end Run

/-- The records of a run, each under its own id, with what was counted. -/
structure RecordGraph where
  records : List Record
  stats : Stats

namespace RecordGraph

/-- The record of an id. -/
def get? (id : String) (g : RecordGraph) : Option Record := g.records.find? (·.id == id)

/-- The graph as it is handed on. -/
def toJson (g : RecordGraph) : Json := .arr (g.records.map Record.toJson)

end RecordGraph

/-- The records that designs make of documents; any failure that is not tolerated is the result
of the whole run. -/
def run (designs : List Design) (tolerable : List ErrorKind) (documents : List Json) :
    Except RunError RecordGraph := do
  let s ← (Run.pairs designs documents).foldlM (Run.step tolerable) Run.State.start
  let (records, inferred) := Run.inferBacklinks s.records s.rules
  .ok ⟨records,
    { designs := designs.length
      documents := documents.length
      records := records.length
      skipped := s.skipped
      droppedValues := s.dropped
      inferredLinks := inferred
      replaced := s.replaced }⟩

end RecordMapper
