import RecordMapper.Block.Graph
import RecordMapper.Design.Basic

/-!
# Designs of a graph

Each top-level record becomes a design. What would come to empty code in a program comes to no
evaluator here, and what it belongs to is left out. A key has to be known before any document is:
it is evaluated once, against null.
-/

namespace RecordMapper.Block

/-- The evaluator, or that of null if there is none. -/
def orNull (e : Option Evaluator) : Evaluator := e.getD (Evaluator.const .null)

/-- The evaluator of a query that is known. -/
def runQuery : QueryLanguage → String → Evaluator
  | .pointer, query => Evaluator.pointer query
  | .path, query => Evaluator.path query

mutual

/-- The evaluator of a value block, none if the block comes to nothing. -/
def compile : Block → GraphResult (Option Evaluator)
  | record id localId skip body =>
    .error (.malformed (.statementInValueSlot id (type (record id localId skip body))))
  | attr id key value => .error (.malformed (.statementInValueSlot id (type (attr id key value))))
  | profile id descriptor inputs =>
    .error (.malformed (.statementInValueSlot id (type (profile id descriptor inputs))))
  | fieldQuery _ _ query => .ok (if query.isEmpty then none else some (Evaluator.pointer query))
  | slotQuery _ form query => do
    let query ← compileSlot query
    .ok (query.map (Evaluator.queryOf (runQuery form.language)))
  | stop _ message => do
    let message ← compileSlot message
    .ok (some (Evaluator.stop message))
  | log _ description value => do
    let value ← compileSlot value
    .ok (some (Evaluator.log description (orNull value)))
  | otherwise _ value other => do
    let value ← compileSlot value
    let other ← compileSlot other
    .ok (some (Evaluator.otherwise (orNull value) (orNull other)))
  | backlink id _ => .error (.malformed (.strayBacklink id))
  | reference _ pid => .ok (if pid.isEmpty then none else some (Evaluator.const (.str pid)))
  | literal _ value => .ok (some (Evaluator.const value.toJson))
  | list _ items => do
    let items ← compileAll items
    .ok (some (Evaluator.list items))

/-- The evaluator of a slot, none if it is not connected or its block comes to nothing. -/
def compileSlot : Option Block → GraphResult (Option Evaluator)
  | none => .ok none
  | some b => compile b

/-- The evaluators of blocks, those that come to nothing left out. -/
def compileAll : List Block → GraphResult (List Evaluator)
  | [] => .ok []
  | b :: rest => do
    let e ← compile b
    let es ← compileAll rest
    .ok (e.toList ++ es)

end

/-- The context in which keys are evaluated. -/
def keyContext : Context := ⟨.null, 0, ""⟩

/-- The text that a block always comes to; none if it comes to nothing or to the empty text. -/
def staticText (b : Block) : GraphResult (Option String) := do
  match ← compile b with
  | none => .ok none
  | some e =>
    match e keyContext with
    | .ok (.str text) => .ok (if text.isEmpty then none else some text)
    | .ok other => .error (.dynamicKey b.id (.notText other.typeName))
    | .error cause => .error (.dynamicKey b.id (.failed cause))

/-- The static text of a slot, none if the slot says nothing. -/
def staticSlot (slot : Option Block) : GraphResult (Option String) :=
  match slot with
  | some b => if isEmptySlot (some b) then .ok none else staticText b
  | none => .ok none

/-- What a block registers under a key; none if it comes to nothing. -/
def source : Block → GraphResult (Option Source)
  | backlink _ key => do
    let forward ← staticSlot key
    .ok (forward.map .backlink)
  | b => do
    let e ← compile b
    .ok (e.map .value)

end RecordMapper.Block

namespace RecordMapper.Design

open Block

/-- The design with what a block registers under a key. -/
def addBlock (key : String) (b : Block) (d : Design) : GraphResult Design := do
  let s ← source b
  .ok (match s with
    | some s => d.add key s
    | none => d)

/-- The design with an attribute, which is left out if its key or its value says nothing. -/
def addAttr (key value : Option Block) (d : Design) : GraphResult Design :=
  match key, value with
  | some k, some v =>
    if isEmptySlot (some k) || isEmptySlot (some v) then .ok d
    else do
      match ← staticText k with
      | some key => d.addBlock key v
      | none => .ok d
  | _, _ => .ok d

/-- The design with the inputs of a profile, those left out that have no property or say
nothing. -/
def addInputs (p : Descriptor) (d : Design) : List (String × Block) → GraphResult Design
  | [] => .ok d
  | (name, b) :: rest =>
    match p.pidFor? name with
    | none => addInputs p d rest
    | some pid =>
      if isEmptySlot (some b) then addInputs p d rest
      else do
        let d ← d.addBlock pid b
        addInputs p d rest

/-- The design with a statement of its record. -/
def addStatement (d : Design) : Block → GraphResult Design
  | .attr _ key value => d.addAttr key value
  | .profile id descriptor inputs =>
    match contract descriptor with
    | .error gap => .error (.incompleteProfile id gap)
    | .ok (p, key) =>
      addInputs p (d.add key (Source.value (Evaluator.const (.str p.identifier)))) inputs
  | b => .error (.malformed (.valueInStatementSlot b.id b.type))

/-- The design of a record from its parts. -/
def ofRecord (id : String) (localId : Option Block) (skip : Option (Option Block))
    (body : List Block) : GraphResult Design :=
  match nestedRecord? id body with
  | some e => .error e
  | none => do
    let idEvaluator ← compileSlot localId
    let skipEvaluator ← compileSlot skip.join
    body.foldlM addStatement { Design.empty id with id := idEvaluator, skip := skipEvaluator }

/-- The designs of blocks at the top level; a block that is no record has none. -/
def ofBlocks : List Block → GraphResult (List Design)
  | [] => .ok []
  | .record id localId skip body :: rest => do
    let d ← ofRecord id localId skip body
    let ds ← ofBlocks rest
    .ok (d :: ds)
  | _ :: rest => ofBlocks rest

end RecordMapper.Design

namespace RecordMapper.Graph

/-- The designs of a graph, in its order. -/
def lower (g : Graph) : GraphResult (List Design) := Design.ofBlocks g.topLevel

end RecordMapper.Graph
