import RecordMapper.Block.Error
import RecordMapper.Program.Statement

/-!
# Code of blocks

A statement block comes to a statement, a value block to an expression. A slot that is not
connected comes to empty code, and so do a backlink, a query and a reference that lack what they
need; what to leave out is decided on the code. An expression that does not hold together like a
name stands in parentheses wherever another block takes it.
-/

namespace RecordMapper.Program

/-- What a block comes to. -/
inductive Fragment where
  | statement (statement : Statement)
  | expression (code : String) (order : Order)

/-- The message of a stop that has none of its own. -/
def defaultMessage : String := "No error message provided"

/-- The literal of a literal. -/
def literalCode (t : Target) : Literal → String
  | .text s => t.quote s
  | .number n => n.render
  | .truth b => t.truth b
  | .null => t.null

/-- The call for a query. -/
def queryCall (t : Target) : QueryLanguage → String → String
  | .pointer, query => t.pointerCall query
  | .path, query => t.pathCall query

/-- The steps that set the id and the skip condition of a record, each left out if its code says
nothing. -/
def ownSteps (id skip : String) : List Step :=
  (if isEmptyLiteral id then [] else [.setId id]) ++
    (if Text.isBlankText skip then [] else [.setSkip skip])

/-- The steps of an attribute from the code in its slots. -/
def attributeSteps (s : Style) (key value : String) : List Step :=
  if isEmptyLiteral key || isEmptyLiteral value then []
  else s.comment "## attribute_key ##" ++ [.add key value]

/-- The steps of a profile that refer to the profile. -/
def selfReferenceSteps (s : Style) (d : Descriptor) (key : String) : List Step :=
  s.comment "## profile_hmc ##" ++ s.comment "attribute: Self-Reference" ++
    [.add (s.target.quote key) (s.target.quote d.identifier)]

/-- The steps of a profile that one of its inputs adds. -/
def inputSteps (s : Style) (name pid value : String) : List Step :=
  if isEmptyLiteral value then []
  else s.comment ("attribute: " ++ name) ++ [.add (s.target.quote pid) value]

/-- The code of a value in a slot: in parentheses unless it holds together like a name, and never
a statement. -/
def valueCode (b : Block) : Fragment → GraphResult String
  | .expression code order =>
    .ok (if code.isEmpty || order == .atomic then code else "(" ++ code ++ ")")
  | .statement _ => .error (.malformed (.statementInValueSlot b.id b.type))

/-- The code of a value, or that of null if there is none. -/
def orNull (t : Target) (code : String) : String := if code.isEmpty then t.null else code

/-- The expression of a list from the code of its items. -/
def listCode (s : Style) (items : List String) : String :=
  if items.isEmpty then "[]" else "[\n" ++ indent (", ".intercalate items) s.level ++ "]"

mutual

/-- What a block comes to. -/
def fragment (s : Style) : Block → GraphResult Fragment
  | .record id localId skip body =>
    match Block.nestedRecord? id body with
    | some e => .error e
    | none => do
      let idCode ← slotCode s localId
      let skipCode ← skipCode s skip
      let steps ← bodySteps s id body
      .ok (.statement (.design (s.comment (Block.type (.record id localId skip body)).tag)
        (ownSteps idCode skipCode ++ steps)))
  | .attr _ key value => do
    let key ← slotCode s key
    let value ← slotCode s value
    .ok (.statement (.steps (attributeSteps s key value)))
  | .profile id descriptor inputs =>
    match Block.contract descriptor with
    | .error gap => .error (.incompleteProfile id gap)
    | .ok (d, key) => do
      let steps ← inputsSteps s d inputs
      .ok (.statement (.steps (selfReferenceSteps s d key ++ steps)))
  | .fieldQuery _ _ query =>
    .ok (.expression (s.target.pointerCall (s.target.quote query)) .atomic)
  | .slotQuery _ form query => do
    let code ← slotCode s query
    .ok (.expression (if code.isEmpty then "" else queryCall s.target form.language code) .atomic)
  | .stop _ message => do
    let code ← slotCode s message
    let message := if Text.isBlankText code then s.target.quote defaultMessage else code
    .ok (.expression (s.target.stopCall message) .atomic)
  | .log _ description value => do
    let code ← slotCode s value
    .ok (.expression (s.target.logCall (orNull s.target code) (s.target.quote description)) .none)
  | .otherwise _ value other => do
    let value ← slotCode s value
    let other ← slotCode s other
    .ok (.expression (s.target.otherwiseCall (orNull s.target value) (orNull s.target other)) .none)
  | .backlink _ key => do
    let code ← slotCode s key
    .ok (.expression (if isEmptyLiteral code then "" else s.target.backlinkCall code) .atomic)
  | .reference _ pid =>
    .ok (.expression (if pid.isEmpty then "" else s.target.quote pid) .atomic)
  | .literal _ value => .ok (.expression (literalCode s.target value) .atomic)
  | .list _ items => do
    let codes ← itemCodes s items
    .ok (.expression (listCode s codes) .collection)

/-- The code of a value slot. -/
def slotCode (s : Style) : Option Block → GraphResult String
  | none => .ok ""
  | some b => do
    let f ← fragment s b
    valueCode b f

/-- The code of the slot of a skip condition. -/
def skipCode (s : Style) : Option (Option Block) → GraphResult String
  | none => .ok ""
  | some slot => slotCode s slot

/-- The steps of the statements of a record. -/
def bodySteps (s : Style) (outer : String) : List Block → GraphResult (List Step)
  | [] => .ok []
  | b :: rest => do
    match ← fragment s b with
    | .statement (.steps steps) =>
      let more ← bodySteps s outer rest
      .ok (steps ++ more)
    | .statement (.design _ _) => .error (.malformed (.nestedRecord b.id outer))
    | .expression _ _ => .error (.malformed (.valueInStatementSlot b.id b.type))

/-- The steps of the inputs of a profile; an input without a property is left out unread. -/
def inputsSteps (s : Style) (d : Descriptor) : List (String × Block) → GraphResult (List Step)
  | [] => .ok []
  | (name, b) :: rest =>
    match d.pidFor? name with
    | none => inputsSteps s d rest
    | some pid => do
      let f ← fragment s b
      let value ← valueCode b f
      let more ← inputsSteps s d rest
      .ok (inputSteps s name pid value ++ more)

/-- The code of the items of a list, empty code left out. -/
def itemCodes (s : Style) : List Block → GraphResult (List String)
  | [] => .ok []
  | b :: rest => do
    match ← fragment s b with
    | .expression code _ =>
      let more ← itemCodes s rest
      .ok (if code.isEmpty then more else code :: more)
    | .statement _ => .error (.malformed (.statementInList b.id b.type))

end

end RecordMapper.Program
