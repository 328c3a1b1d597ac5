import RecordMapper.Block.Walk

/-!
# Diagnostics and query inventory

Diagnostics say what a graph will do that its author may not expect; none of them stops anything.
Each block has its own, and they are listed in the order in which a walk visits the blocks. The
inventory lists the queries that are known before any document is.
-/

namespace RecordMapper

/-- The causes of diagnostics. -/
inductive DiagnosticCode where
  | recordWithoutId
  | attributeDropped
  | incompleteProfile
  | invalidPointer
  | orphanStatement
deriving DecidableEq

namespace DiagnosticCode

/-- The code of a cause. -/
def text : DiagnosticCode → String
  | recordWithoutId => "D001"
  | attributeDropped => "D002"
  | incompleteProfile => "D003"
  | invalidPointer => "D004"
  | orphanStatement => "D005"

/-- What follows from a cause. -/
def consequence : DiagnosticCode → String
  | recordWithoutId => "Every document applied to this design aborts the run."
  | attributeDropped => "The attribute is left out of the generated program."
  | incompleteProfile => "Code generation fails until the profile is complete."
  | invalidPointer => "Every evaluation of this query is a fatal syntax error."
  | orphanStatement => "The block belongs to no record and has no effect."

end DiagnosticCode

/-- A diagnostic of a block, as it is handed on. -/
structure Diagnostic where
  code : String
  message : String
  consequence : String
  blockId : String
  hints : List String

namespace Diagnostic

/-- The diagnostic of a block for a cause. -/
def ofCode (code : DiagnosticCode) (message blockId : String) (hints : List String) : Diagnostic :=
  ⟨code.text, message, code.consequence, blockId, hints⟩

/-- What an attribute lacks. -/
def missingPart (key value : Option Block) : Option String :=
  match Block.isEmptySlot key, Block.isEmptySlot value with
  | true, true => some "key and value"
  | true, false => some "key"
  | false, true => some "value"
  | false, false => none

/-- The diagnostic of an attribute or profile that is not inside a record. -/
def ofPlace (inRecord : Bool) (b : Block) : List Diagnostic :=
  if inRecord then []
  else
    [ofCode .orphanStatement ("'" ++ b.type.tag ++ "' block is not placed inside a record") b.id []]

/-- The diagnostic of a query that is known and is no pointer, though it has to be one. -/
def ofQuery (b : Block) : List Diagnostic :=
  match b.language?, b.literalQuery? with
  | some .pointer, some query =>
    match Pointer.parse query with
    | .error e =>
      [ofCode .invalidPointer e.message b.id ["A JSON Pointer is empty or starts with '/'."]]
    | .ok _ => []
  | _, _ => []

/-- The diagnostics of a block itself; `inRecord` tells whether it is inside a record. -/
def ofBlock (inRecord : Bool) : Block → List Diagnostic
  | .record id none _ _ =>
    [ofCode .recordWithoutId "Record has no local identifier" id
      ["Connect a query or text block to the 'local-id' slot."]]
  | .record _ (some _) _ _ => []
  | .attr id key value =>
    ofPlace inRecord (.attr id key value) ++
      match missingPart key value with
      | some part => [ofCode .attributeDropped ("Attribute has no " ++ part) id []]
      | none => []
  | .profile id descriptor inputs =>
    ofPlace inRecord (.profile id descriptor inputs) ++
      match Block.contract descriptor with
      | .error gap =>
        [ofCode .incompleteProfile (GraphError.incompleteProfile id gap).message id []]
      | .ok _ => []
  | .fieldQuery id form query => ofQuery (.fieldQuery id form query)
  | .slotQuery id form query => ofQuery (.slotQuery id form query)
  | _ => []

/-- A diagnostic as a document value. -/
def toJson (d : Diagnostic) : Json :=
  .obj [("code", .str d.code), ("message", .str d.message), ("consequence", .str d.consequence),
    ("blockId", .str d.blockId), ("hints", .arr (d.hints.map .str))]

end Diagnostic

namespace Graph

/-- The diagnostics of a graph. -/
def validate (g : Graph) : List Diagnostic :=
  Block.walkGraph Block.insideRecord Diagnostic.ofBlock false g

/-- A query that is known before any document is. -/
structure QueryUse where
  blockId : String
  language : QueryLanguage
  query : String

/-- The known query of a block itself. -/
def QueryUse.ofBlock (b : Block) : List QueryUse :=
  match b.language?, b.literalQuery? with
  | some language, some query => [⟨b.id, language, query⟩]
  | _, _ => []

/-- The known queries of a graph. -/
def queryUses (g : Graph) : List QueryUse :=
  Block.walkGraph (fun _ _ => ()) (fun _ b => QueryUse.ofBlock b) () g

end Graph

end RecordMapper
