import RecordMapper.Block.Basic
import RecordMapper.Evaluation.Error

/-!
# Errors of block graphs
-/

namespace RecordMapper

/-- What is wrong with the structure of a graph. -/
inductive Malformation where
  | notAWorkspace
  | blocksNotAContainer
  | blocksNotAnArray
  | unreadable (cause : DecodeError)
  | badDescriptor (id : String) (cause : DecodeError)
  | badNumber (id : String)
  | nestedRecord (inner outer : String)
  | statementInValueSlot (id : String) (type : BlockType)
  | valueInStatementSlot (id : String) (type : BlockType)
  | statementInList (id : String) (type : BlockType)
  | strayBacklink (id : String)

/-- The text of a malformation. -/
def Malformation.message : Malformation → String
  | notAWorkspace => "Workspace must be an object or an array"
  | blocksNotAContainer => "'blocks' must be an object or an array"
  | blocksNotAnArray => "'blocks.blocks' must be an array"
  | unreadable cause => cause.message
  | badDescriptor id cause =>
    "Block '" ++ id ++ "' has an unreadable profile descriptor: " ++ cause.message
  | badNumber id => "Block '" ++ id ++ "' has an invalid number field"
  | nestedRecord inner outer =>
    "Record block '" ++ inner ++ "' is nested inside record '" ++ outer ++ "'"
  | statementInValueSlot id type =>
    "Statement block '" ++ id ++ "' (" ++ type.tag ++ ") is connected to a value slot"
  | valueInStatementSlot id type =>
    "Value block '" ++ id ++ "' (" ++ type.tag ++ ") is connected to a statement slot"
  | statementInList id type =>
    "Statement block '" ++ id ++ "' (" ++ type.tag ++ ") is connected to a list item"
  | strayBacklink id =>
    "Backlink declaration '" ++ id ++ "' must be connected directly to an attribute value"

/-- Why a key is not static. -/
inductive DynamicKey where
  | failed (cause : EvalError)
  | notText (found : String)

/-- The text of why a key is not static. -/
def DynamicKey.message : DynamicKey → String
  | failed cause => cause.message
  | notText found => "expected a string, got " ++ found

/-- Why a graph is refused. -/
inductive GraphError where
  | malformed (cause : Malformation)
  | unknownType (id tag : String)
  | incompleteProfile (id : String) (gap : ProfileGap)
  | dynamicKey (id : String) (reason : DynamicKey)

/-- The text of a graph error. -/
def GraphError.message : GraphError → String
  | malformed cause => "Malformed block graph: " ++ cause.message
  | unknownType id tag => "Block '" ++ id ++ "' has unknown type '" ++ tag ++ "'"
  | incompleteProfile id gap =>
    "Block '" ++ id ++ "' implements the profile contract incompletely: " ++ gap.message
  | dynamicKey id reason =>
    "Block '" ++ id ++ "' must evaluate to a static string: " ++ reason.message

/-- What a graph comes to. -/
abbrev GraphResult (α : Type) := Except GraphError α

/-- The first record among the statements of a record, which is an error. -/
def Block.nestedRecord? (id : String) (body : List Block) : Option GraphError :=
  (body.find? Block.isRecord).map fun b => .malformed (.nestedRecord b.id id)

end RecordMapper
