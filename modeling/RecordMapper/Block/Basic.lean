import RecordMapper.Block.Profile
import RecordMapper.Block.Type

/-!
# Blocks

A block is a statement (a record, an attribute or a profile) or a value. A slot holds a block or
nothing. Which blocks may stand in which slots is not a matter of this type: a statement in a
value slot is an error of whoever reads the value.
-/

namespace RecordMapper

/-- A literal value. -/
inductive Literal where
  | text (value : String)
  | number (value : Number)
  | truth (value : Bool)
  | null

/-- A literal as a document value. -/
def Literal.toJson : Literal → Json
  | text s => .str s
  | number n => .num n
  | truth b => .bool b
  | null => .null

/-- The two languages in which queries are written. -/
inductive QueryLanguage where
  | pointer
  | path
deriving DecidableEq

/-- The name of a query language. -/
def QueryLanguage.name : QueryLanguage → String
  | pointer => "jsonPointer"
  | path => "jsonPath"

/-- The two blocks whose query is typed into them. Both hold a pointer. -/
inductive FieldQuery where
  | pointer
  | path
deriving DecidableEq

/-- The three blocks whose query is the value of another block. -/
inductive SlotQuery where
  | path
  | json
  | pointer
deriving DecidableEq

/-- The language of a query that is the value of another block. -/
def SlotQuery.language : SlotQuery → QueryLanguage
  | path => .path
  | json => .path
  | pointer => .pointer

/-- A block with all that is connected to it. -/
inductive Block where
  /-- A record design: the slot of its id, that of its skip condition if it is skippable, and its
  statements. -/
  | record (id : String) (localId : Option Block) (skip : Option (Option Block))
      (body : List Block)
  /-- A value under a key. -/
  | attr (id : String) (key value : Option Block)
  /-- The properties of a profile: the values of the inputs that are connected. -/
  | profile (id : String) (descriptor : Option Descriptor) (inputs : List (String × Block))
  /-- A query typed into the block. -/
  | fieldQuery (id : String) (form : FieldQuery) (query : String)
  /-- A query given by another block. -/
  | slotQuery (id : String) (form : SlotQuery) (query : Option Block)
  /-- An explicit stop with a message. -/
  | stop (id : String) (message : Option Block)
  /-- A value that is logged on its way. -/
  | log (id description : String) (value : Option Block)
  /-- A value with a fallback. -/
  | otherwise (id : String) (value other : Option Block)
  /-- A link back from whatever refers to the record under the key. -/
  | backlink (id : String) (key : Option Block)
  /-- The persistent identifier of an attribute of a profile. -/
  | reference (id pid : String)
  /-- A literal. -/
  | literal (id : String) (value : Literal)
  /-- A list of values. -/
  | list (id : String) (items : List Block)

namespace Block

/-- The id of a block. -/
def id : Block → String
  | record id _ _ _ => id
  | attr id _ _ => id
  | profile id _ _ => id
  | fieldQuery id _ _ => id
  | slotQuery id _ _ => id
  | stop id _ => id
  | log id _ _ => id
  | otherwise id _ _ => id
  | backlink id _ => id
  | reference id _ => id
  | literal id _ => id
  | list id _ => id

/-- The kind of a block. -/
def type : Block → BlockType
  | record _ _ none _ => .record
  | record _ _ (some _) _ => .skippableRecord
  | attr _ _ _ => .attr
  | profile _ _ _ => .profile
  | fieldQuery _ .pointer _ => .pointerField
  | fieldQuery _ .path _ => .pathField
  | slotQuery _ .path _ => .pathSlot
  | slotQuery _ .json _ => .jsonSlot
  | slotQuery _ .pointer _ => .pointerSlot
  | stop _ _ => .stop
  | log _ _ _ => .log
  | otherwise _ _ _ => .otherwise
  | backlink _ _ => .backlink
  | reference _ _ => .reference
  | literal _ (.text _) => .text
  | literal _ (.number _) => .number
  | literal _ (.truth _) => .truth
  | literal _ .null => .null
  | list _ _ => .list

/-- Whether a block is a record. -/
def isRecord : Block → Bool
  | record _ _ _ _ => true
  | _ => false

/-- Statements stand in a record or on their own; every other block is a value. -/
def isStatement : Block → Bool
  | record _ _ _ _ => true
  | attr _ _ _ => true
  | profile _ _ _ => true
  | _ => false

/-- The language of a query block. -/
def language? : Block → Option QueryLanguage
  | fieldQuery _ _ _ => some .pointer
  | slotQuery _ form _ => some form.language
  | _ => none

/-- The query of a query block, if it is known before any document is. -/
def literalQuery? : Block → Option String
  | fieldQuery _ _ query => some query
  | slotQuery _ _ (some (literal _ (.text query))) => some query
  | _ => none

/-- Whether a slot says nothing: it is not connected, or holds an empty text. -/
def isEmptySlot : Option Block → Bool
  | none => true
  | some (literal _ (.text s)) => s.isEmpty
  | some _ => false

/-- What a profile lacks, or its descriptor with the attribute under which a record refers to
it. -/
def contract : Option Descriptor → Except ProfileGap (Descriptor × String)
  | none => .error .descriptor
  | some d =>
    if Text.isBlankText d.identifier then .error .identifier
    else
      match d.referenceKey? with
      | some key => .ok (d, key)
      | none => .error .attributeKey

end Block

end RecordMapper
