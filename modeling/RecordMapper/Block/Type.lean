/-!
# The catalogue of blocks

Each kind of block has a tag, by which a workspace names it.
-/

namespace RecordMapper

/-- The kinds of blocks. -/
inductive BlockType where
  | record
  | skippableRecord
  | attr
  | profile
  | reference
  | backlink
  | pointerField
  | pathField
  | pathSlot
  | jsonSlot
  | pointerSlot
  | stop
  | log
  | otherwise
  | list
  | text
  | number
  | truth
  | null
deriving DecidableEq

namespace BlockType

/-- The tag of a kind. -/
def tag : BlockType → String
  | record => "pidrecord"
  | skippableRecord => "pidrecord_skipable"
  | attr => "attribute_key"
  | profile => "profile_hmc"
  | reference => "profile_hmc_reference_block"
  | backlink => "backlink_declaration"
  | pointerField => "input_json_pointer"
  | pathField => "input_jsonpath"
  | pathSlot => "input_custom_json_path"
  | jsonSlot => "input_custom_json"
  | pointerSlot => "input_custom_json_pointer"
  | stop => "stop_design"
  | log => "log_value"
  | otherwise => "otherwise"
  | list => "lists_create_with"
  | text => "text"
  | number => "math_number"
  | truth => "logic_boolean"
  | null => "logic_null"

/-- All kinds. -/
def all : List BlockType :=
  [record, skippableRecord, attr, profile, reference, backlink, pointerField, pathField,
    pathSlot, jsonSlot, pointerSlot, stop, log, otherwise, list, text, number, truth, null]

/-- The kind of a tag. -/
def ofTag? (tag : String) : Option BlockType := all.find? (·.tag == tag)

theorem ofTag?_tag (type : BlockType) : ofTag? type.tag = some type := by
  cases type <;> decide

end BlockType

end RecordMapper
