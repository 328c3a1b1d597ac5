import RecordMapper.Block.Error
import RecordMapper.Block.Source
import RecordMapper.Number.Text

/-!
# Blocks from what a workspace writes

Each kind of block reads the fields and slots that it has, and nothing else; a shadow counts only
in a slot without a block. The statements of a record are the block in its slot and those chained
below it. The first block that cannot be read decides the error, a block counting before those
connected to it.
-/

namespace RecordMapper.Block

/-- What a block as written comes to: the block, and the chain of blocks below it. -/
structure Reading where
  block : GraphResult Block
  below : GraphResult (List Block)

/-- The block with the chain below it. -/
def Reading.chain (r : Reading) : GraphResult (List Block) :=
  match r.block with
  | .ok b => r.below.map (b :: ·)
  | .error e => .error e

/-- What the slots of a block come to, by name; nothing for a slot without a block. -/
abbrev Readings := List (String × Option Reading)

/-- The block in a slot. -/
def Readings.slot (slots : Readings) (name : String) : GraphResult (Option Block) :=
  match (slots.lookup name).join with
  | some r => r.block.map some
  | none => .ok none

/-- The block in a slot with the chain below it. -/
def Readings.chain (slots : Readings) (name : String) : GraphResult (List Block) :=
  match (slots.lookup name).join with
  | some r => r.chain
  | none => .ok []

/-- The blocks of all connected slots that are wanted, each with the name of its slot. -/
def Readings.connected (wanted : String → Bool) (slots : Readings) :
    GraphResult (List (String × Block)) :=
  match slots with
  | [] => .ok []
  | (_, none) :: rest => connected wanted rest
  | (name, some r) :: rest =>
    if wanted name then
      match r.block with
      | .ok b => (connected wanted rest).map ((name, b) :: ·)
      | .error e => .error e
    else connected wanted rest

/-- The text of a field: a string as it is, nothing for null or no field, and the compact text of
any other value. -/
def textField (fields : List (String × Json)) (name : String) : String :=
  match fields.lookup name with
  | some (.str s) => s
  | some .null => ""
  | some j => j.render
  | none => ""

/-- The number of a field: a number, a text that stands for one, or zero if there is no field. -/
def numberField? (fields : List (String × Json)) (name : String) : Option Number :=
  match fields.lookup name with
  | some (.num n) => some n
  | some (.str s) => Number.ofText? s
  | some _ => none
  | none => some (.int 0)

/-- The descriptor in the state of a profile block, if it holds one. -/
def descriptorOf (id : String) (state : Option Json) : GraphResult (Option Descriptor) :=
  match state.bind (·.get? "profile") with
  | none => .ok none
  | some j =>
    match Descriptor.read j with
    | .ok d => .ok (some d)
    | .error e => .error (.malformed (.badDescriptor id e))

/-- Whether a slot of a list block holds an item. -/
def isItemSlot (name : String) : Bool := "ADD".toList.isPrefixOf name.toList

/-- The block of a kind, from its fields, what its slots come to, and its state. -/
def assemble (type : BlockType) (id : String) (fields : List (String × Json)) (slots : Readings)
    (state : Option Json) : GraphResult Block :=
  match type with
  | .record => do
    let localId ← slots.slot "local-id"
    let body ← slots.chain "record"
    .ok (record id localId none body)
  | .skippableRecord => do
    let localId ← slots.slot "local-id"
    let skip ← slots.slot "skip-condition"
    let body ← slots.chain "record"
    .ok (record id localId (some skip) body)
  | .attr => do
    let key ← slots.slot "KEY"
    let value ← slots.slot "VALUE"
    .ok (attr id key value)
  | .profile => do
    let descriptor ← descriptorOf id state
    let inputs ← slots.connected fun _ => true
    .ok (profile id descriptor inputs)
  | .reference => .ok (reference id (textField fields "ATTRIBUTE"))
  | .backlink => (slots.slot "ATTRIBUTE_KEY").map (backlink id)
  | .pointerField => .ok (fieldQuery id .pointer (textField fields "QUERY"))
  | .pathField => .ok (fieldQuery id .path (textField fields "QUERY"))
  | .pathSlot => (slots.slot "QUERY").map (slotQuery id .path)
  | .jsonSlot => (slots.slot "QUERY").map (slotQuery id .json)
  | .pointerSlot => (slots.slot "QUERY").map (slotQuery id .pointer)
  | .stop => (slots.slot "MESSAGE").map (stop id)
  | .log => (slots.slot "INVAR").map (log id (textField fields "DESC"))
  | .otherwise => do
    let value ← slots.slot "VALUE"
    let other ← slots.slot "OTHER"
    .ok (otherwise id value other)
  | .list => (slots.connected isItemSlot).map fun items => list id (items.map (·.2))
  | .text => .ok (literal id (.text (textField fields "TEXT")))
  | .number =>
    match numberField? fields "NUM" with
    | some n => .ok (literal id (.number n))
    | none => .error (.malformed (.badNumber id))
  | .truth =>
    .ok (literal id (.truth (Text.asciiLower (textField fields "BOOL") == "true")))
  | .null => .ok (literal id .null)

mutual

/-- What a block as written comes to. -/
def reading : BlockSource → Reading
  | .mk tag id fields slots next state =>
    { block :=
        match BlockType.ofTag? tag with
        | some type => assemble type id fields (readings slots) state
        | none => .error (.unknownType id tag)
      below :=
        match next with
        | some s =>
          match slotReading s with
          | some r => r.chain
          | none => .ok []
        | none => .ok [] }

/-- What a slot as written comes to: its block, or else its shadow. -/
def slotReading : SlotSource → Option Reading
  | .mk (some block) _ => some (reading block)
  | .mk none (some shadow) => some (reading shadow)
  | .mk none none => none

/-- What slots as written come to, by name. -/
def readings : List (String × SlotSource) → Readings
  | [] => []
  | (name, s) :: rest => (name, slotReading s) :: readings rest

end

/-- The block that a block as written stands for. -/
def ofSource (source : BlockSource) : GraphResult Block := (reading source).block

/-- The block that a block as written stands for, with the chain below it. -/
def chainOfSource (source : BlockSource) : GraphResult (List Block) := (reading source).chain

end RecordMapper.Block
