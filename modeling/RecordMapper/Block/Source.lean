import RecordMapper.Json.Decode

/-!
# Blocks as a workspace writes them

A block of a workspace has a tag, an id, fields, slots by name, the slot of the block below it,
and perhaps a state of its own. A slot holds a block, a shadow that stands in for it, or neither.
All but the tag may be left out.
-/

namespace RecordMapper

mutual

/-- A block as it is written. -/
inductive BlockSource where
  | mk (tag id : String) (fields : List (String × Json)) (slots : List (String × SlotSource))
      (next : Option SlotSource) (state : Option Json)

/-- A slot as it is written. -/
inductive SlotSource where
  | mk (block shadow : Option BlockSource)

end

namespace BlockSource

/-- What is known of a block while its members are read. -/
structure Draft where
  tag : Option String := none
  id : String := ""
  fields : List (String × Json) := []
  slots : List (String × SlotSource) := []
  next : Option SlotSource := none
  state : Option Json := none

/-- The members of a block, in order. -/
def fieldNames : List String := ["type", "id", "fields", "inputs", "next", "extraState"]

/-- What a block is called in error texts. -/
def wanted : String := "struct RawBlock"

/-- What a slot is called in error texts. -/
def wantedSlot : String := "struct RawInput"

/-- The draft with one more member. Members that hold slots come with what they are read as. -/
def Draft.set (d : Draft) (name : String) (j : Json)
    (slots : Unit → Except DecodeError (List (String × SlotSource)))
    (next : Unit → Except DecodeError SlotSource) : Except DecodeError Draft :=
  match name with
  | "type" => j.asText.map fun s => { d with tag := some s }
  | "id" => j.asText.map fun s => { d with id := s }
  | "fields" => j.asMembers.map fun ms => { d with fields := ms }
  | "inputs" => (slots ()).map fun ss => { d with slots := ss }
  | "next" => (j.asOption fun _ => next ()).map fun s => { d with next := s }
  | "extraState" =>
    match j with
    | .null => .ok { d with state := none }
    | j => .ok { d with state := some j }
  | _ => .ok d

/-- The block of a draft; a tag it must have. -/
def Draft.finish (d : Draft) : Except DecodeError BlockSource :=
  match d.tag with
  | some tag => .ok (.mk tag d.id d.fields d.slots d.next d.state)
  | none => .error (.missing "type")

mutual

/-- The block that a value stands for. -/
def read : Json → Except DecodeError BlockSource
  | .obj ms =>
    match readMembers {} ms with
    | .ok d => d.finish
    | .error e => .error e
  | .arr [] => .error (.tooShort 0 (wanted ++ " with 6 elements"))
  | .arr js =>
    match readItems {} fieldNames js with
    | .ok d => if fieldNames.length < js.length then .error (.tooLong js.length) else d.finish
    | .error e => .error e
  | j => .error (.unexpected j wanted)

/-- The draft with the members of an object read in order. -/
def readMembers (d : Draft) : List (String × Json) → Except DecodeError Draft
  | [] => .ok d
  | (name, j) :: rest =>
    match d.set name j (fun _ => readSlots j) (fun _ => readSlot j) with
    | .ok d => readMembers d rest
    | .error e => .error e

/-- The draft with the items of an array read as the first members. -/
def readItems (d : Draft) : List String → List Json → Except DecodeError Draft
  | name :: names, j :: rest =>
    match d.set name j (fun _ => readSlots j) (fun _ => readSlot j) with
    | .ok d => readItems d names rest
    | .error e => .error e
  | _, _ => .ok d

/-- The slots that a value stands for. -/
def readSlots : Json → Except DecodeError (List (String × SlotSource))
  | .obj ms => readSlotMembers ms
  | j => .error (.unexpected j "a map")

/-- The slots that the members of an object stand for. -/
def readSlotMembers : List (String × Json) → Except DecodeError (List (String × SlotSource))
  | [] => .ok []
  | (name, j) :: rest =>
    match readSlot j with
    | .ok s => (readSlotMembers rest).map ((name, s) :: ·)
    | .error e => .error e

/-- The slot that a value stands for. -/
def readSlot : Json → Except DecodeError SlotSource
  | .obj ms => readSlotFields none none ms
  | .arr js => readSlotItems js
  | j => .error (.unexpected j wantedSlot)

/-- The slot with the members of an object read in order. -/
def readSlotFields (block shadow : Option BlockSource) :
    List (String × Json) → Except DecodeError SlotSource
  | [] => .ok (.mk block shadow)
  | (name, j) :: rest =>
    if name = "block" then
      match j.asOption fun _ => read j with
      | .ok b => readSlotFields b shadow rest
      | .error e => .error e
    else if name = "shadow" then
      match j.asOption fun _ => read j with
      | .ok b => readSlotFields block b rest
      | .error e => .error e
    else readSlotFields block shadow rest

/-- The slot whose block and shadow are the items of an array. -/
def readSlotItems : List Json → Except DecodeError SlotSource
  | [] => .ok (.mk none none)
  | [b] => (b.asOption fun _ => read b).map fun b => .mk b none
  | b :: s :: rest =>
    match b.asOption fun _ => read b, s.asOption fun _ => read s with
    | .ok b, .ok s =>
      if rest.isEmpty then .ok (.mk b s) else .error (.tooLong (rest.length + 2))
    | .error e, _ => .error e
    | _, .error e => .error e

end

end BlockSource

end RecordMapper
