import RecordMapper.Json.Decode
import RecordMapper.Text.Blank

/-!
# Profile descriptors

A descriptor says which profile a record follows and which properties the profile has. The input
of a property is named for the property, perhaps with something behind the name: the whole name
wins, else the longest property name that the input name starts with.
-/

namespace RecordMapper

/-- A property of a profile: its name and its persistent identifier. -/
structure Property where
  name : String
  identifier : String

/-- A profile: its persistent identifier, its name, the attribute under which a record refers to
it, and its properties. -/
structure Descriptor where
  identifier : String
  name : Option String
  attributeKey : Option String
  properties : List Property

/-- What a profile lacks. -/
inductive ProfileGap where
  | descriptor
  | identifier
  | attributeKey
deriving DecidableEq

/-- The text for what a profile lacks. -/
def ProfileGap.message : ProfileGap → String
  | descriptor => "no profile descriptor"
  | identifier => "empty profile identifier"
  | attributeKey => "no attribute key for the profile reference"

namespace Descriptor

/-- A text unless it is empty. -/
def nonEmpty (s : String) : Option String := if s.isEmpty then none else some s

/-- Whether a property is named for the profile itself. -/
def mentionsProfile (p : Property) : Bool :=
  Text.occursIn "profile".toList (Text.asciiLower p.name).toList

/-- The attribute under which a record refers to the profile: the one given, else that of the
first property that is named for the profile. -/
def referenceKey? (d : Descriptor) : Option String :=
  match d.attributeKey.bind nonEmpty with
  | some key => some key
  | none => (d.properties.find? mentionsProfile).bind fun p => nonEmpty p.identifier

/-- The property with the longest name among those given; of names of one length, the last. -/
def longest : List Property → Option Property
  | [] => none
  | p :: rest =>
    match longest rest with
    | none => some p
    | some q => if q.name.utf8ByteSize < p.name.utf8ByteSize then some p else some q

/-- Whether an input name starts with the name of a property. -/
def startsWith (input : String) (p : Property) : Bool :=
  !p.name.isEmpty && p.name.toList.isPrefixOf input.toList

/-- The property that an input is for. -/
def propertyFor? (input : String) (d : Descriptor) : Option Property :=
  match d.properties.find? (·.name == input) with
  | some p => some p
  | none => longest (d.properties.filter (startsWith input))

/-- The persistent identifier of the property that an input is for. -/
def pidFor? (input : String) (d : Descriptor) : Option String :=
  (d.propertyFor? input).bind fun p => nonEmpty p.identifier

/-! ## Reading -/

/-- The members of a property, in order. -/
def propertyFields : List String := ["name", "identifier"]

/-- The property with one more member read. -/
def readPropertyField (p : Property) : String × Json → Except DecodeError Property
  | ("name", j) => j.asText.map fun s => { p with name := s }
  | ("identifier", j) => j.asText.map fun s => { p with identifier := s }
  | _ => .ok p

/-- The property that a value stands for. -/
def readProperty (j : Json) : Except DecodeError Property := do
  let fields ← j.asFields "struct ProfileProperty" propertyFields
  let p ← fields.foldlM readPropertyField ⟨"", ""⟩
  j.checkLength propertyFields
  .ok p

/-- The members of a descriptor, in order. -/
def fieldNames : List String := ["identifier", "name", "attributeKey", "properties"]

/-- The descriptor with one more member read. -/
def readField (d : Descriptor) : String × Json → Except DecodeError Descriptor
  | ("identifier", j) => j.asText.map fun s => { d with identifier := s }
  | ("name", j) => (j.asOption Json.asText).map fun s => { d with name := s }
  | ("attributeKey", j) => (j.asOption Json.asText).map fun s => { d with attributeKey := s }
  | ("properties", j) => do
    let ps ← (← j.asItems).mapM readProperty
    .ok { d with properties := ps }
  | _ => .ok d

/-- The descriptor that a value stands for. -/
def read (j : Json) : Except DecodeError Descriptor := do
  let fields ← j.asFields "struct ProfileDescriptor" fieldNames
  let d ← fields.foldlM readField ⟨"", none, none, []⟩
  j.checkLength fieldNames
  .ok d

/-- The descriptor as a document value. -/
def toJson (d : Descriptor) : Json :=
  let optional (s : Option String) : Json := (s.map Json.str).getD .null
  .obj [("identifier", .str d.identifier), ("name", optional d.name),
    ("attributeKey", optional d.attributeKey),
    ("properties", .arr (d.properties.map fun p =>
      .obj [("name", .str p.name), ("identifier", .str p.identifier)]))]

end Descriptor

end RecordMapper
