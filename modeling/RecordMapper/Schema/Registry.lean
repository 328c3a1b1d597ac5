import RecordMapper.Schema.Tree

/-!
# Registered documents

A registry keeps documents under names that are all different, in the order in which they came,
together with the schema tree of all of them. A name that is taken gets the least number, from 1
on, that makes it free.
-/

namespace RecordMapper

/-- The documents that were registered, and their schema tree. -/
structure Registry where
  documents : List (String × Json)
  tree : SchemaNode

namespace Registry

/-- The registry without documents. -/
def empty : Registry := ⟨[], .root⟩

/-- The registered names in order. -/
def names (r : Registry) : List String := r.documents.map (·.1)

/-- The document of a name. -/
def document? (name : String) (r : Registry) : Option Json := r.documents.lookup name

/-- The name with a number. -/
def numbered (name : String) (i : Nat) : String := name ++ " (" ++ toString i ++ ")"

/-- A name that is not taken: the one given, or else the first free one of its numbered forms.
One more form than there are names is enough to find it. -/
def freeName (taken : List String) (name : String) : String :=
  if name ∈ taken then
    match (List.range (taken.length + 1)).find? fun i => numbered name (i + 1) ∉ taken with
    | some i => numbered name (i + 1)
    | none => name
  else name

/-- The registry with a document added, and the name that it got. -/
def process (name : String) (document : Json) (r : Registry) : Registry × String :=
  let assigned := freeName r.names name
  (⟨r.documents ++ [(assigned, document)], r.tree.addDocument document⟩, assigned)

/-- The number of documents. -/
def count (r : Registry) : Nat := r.tree.times

/-- The registered names are those that were assigned, in order. -/
theorem names_process (name : String) (d : Json) (r : Registry) :
    (r.process name d).1.names = r.names ++ [(r.process name d).2] := by
  simp [process, names]

theorem count_process (name : String) (d : Json) (r : Registry) :
    (r.process name d).1.count = r.count + 1 := SchemaNode.times_addDocument d r.tree

end Registry

end RecordMapper
