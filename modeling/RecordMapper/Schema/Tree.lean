import RecordMapper.Path.JsonPath
import RecordMapper.Path.Pointer
import RecordMapper.Record.Atom

/-!
# Observed schema of documents

A schema tree has one node for each location that occurs in any of the documents merged into it.
A node counts how often its location occurred and, for the occurrences that were scalars, how
often each scalar did. An object member and an array item never share a node, whatever the key.
Children stand in the order in which they first occurred.
-/

namespace RecordMapper

/-- A scalar that can be counted: null or an atom, the empty text among them. -/
inductive Scalar where
  | null
  | atom (value : Atom)

namespace Scalar

/-- The scalar that a document value is, with numbers normalized. -/
def ofJson? : Json → Option Scalar
  | .null => some null
  | .bool b => some (atom (.truth b))
  | .num n => some (atom (.number n.normalize))
  | .str s => some (atom (.text s))
  | .arr _ => none
  | .obj _ => none

/-- A scalar as a document value. -/
def toJson : Scalar → Json
  | null => .null
  | atom a => a.toJson

/-- Equality of scalars by kind and value. -/
def same : Scalar → Scalar → Bool
  | null, null => true
  | atom a, atom b => a.same b
  | _, _ => false

/-- The counts with a scalar counted once more. -/
def count (s : Scalar) : List (Scalar × Nat) → List (Scalar × Nat)
  | [] => [(s, 1)]
  | (t, n) :: rest => if s.same t then (t, n + 1) :: rest else (t, n) :: count s rest

/-- The count of a scalar. -/
def countIn (s : Scalar) (counts : List (Scalar × Nat)) : Nat :=
  match counts.find? (fun c => s.same c.1) with
  | some (_, n) => n
  | none => 0

end Scalar

/-- The path as a document value: its segments, each with its kind and text. -/
def Segment.toJson : Segment → Json
  | .key name => .obj [("type", .str "key"), ("value", .str name)]
  | .index digits => .obj [("type", .str "index"), ("value", .str digits)]

/-- A location across all documents: its name and whether it is an item of an array, how often it
occurred, and what was counted at it and below it. -/
structure SchemaNode where
  key : String
  path : Path
  isArrayElement : Bool
  times : Nat
  values : List (Scalar × Nat)
  children : List (Segment × SchemaNode)

namespace SchemaNode

/-- The node of a location that did not occur yet. It is named for the last segment of its path. -/
def empty (path : Path) (isArrayElement : Bool) : SchemaNode :=
  ⟨(path.getLast?.map Segment.text).getD "", path, isArrayElement, 0, [], []⟩

/-- The tree of no documents. -/
def root : SchemaNode := empty Path.root false

/-- Whether any location lies below. -/
def isBranch (n : SchemaNode) : Bool := !n.children.isEmpty

/-- Whether any scalar was counted here. -/
def isLeaf (n : SchemaNode) : Bool := !n.values.isEmpty

/-- The node with one more occurrence. -/
def seen (n : SchemaNode) : SchemaNode := { n with times := n.times + 1 }

/-- The node with one more scalar counted. -/
def addScalar (s : Scalar) (n : SchemaNode) : SchemaNode :=
  { n with values := s.count n.values }

/-- The children with the one at a segment changed; it is made first if it is not there. -/
def alterChild (path : Path) (s : Segment) (f : SchemaNode → SchemaNode) :
    List (Segment × SchemaNode) → List (Segment × SchemaNode)
  | [] => [(s, f (empty (path ++ [s]) s.isIndex))]
  | (t, n) :: rest =>
    if t = s then (t, f n) :: rest else (t, n) :: alterChild path s f rest

/-- The node with the child at a segment changed. -/
def alter (s : Segment) (f : SchemaNode → SchemaNode) (n : SchemaNode) : SchemaNode :=
  { n with children := alterChild n.path s f n.children }

mutual

/-- The node with all that a value holds merged into it. -/
def merge : Json → SchemaNode → SchemaNode
  | .obj members, n => mergeMembers members n
  | .arr items, n => mergeItems 0 items n
  | .null, n => n.addScalar .null
  | .bool b, n => n.addScalar (.atom (.truth b))
  | .num m, n => n.addScalar (.atom (.number m.normalize))
  | .str s, n => n.addScalar (.atom (.text s))

/-- The node with the members of an object merged into its children. -/
def mergeMembers : List (String × Json) → SchemaNode → SchemaNode
  | [], n => n
  | (k, v) :: rest, n => mergeMembers rest (n.alter (.key k) fun c => merge v c.seen)

/-- The node with the items of an array, counted from `i`, merged into its children. -/
def mergeItems (i : Nat) : List Json → SchemaNode → SchemaNode
  | [], n => n
  | v :: rest, n =>
    mergeItems (i + 1) rest (n.alter (.index (toString i)) fun c => merge v c.seen)

end

/-- The tree with a whole document merged into it. -/
def addDocument (document : Json) (n : SchemaNode) : SchemaNode := merge document n.seen

/-! Merging counts the locations below a node, and never the node itself. -/

mutual

theorem times_merge : ∀ (v : Json) (n : SchemaNode), (merge v n).times = n.times
  | .obj members, n => by simp only [merge, times_mergeMembers members n]
  | .arr items, n => by simp only [merge, times_mergeItems 0 items n]
  | .null, n => by simp only [merge, addScalar]
  | .bool _, n => by simp only [merge, addScalar]
  | .num _, n => by simp only [merge, addScalar]
  | .str _, n => by simp only [merge, addScalar]

theorem times_mergeMembers : ∀ (ms : List (String × Json)) (n : SchemaNode),
    (mergeMembers ms n).times = n.times
  | [], n => by simp only [mergeMembers]
  | (_, _) :: rest, n => by rw [mergeMembers, times_mergeMembers rest]; rfl

theorem times_mergeItems : ∀ (i : Nat) (vs : List Json) (n : SchemaNode),
    (mergeItems i vs n).times = n.times
  | _, [], n => by simp only [mergeItems]
  | i, _ :: rest, n => by rw [mergeItems, times_mergeItems (i + 1) rest]; rfl

end

theorem times_addDocument (d : Json) (n : SchemaNode) : (n.addDocument d).times = n.times + 1 :=
  times_merge d n.seen

/-- The count of a value at a node; no array or object is ever counted. -/
def countOf (value : Json) (n : SchemaNode) : Nat :=
  match Scalar.ofJson? value with
  | some s => s.countIn n.values
  | none => 0

/-- The node that segments lead to from a node. -/
def follow : List Segment → SchemaNode → Option SchemaNode
  | [], n => some n
  | s :: rest, n => (n.children.lookup s).bind (follow rest)

/-- The node at a path. -/
def find? (path : Path) (n : SchemaNode) : Option SchemaNode := follow path.steps n

/-- A count as a share of a total: the quotient of the two doubles, zero if there is no total. -/
def shareOf (count total : Nat) : Binary64 :=
  if total = 0 then .zero
  else
    match Binary64.ofNat? count, Binary64.ofNat? total with
    | some x, some y => (x.div? y).getD .zero
    | _, _ => .zero

/-- The share of so many occurrences in which the location was there. -/
def availability (total : Nat) (n : SchemaNode) : Binary64 := shareOf n.times total

mutual

/-- The number of nodes of a tree. -/
def size : SchemaNode → Nat
  | ⟨_, _, _, _, _, children⟩ => 1 + sizeAll children

/-- The number of nodes of several trees. -/
def sizeAll : List (Segment × SchemaNode) → Nat
  | [] => 0
  | (_, n) :: rest => size n + sizeAll rest

end

theorem sizeAll_append (a b : List (Segment × SchemaNode)) :
    sizeAll (a ++ b) = sizeAll a + sizeAll b := by
  induction a with
  | nil => simp [sizeAll]
  | cons x rest ih =>
    obtain ⟨s, n⟩ := x
    simp only [List.cons_append, sizeAll, ih]
    omega

theorem size_eq (n : SchemaNode) : n.size = 1 + sizeAll n.children := by
  cases n
  rfl

/-- The nodes of the trees in a queue, each node before its children, which go to the end of the
queue. -/
def breadthFirst : List (Segment × SchemaNode) → List SchemaNode
  | [] => []
  | (_, n) :: queue => n :: breadthFirst (queue ++ n.children)
termination_by queue => sizeAll queue
decreasing_by
  simp only [sizeAll_append, sizeAll, size_eq]
  omega

/-- The nodes at which scalars were counted, level by level. -/
def flattened (n : SchemaNode) : List SchemaNode :=
  (breadthFirst [(Segment.root, n)]).filter isLeaf

/-! ## Written form -/

/-- The counts as a document value. -/
def countsJson (counts : List (Scalar × Nat)) : Json :=
  .arr (counts.map fun (s, n) => .obj [("value", s.toJson), ("count", .num (.int n))])

/-- The path as a document value. -/
def pathJson (path : Path) : Json := .arr (path.map Segment.toJson)

mutual

/-- The tree as a document value. -/
def toJson : SchemaNode → Json
  | ⟨key, path, isArrayElement, times, values, children⟩ =>
    .obj [("key", .str key), ("path", pathJson path), ("children", .arr (toJsonAll children)),
      ("observedValues", countsJson values), ("timesObserved", .num (.int times)),
      ("arrayElement", .bool isArrayElement)]

/-- The children as document values. -/
def toJsonAll : List (Segment × SchemaNode) → List Json
  | [] => []
  | (_, n) :: rest => toJson n :: toJsonAll rest

end

/-- A node as a document value of its own, with both texts of its path and without what lies
below it. -/
def entryJson (n : SchemaNode) : Json :=
  .obj [("key", .str n.key), ("path", pathJson n.path),
    ("pointer", .str (Pointer.render n.path)), ("jsonPath", .str (JsonPath.render n.path)),
    ("observedValues", countsJson n.values), ("timesObserved", .num (.int n.times)),
    ("arrayElement", .bool n.isArrayElement)]

end SchemaNode

end RecordMapper
