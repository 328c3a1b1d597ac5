import RecordMapper.Record.Atom

/-!
# Records

A record has an id, perhaps a persistent identifier of its own, and pairs of a key and an atom.
No pair stands in a record twice; pairs keep the order in which they first came.
-/

namespace RecordMapper

/-- A key with an atom under it. -/
structure Entry where
  key : String
  value : Atom

/-- Equality of entries by key and atom. -/
def Entry.same (a b : Entry) : Bool := a.key == b.key && a.value.same b.value

theorem Entry.same_refl (e : Entry) : e.same e = true := by
  simp [Entry.same, Atom.same_refl]

/-- A record: its id, its own persistent identifier if it has one, and its entries. -/
structure Record where
  id : String
  ownPid : Option String
  entries : List Entry

namespace Record

/-- The record of an id that holds nothing yet. -/
def empty (id : String) : Record := ⟨id, none, []⟩

/-- The record with a persistent identifier; the empty text takes it away. -/
def setPid (pid : String) (r : Record) : Record :=
  { r with ownPid := if pid.isEmpty then none else some pid }

/-- The persistent identifier, for which the id stands in if there is none. -/
def pid (r : Record) : String := r.ownPid.getD r.id

/-- Whether the record holds an entry. -/
def holds (e : Entry) (r : Record) : Bool := r.entries.any (Entry.same e)

/-- Whether an entry would be new to the record. -/
def lacks (e : Entry) (r : Record) : Bool := !r.holds e

/-- The record with an entry at the end, unless it holds it. -/
def addEntry (e : Entry) (r : Record) : Record :=
  if r.holds e then r else { r with entries := r.entries ++ [e] }

/-- The record with several entries added in order. -/
def addEntries (es : List Entry) (r : Record) : Record :=
  es.foldl (fun r e => r.addEntry e) r

/-- How many of several entries are new when their turn comes to be added. -/
def countNew : List Entry → Record → Nat
  | [], _ => 0
  | e :: es, r => (if r.lacks e then 1 else 0) + countNew es (r.addEntry e)

/-- The entries that a value makes up under a key. -/
def entriesOf (key : String) (value : Json) : List Entry := value.atoms.map (⟨key, ·⟩)

/-- The record with all atoms of a value added under a key. -/
def addValue (key : String) (value : Json) (r : Record) : Record :=
  r.addEntries (entriesOf key value)

/-- How many entries a value adds under a key. -/
def countAdded (key : String) (value : Json) (r : Record) : Nat :=
  r.countNew (entriesOf key value)

/-- The number of entries. -/
def size (r : Record) : Nat := r.entries.length

/-- The atoms under a key, in order. -/
def valuesOf (key : String) (r : Record) : List Atom :=
  (r.entries.filter (·.key == key)).map (·.value)

/-- The record as it is handed on: its persistent identifier and its entries. -/
def toJson (r : Record) : Json :=
  .obj [("pid", .str r.pid),
    ("record", .arr (r.entries.map fun e =>
      .obj [("key", .str e.key), ("value", e.value.toJson)]))]

/-! ## Adding an entry -/

theorem entries_addEntry (e : Entry) (r : Record) :
    (r.addEntry e).entries = if r.holds e then r.entries else r.entries ++ [e] := by
  unfold addEntry
  split <;> rfl

theorem id_addEntry (e : Entry) (r : Record) : (r.addEntry e).id = r.id := by
  unfold addEntry
  split <;> rfl

theorem pid_addEntry (e : Entry) (r : Record) : (r.addEntry e).pid = r.pid := by
  unfold addEntry
  split <;> rfl

theorem addEntry_of_holds {e : Entry} {r : Record} (h : r.holds e = true) : r.addEntry e = r := by
  simp [addEntry, h]

/-- A record holds the entry that was added last. -/
theorem holds_addEntry (e : Entry) (r : Record) : (r.addEntry e).holds e = true := by
  unfold addEntry
  split
  · assumption
  · simp [holds, Entry.same_refl]

/-- Adding an entry again changes nothing. -/
theorem addEntry_addEntry (e : Entry) (r : Record) : (r.addEntry e).addEntry e = r.addEntry e :=
  addEntry_of_holds (r.holds_addEntry e)

end Record

end RecordMapper
