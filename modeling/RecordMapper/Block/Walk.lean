import RecordMapper.Block.Graph

/-!
# Walking a graph

A walk visits each block before the blocks connected to it, and those in the order of the slots:
the id, skip condition and statements of a record, the key and value of an attribute, the inputs
of a profile, the items of a list. On its way down it carries a state that each block may change
for the blocks connected to it.
-/

namespace RecordMapper.Block

variable {σ α : Type}

mutual

/-- What a walk collects from a block and all that is connected to it: `own` gives what a block
adds itself, `enter` the state for the blocks connected to it. -/
def walk (enter : σ → Block → σ) (own : σ → Block → List α) (s : σ) : Block → List α
  | record id localId skip body =>
    own s (record id localId skip body) ++
      (let s' := enter s (record id localId skip body)
       walkSlot enter own s' localId ++ walkSkip enter own s' skip ++ walkAll enter own s' body)
  | attr id key value =>
    own s (attr id key value) ++
      (let s' := enter s (attr id key value)
       walkSlot enter own s' key ++ walkSlot enter own s' value)
  | profile id descriptor inputs =>
    own s (profile id descriptor inputs) ++
      walkInputs enter own (enter s (profile id descriptor inputs)) inputs
  | fieldQuery id form query => own s (fieldQuery id form query)
  | slotQuery id form query =>
    own s (slotQuery id form query) ++
      walkSlot enter own (enter s (slotQuery id form query)) query
  | stop id message =>
    own s (stop id message) ++ walkSlot enter own (enter s (stop id message)) message
  | log id description value =>
    own s (log id description value) ++
      walkSlot enter own (enter s (log id description value)) value
  | otherwise id value other =>
    own s (otherwise id value other) ++
      (let s' := enter s (otherwise id value other)
       walkSlot enter own s' value ++ walkSlot enter own s' other)
  | backlink id key =>
    own s (backlink id key) ++ walkSlot enter own (enter s (backlink id key)) key
  | reference id pid => own s (reference id pid)
  | literal id value => own s (literal id value)
  | list id items =>
    own s (list id items) ++ walkAll enter own (enter s (list id items)) items

/-- What a walk collects from a slot. -/
def walkSlot (enter : σ → Block → σ) (own : σ → Block → List α) (s : σ) : Option Block → List α
  | none => []
  | some b => walk enter own s b

/-- What a walk collects from the slot of a skip condition. -/
def walkSkip (enter : σ → Block → σ) (own : σ → Block → List α) (s : σ) :
    Option (Option Block) → List α
  | none => []
  | some slot => walkSlot enter own s slot

/-- What a walk collects from blocks in order. -/
def walkAll (enter : σ → Block → σ) (own : σ → Block → List α) (s : σ) : List Block → List α
  | [] => []
  | b :: rest => walk enter own s b ++ walkAll enter own s rest

/-- What a walk collects from the inputs of a profile. -/
def walkInputs (enter : σ → Block → σ) (own : σ → Block → List α) (s : σ) :
    List (String × Block) → List α
  | [] => []
  | (_, b) :: rest => walk enter own s b ++ walkInputs enter own s rest

end

theorem walkAll_append (enter : σ → Block → σ) (own : σ → Block → List α) (s : σ)
    (a b : List Block) :
    walkAll enter own s (a ++ b) = walkAll enter own s a ++ walkAll enter own s b := by
  induction a with
  | nil => simp [walkAll]
  | cons x rest ih => simp [walkAll, ih]

section

variable {enter : σ → Block → σ} {own : σ → Block → List α} {s : σ} {a : α}

theorem mem_walkAll_iff {bs : List Block} : a ∈ walkAll enter own s bs ↔ ∃ b ∈ bs, a ∈ walk enter own s b := by
  induction bs with
  | nil => simp [walkAll]
  | cons b rest ih => simp [walkAll, ih]

theorem mem_walkInputs_iff {inputs : List (String × Block)} :
    a ∈ walkInputs enter own s inputs ↔ ∃ b ∈ inputs.map (·.2), a ∈ walk enter own s b := by
  induction inputs with
  | nil => simp [walkInputs]
  | cons input rest ih => simp [walkInputs, ih]

theorem mem_walk_of_own {b : Block} (inside : a ∈ own s b) : a ∈ walk enter own s b := by
  cases b <;> simp [walk, inside]

end

/-- Whether what is connected to a block is inside a record, given whether the block itself is. -/
def insideRecord (inRecord : Bool) (b : Block) : Bool := inRecord || b.isRecord

/-- A block and all that is connected to it, in the order of a walk. -/
def preorder (b : Block) : List Block := walk (fun _ _ => ()) (fun _ b => [b]) () b

/-- What a walk collects from a graph. -/
def walkGraph (enter : σ → Block → σ) (own : σ → Block → List α) (s : σ) (g : Graph) : List α :=
  walkAll enter own s g.topLevel

end RecordMapper.Block
