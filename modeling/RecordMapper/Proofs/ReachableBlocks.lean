import RecordMapper.Block.Reader
import RecordMapper.Block.Walk

/-!
# Blocks that a workspace reaches

From a block as it is written, the slots that its kind reads lead to further blocks. Main statement:
`ofSource_reachable`, by which a block is read exactly if every block reached from it can be read by itself;
the graph then has these blocks in the same order, and otherwise the first one that cannot be read decides
the error. A reading that goes through some blocks in order is described by `Reads`, and two such readings
compose (`Reads.bind`).
-/

namespace RecordMapper.BlockSource

/-- The name of the kind of a block. -/
def tag : BlockSource → String
  | .mk tag _ _ _ _ _ => tag

/-- The id of a block. -/
def id : BlockSource → String
  | .mk _ id _ _ _ _ => id

/-- The fields of a block by their names. -/
def fields : BlockSource → List (String × Json)
  | .mk _ _ fields _ _ _ => fields

/-- The slots of a block by their names. -/
def slots : BlockSource → List (String × SlotSource)
  | .mk _ _ _ slots _ _ => slots

/-- The slot of the block that follows in a stack. -/
def next : BlockSource → Option SlotSource
  | .mk _ _ _ _ next _ => next

/-- What is known of a block beyond its fields and slots. -/
def state : BlockSource → Option Json
  | .mk _ _ _ _ _ state => state

end RecordMapper.BlockSource

namespace RecordMapper.Proofs.ReachableBlocks
open RecordMapper.Block

/-! ## The blocks that are reached -/

/-- The block in a slot: its own, or else its shadow. -/
def held : SlotSource → Option BlockSource
  | .mk block shadow => block.or shadow

/-- The block in a named slot. -/
def inSlot (r : BlockSource) (name : String) : List BlockSource := ((r.slots.lookup name).bind held).toList

/-- The blocks in all slots that are wanted. -/
def inSlots (wanted : String → Bool) (slots : List (String × SlotSource)) : List BlockSource :=
  (slots.filter fun slot => wanted slot.1).filterMap fun slot => held slot.2

theorem sizeOf_held {s : SlotSource} {q : BlockSource} (holds : held s = some q) : sizeOf q < sizeOf s := by
  obtain ⟨block, shadow⟩ := s
  cases block with
  | some own =>
    cases holds
    simp
    omega
  | none =>
    cases holds
    simp
    omega

theorem sizeOf_next {r q : BlockSource} (next : r.next.bind held = some q) : sizeOf q < sizeOf r := by
  obtain ⟨s, written, holds⟩ := Option.bind_eq_some_iff.mp next
  have smaller := sizeOf_held holds
  cases r
  cases written
  simp
  omega

theorem sizeOf_slot {r q : BlockSource} {name : String} {s : SlotSource} (written : (name, s) ∈ r.slots)
    (holds : held s = some q) : sizeOf q < sizeOf r := by
  have smaller := sizeOf_held holds
  have part := List.sizeOf_lt_of_mem written
  cases r
  simp [BlockSource.slots] at part ⊢
  omega

/-- A block and those chained below it. -/
def chain (r : BlockSource) : List BlockSource :=
  r :: match _ : r.next.bind held with
    | some q => chain q
    | none => []
termination_by sizeOf r
decreasing_by exact sizeOf_next ‹_›

/-- The blocks connected to a block of a kind, in the order in which the kind reads its slots. -/
def connectedAs (r : BlockSource) : BlockType → List BlockSource
  | .record => inSlot r "local-id" ++ (inSlot r "record").flatMap chain
  | .skippableRecord => inSlot r "local-id" ++ (inSlot r "skip-condition" ++ (inSlot r "record").flatMap chain)
  | .attr => inSlot r "KEY" ++ inSlot r "VALUE"
  | .profile => inSlots (fun _ => true) r.slots
  | .backlink => inSlot r "ATTRIBUTE_KEY"
  | .pathSlot => inSlot r "QUERY"
  | .jsonSlot => inSlot r "QUERY"
  | .pointerSlot => inSlot r "QUERY"
  | .stop => inSlot r "MESSAGE"
  | .log => inSlot r "INVAR"
  | .otherwise => inSlot r "VALUE" ++ inSlot r "OTHER"
  | .list => inSlots isItemSlot r.slots
  | .reference => []
  | .pointerField => []
  | .pathField => []
  | .text => []
  | .number => []
  | .truth => []
  | .null => []

/-- The blocks connected to a block; none if its tag names no kind. -/
def connected (r : BlockSource) : List BlockSource :=
  match BlockType.ofTag? r.tag with
  | some type => connectedAs r type
  | none => []

theorem chain_eq (r : BlockSource) : chain r = r :: (r.next.bind held).toList.flatMap chain := by
  rw [chain]
  split
  · next below => simp [below]
  · next below => simp [below]

theorem sizeOf_chain {r q : BlockSource} (inside : q ∈ chain r) : sizeOf q ≤ sizeOf r := by
  induction r using chain.induct with
  | case1 r ih =>
    rw [chain_eq, List.mem_cons, List.mem_flatMap] at inside
    rcases inside with rfl | ⟨p, below, later⟩
    · exact Nat.le_refl _
    · rw [Option.mem_toList] at below
      have step := sizeOf_next below
      have rest := ih p below later
      omega

theorem sizeOf_inSlot {r q : BlockSource} {name : String} (inside : q ∈ inSlot r name) : sizeOf q < sizeOf r := by
  rw [inSlot, Option.mem_toList] at inside
  obtain ⟨s, found, holds⟩ := Option.bind_eq_some_iff.mp inside
  obtain ⟨before, after, written, _⟩ := List.lookup_eq_some_iff.mp found
  have member : (name, s) ∈ r.slots := by simp [written]
  exact sizeOf_slot member holds

theorem sizeOf_inSlots {r q : BlockSource} {wanted : String → Bool} (inside : q ∈ inSlots wanted r.slots) :
    sizeOf q < sizeOf r := by
  obtain ⟨⟨name, s⟩, kept, holds⟩ := List.mem_filterMap.mp inside
  exact sizeOf_slot (List.mem_filter.mp kept).1 holds

theorem sizeOf_connected {r q : BlockSource} (inside : q ∈ connected r) : sizeOf q < sizeOf r := by
  have statements : q ∈ (inSlot r "record").flatMap chain → sizeOf q < sizeOf r := by
    intro chained
    obtain ⟨first, held, below⟩ := List.mem_flatMap.mp chained
    exact Nat.lt_of_le_of_lt (sizeOf_chain below) (sizeOf_inSlot held)
  rw [connected] at inside
  split at inside
  · next type _ =>
    cases type with
    | record =>
      rcases List.mem_append.mp inside with own | below
      · exact sizeOf_inSlot own
      · exact statements below
    | skippableRecord =>
      rcases List.mem_append.mp inside with own | further
      · exact sizeOf_inSlot own
      · exact (List.mem_append.mp further).elim sizeOf_inSlot statements
    | attr | otherwise => exact (List.mem_append.mp inside).elim sizeOf_inSlot sizeOf_inSlot
    | profile | list =>
      rw [connectedAs] at inside
      exact sizeOf_inSlots inside
    | backlink | pathSlot | jsonSlot | pointerSlot | stop | log => exact sizeOf_inSlot inside
    | _ => cases inside
  · cases inside

/-- A block and all that is reached from it, each block before those connected to it. -/
def reachable (r : BlockSource) : List BlockSource :=
  r :: (connected r).attach.flatMap fun q => reachable q.1
termination_by sizeOf r
decreasing_by exact sizeOf_connected q.2

theorem reachable_eq (r : BlockSource) : reachable r = r :: (connected r).flatMap reachable := by
  rw [reachable, List.flatMap_def, List.flatMap_def]
  congr 2
  exact List.attach_map_val

/-! ## Blocks that can be read -/

/-- The data of a block suit its kind: a number has a text or number that stands for one, or none at all, and
a profile has a descriptor that can be read, or none at all. -/
def Suits (r : BlockSource) : BlockType → Prop
  | .number => ∃ n, numberField? r.fields "NUM" = some n
  | .profile => ∀ j, r.state.bind (·.get? "profile") = some j → ∃ d, Descriptor.read j = .ok d
  | _ => True

/-- A block that can be read, whatever is connected to it. -/
def Readable (r : BlockSource) : Prop := ∃ type, BlockType.ofTag? r.tag = some type ∧ Suits r type

/-- Why a block cannot be read. -/
inductive Offends (r : BlockSource) : GraphError → Prop
  | unknownType : BlockType.ofTag? r.tag = none → Offends r (.unknownType r.id r.tag)
  | badNumber : BlockType.ofTag? r.tag = some .number → numberField? r.fields "NUM" = none →
      Offends r (.malformed (.badNumber r.id))
  | badDescriptor {j : Json} {cause : DecodeError} : BlockType.ofTag? r.tag = some .profile →
      r.state.bind (·.get? "profile") = some j → Descriptor.read j = .error cause →
      Offends r (.malformed (.badDescriptor r.id cause))

theorem not_readable_of_offends {r : BlockSource} {e : GraphError} (offends : Offends r e) : ¬ Readable r := by
  rintro ⟨type, known, suits⟩
  cases offends with
  | unknownType unknown =>
    rw [unknown] at known
    cases known
  | badNumber number unread =>
    rw [number] at known
    cases known
    obtain ⟨n, reads⟩ := suits
    rw [unread] at reads
    cases reads
  | badDescriptor profile present unread =>
    rw [profile] at known
    cases known
    obtain ⟨d, reads⟩ := suits _ present
    rw [unread] at reads
    cases reads

/-- The text of the error names the block. -/
theorem message_of_offends {r : BlockSource} {e : GraphError} (offends : Offends r e) :
    ∃ before behind, e.message = before ++ "Block '" ++ r.id ++ "'" ++ behind := by
  cases offends with
  | unknownType _ =>
    have quote : "' has unknown type '" = "'" ++ " has unknown type '" := by simp
    refine ⟨"", " has unknown type '" ++ r.tag ++ "'", ?_⟩
    change "Block '" ++ r.id ++ "' has unknown type '" ++ r.tag ++ "'" = _
    simp only [quote, String.append_assoc, String.empty_append]
  | badNumber _ _ =>
    have quote : "' has an invalid number field" = "'" ++ " has an invalid number field" := by simp
    refine ⟨"Malformed block graph: ", " has an invalid number field", ?_⟩
    change "Malformed block graph: " ++ ("Block '" ++ r.id ++ "' has an invalid number field") = _
    simp only [quote, String.append_assoc]
  | @badDescriptor _ cause _ _ _ =>
    have quote : "' has an unreadable profile descriptor: " =
        "'" ++ " has an unreadable profile descriptor: " := by simp
    refine ⟨"Malformed block graph: ", " has an unreadable profile descriptor: " ++ cause.message, ?_⟩
    change "Malformed block graph: " ++
      ("Block '" ++ r.id ++ "' has an unreadable profile descriptor: " ++ cause.message) = _
    simp only [quote, String.append_assoc]

/-! ## Readings -/

/-- A reading that goes through blocks in order: it comes to a result if all of them can be read, and else
the first one that cannot be read decides the error. -/
def Reads {α : Type} (rs : List BlockSource) (post : α → Prop) : GraphResult α → Prop
  | .ok a => (∀ r ∈ rs, Readable r) ∧ post a
  | .error e => ∃ before q behind, rs = before ++ q :: behind ∧ (∀ p ∈ before, Readable p) ∧ Offends q e

section

variable {α β : Type} {rs qs : List BlockSource} {post : α → Prop} {post' : β → Prop} {came : GraphResult α}

theorem Reads.pure {a : α} (holds : post a) : Reads [] post (.ok a) := ⟨by simp, holds⟩

theorem Reads.bind {next : α → GraphResult β} (first : Reads rs post came)
    (later : ∀ a, post a → Reads qs post' (next a)) : Reads (rs ++ qs) post' (came >>= next) := by
  cases came with
  | error e =>
    obtain ⟨before, q, behind, rfl, readable, offends⟩ := first
    exact ⟨before, q, behind ++ qs, by simp, readable, offends⟩
  | ok a =>
    obtain ⟨all, holds⟩ := first
    have second := later a holds
    change Reads (rs ++ qs) post' (next a)
    cases outcome : next a with
    | error e =>
      rw [outcome] at second
      obtain ⟨before, q, behind, rfl, readable, offends⟩ := second
      refine ⟨rs ++ before, q, behind, by simp, ?_, offends⟩
      intro p inside
      exact (List.mem_append.mp inside).elim (all p) (readable p)
    | ok b =>
      rw [outcome] at second
      refine ⟨?_, second.2⟩
      intro r inside
      exact (List.mem_append.mp inside).elim (all r) (second.1 r)

theorem Reads.bind_ok {f : α → β} (first : Reads rs post came) (holds : ∀ a, post a → post' (f a)) :
    Reads rs post' (came >>= fun a => .ok (f a)) := by
  have both : Reads (rs ++ []) post' (came >>= fun a => .ok (f a)) :=
    first.bind fun a came => Reads.pure (holds a came)
  rwa [List.append_nil] at both

theorem Reads.map {f : α → β} (first : Reads rs post came) (holds : ∀ a, post a → post' (f a)) :
    Reads rs post' (came.map f) := by
  have both := first.bind_ok holds
  cases came with
  | error e => exact both
  | ok a => exact both

theorem Reads.cons {r : BlockSource} (own : Readable r) (later : Reads rs post came) : Reads (r :: rs) post came := by
  cases came with
  | error e =>
    obtain ⟨before, q, behind, rfl, readable, offends⟩ := later
    exact ⟨r :: before, q, behind, rfl, List.forall_mem_cons.mpr ⟨own, readable⟩, offends⟩
  | ok a => exact ⟨List.forall_mem_cons.mpr ⟨own, later.1⟩, later.2⟩

theorem reads_offender {r : BlockSource} {e : GraphError} (offends : Offends r e) :
    Reads (r :: rs) post (.error e) := ⟨[], r, rs, rfl, by simp, offends⟩

end

/-! ## The blocks of a graph -/

/-- The blocks connected to a block of a graph, in the order of a walk. -/
def parts : Block → List Block
  | .record _ localId skip body => localId.toList ++ (skip.join.toList ++ body)
  | .attr _ key value => key.toList ++ value.toList
  | .profile _ _ inputs => inputs.map (·.2)
  | .slotQuery _ _ query => query.toList
  | .stop _ message => message.toList
  | .log _ _ value => value.toList
  | .otherwise _ value other => value.toList ++ other.toList
  | .backlink _ key => key.toList
  | .list _ items => items
  | .fieldQuery _ _ _ => []
  | .reference _ _ => []
  | .literal _ _ => []

section

variable {σ α : Type} {enter : σ → Block → σ} {own : σ → Block → List α} {s : σ}

theorem walkSlot_eq_flatMap (slot : Option Block) :
    walkSlot enter own s slot = slot.toList.flatMap (walk enter own s) := by
  cases slot <;> simp [walkSlot]

theorem walkAll_eq_flatMap (bs : List Block) : walkAll enter own s bs = bs.flatMap (walk enter own s) := by
  induction bs with
  | nil => simp [walkAll]
  | cons b rest ih => simp [walkAll, ih]

theorem walkInputs_eq_flatMap (inputs : List (String × Block)) :
    walkInputs enter own s inputs = (inputs.map (·.2)).flatMap (walk enter own s) := by
  induction inputs with
  | nil => simp [walkInputs]
  | cons input rest ih => simp [walkInputs, ih]

/-- A walk collects what a block adds itself, and then what its parts add in order. -/
theorem walk_eq (b : Block) :
    walk enter own s b = own s b ++ (parts b).flatMap (walk enter own (enter s b)) := by
  cases b with
  | record id localId skip body =>
    cases skip with
    | none => simp [walk, parts, walkSlot_eq_flatMap, walkAll_eq_flatMap, walkSkip]
    | some slot => simp [walk, parts, walkSlot_eq_flatMap, walkAll_eq_flatMap, walkSkip]
  | _ => simp [walk, parts, walkSlot_eq_flatMap, walkAll_eq_flatMap, walkInputs_eq_flatMap]

end

theorem preorder_eq (b : Block) : preorder b = b :: (parts b).flatMap preorder := walk_eq b

theorem sizeOf_connectedTo {slot : Option Block} {p : Block} (inside : p ∈ slot.toList) : sizeOf p < sizeOf slot := by
  obtain rfl := Option.mem_toList.mp inside
  simp

theorem sizeOf_parts {b p : Block} (inside : p ∈ parts b) : sizeOf p < sizeOf b := by
  cases b with
  | record id localId skip body =>
    simp only [parts, List.mem_append] at inside
    rcases inside with own | condition | statement
    · have smaller := sizeOf_connectedTo own
      simp
      omega
    · cases skip with
      | none => cases condition
      | some slot =>
        have smaller := sizeOf_connectedTo condition
        simp at smaller ⊢
        omega
    · have smaller := List.sizeOf_lt_of_mem statement
      simp
      omega
  | attr _ _ _ | otherwise _ _ _ =>
    rcases List.mem_append.mp inside with first | second
    · have smaller := sizeOf_connectedTo first
      simp
      omega
    · have smaller := sizeOf_connectedTo second
      simp
      omega
  | profile id descriptor inputs =>
    obtain ⟨⟨name, q⟩, input, rfl⟩ := List.mem_map.mp inside
    have smaller := List.sizeOf_lt_of_mem input
    simp at smaller ⊢
    omega
  | list id items =>
    have smaller : sizeOf p < sizeOf items := List.sizeOf_lt_of_mem inside
    simp
    omega
  | slotQuery _ _ _ | stop _ _ | log _ _ _ | backlink _ _ =>
    have smaller := sizeOf_connectedTo inside
    simp
    omega
  | fieldQuery _ _ _ | reference _ _ | literal _ _ => cases inside

/-- The tag and id of a block as it is written. -/
def label (r : BlockSource) : String × String := (r.tag, r.id)

/-- Blocks of a graph, with all that is connected to them, have the tags and ids of blocks as written. -/
def Stands (bs : List Block) (rs : List BlockSource) : Prop :=
  (bs.flatMap preorder).map (fun b => (b.type.tag, b.id)) = rs.map label

theorem Stands.append {bs cs : List Block} {rs qs : List BlockSource} (first : Stands bs rs) (later : Stands cs qs) :
    Stands (bs ++ cs) (rs ++ qs) := by
  rw [Stands, List.flatMap_append, List.map_append, first, later, List.map_append]

theorem Stands.cons {b : Block} {r : BlockSource} {rs : List BlockSource} (same : (b.type.tag, b.id) = label r)
    (later : Stands (parts b) rs) : Stands [b] (r :: rs) := by
  rw [Stands, List.flatMap_singleton, preorder_eq, List.map_cons, same, List.map_cons, later]

/-! ## Reading slots -/

/-- A block is read through all that is reached from it. -/
def Faithful (r : BlockSource) : Prop := Reads (reachable r) (fun b => Stands [b] (reachable r)) (ofSource r)

theorem slotReading_eq (s : SlotSource) : slotReading s = (held s).map reading := by
  obtain ⟨block, shadow⟩ := s
  cases block with
  | some own => rfl
  | none => cases shadow <;> rfl

theorem lookup_readings (slots : List (String × SlotSource)) (name : String) :
    ((readings slots).lookup name).join = ((slots.lookup name).bind held).map reading := by
  induction slots with
  | nil => rfl
  | cons slot rest ih =>
    obtain ⟨own, s⟩ := slot
    rw [readings, List.lookup_cons, List.lookup_cons]
    cases name == own with
    | true => exact slotReading_eq s
    | false => exact ih

theorem reads_slot {r : BlockSource} {name : String} (each : ∀ q ∈ inSlot r name, Faithful q) :
    Reads ((inSlot r name).flatMap reachable) (fun b => Stands b.toList ((inSlot r name).flatMap reachable))
      ((readings r.slots).slot name) := by
  rw [Readings.slot, lookup_readings]
  rw [inSlot] at each ⊢
  cases inside : (r.slots.lookup name).bind held with
  | none => exact .pure rfl
  | some q =>
    rw [inside] at each
    have faithful : Faithful q := each q (by simp)
    simp only [Option.toList_some, List.flatMap_singleton, Option.map_some]
    exact faithful.map fun b stands => stands

theorem below_reading (r : BlockSource) :
    (reading r).below = match r.next.bind held with
      | some q => (reading q).chain
      | none => .ok [] := by
  obtain ⟨tag, id, fields, slots, next, state⟩ := r
  cases next with
  | none => rfl
  | some s =>
    rw [reading]
    simp only [BlockSource.next, Option.bind_some, slotReading_eq]
    cases held s <;> rfl

theorem chain_reading (r : BlockSource) :
    (reading r).chain = ofSource r >>= fun b => (reading r).below.map (b :: ·) := by
  rw [Reading.chain, ofSource]
  cases (reading r).block <;> rfl

theorem reads_chain {r : BlockSource} (each : ∀ q ∈ chain r, Faithful q) :
    Reads ((chain r).flatMap reachable) (fun bs => Stands bs ((chain r).flatMap reachable)) (reading r).chain := by
  induction r using chain.induct with
  | case1 r ih =>
    rw [chain_eq] at each ⊢
    obtain ⟨first, later⟩ := List.forall_mem_cons.mp each
    rw [chain_reading, List.flatMap_cons]
    refine first.bind fun b stands => ?_
    have rest : Reads (((r.next.bind held).toList.flatMap chain).flatMap reachable)
        (fun bs => Stands bs (((r.next.bind held).toList.flatMap chain).flatMap reachable)) (reading r).below := by
      rw [below_reading]
      cases below : r.next.bind held with
      | none => exact .pure rfl
      | some q =>
        rw [below] at later
        simp only [Option.toList_some, List.flatMap_singleton] at later ⊢
        exact ih q below later
    exact rest.map fun bs others => stands.append others

/-- The statements of a record are the blocks chained in a slot. -/
theorem reads_statements {r : BlockSource} {name : String}
    (each : ∀ q ∈ (inSlot r name).flatMap chain, Faithful q) :
    Reads (((inSlot r name).flatMap chain).flatMap reachable)
      (fun bs => Stands bs (((inSlot r name).flatMap chain).flatMap reachable)) ((readings r.slots).chain name) := by
  rw [Readings.chain, lookup_readings]
  rw [inSlot] at each ⊢
  cases inside : (r.slots.lookup name).bind held with
  | none => exact .pure rfl
  | some q =>
    rw [inside] at each
    simp only [Option.toList_some, List.flatMap_singleton, Option.map_some] at each ⊢
    exact reads_chain each

theorem reads_slots {wanted : String → Bool} {slots : List (String × SlotSource)}
    (each : ∀ q ∈ inSlots wanted slots, Faithful q) :
    Reads ((inSlots wanted slots).flatMap reachable)
      (fun found => Stands (found.map (·.2)) ((inSlots wanted slots).flatMap reachable))
      ((readings slots).connected wanted) := by
  induction slots with
  | nil => exact .pure rfl
  | cons slot rest ih =>
    obtain ⟨name, s⟩ := slot
    rw [readings, slotReading_eq]
    cases inside : held s with
    | none =>
      have passed : inSlots wanted ((name, s) :: rest) = inSlots wanted rest := by
        rw [inSlots, inSlots, List.filter_cons]
        split <;> simp [inside]
      rw [passed] at each ⊢
      exact ih each
    | some q =>
      rw [Option.map_some, Readings.connected]
      cases takes : wanted name with
      | false =>
        have passed : inSlots wanted ((name, s) :: rest) = inSlots wanted rest := by
          simp [inSlots, takes]
        rw [passed] at each ⊢
        exact ih each
      | true =>
        have taken : inSlots wanted ((name, s) :: rest) = q :: inSlots wanted rest := by
          simp [inSlots, takes, inside]
        rw [taken] at each ⊢
        obtain ⟨first, later⟩ := List.forall_mem_cons.mp each
        have both : Reads (reachable q ++ (inSlots wanted rest).flatMap reachable)
            (fun found => Stands (found.map (·.2)) (reachable q ++ (inSlots wanted rest).flatMap reachable))
            (ofSource q >>= fun b => ((readings rest).connected wanted).map ((name, b) :: ·)) :=
          first.bind fun b stands => (ih later).map fun found others => stands.append others
        rw [List.flatMap_cons]
        rw [ofSource] at both
        cases block : (reading q).block with
        | error e => rw [block] at both; exact both
        | ok b => rw [block] at both; exact both

/-! ## Reading blocks -/

theorem tag_of_known {tag : String} {type : BlockType} (known : BlockType.ofTag? tag = some type) : type.tag = tag := by
  have found := List.find?_some known
  exact eq_of_beq found

theorem readable_of_known {r : BlockSource} {type : BlockType} (known : BlockType.ofTag? r.tag = some type)
    (number : type ≠ .number) (profile : type ≠ .profile) : Readable r := by
  refine ⟨type, known, ?_⟩
  cases type <;> trivial

theorem Stands.block {r : BlockSource} {b : Block} {rs : List BlockSource}
    (known : BlockType.ofTag? r.tag = some b.type) (named : b.id = r.id) (later : Stands (parts b) rs) :
    Stands [b] (r :: rs) := by
  refine .cons ?_ later
  rw [label, tag_of_known known, named]

theorem reads_descriptor {r : BlockSource} {rs : List BlockSource} {α : Type} {post : α → Prop}
    {next : Option Descriptor → GraphResult α} (known : BlockType.ofTag? r.tag = some .profile)
    (later : ∀ d, Reads rs post (next d)) : Reads (r :: rs) post (descriptorOf r.id r.state >>= next) := by
  rw [descriptorOf]
  cases present : r.state.bind (·.get? "profile") with
  | none =>
    refine .cons ⟨_, known, fun j written => ?_⟩ (later none)
    rw [present] at written
    cases written
  | some j =>
    simp only
    cases outcome : Descriptor.read j with
    | error cause => exact reads_offender (.badDescriptor known present outcome)
    | ok d =>
      refine .cons ⟨_, known, fun j' written => ⟨d, ?_⟩⟩ (later (some d))
      rw [present] at written
      cases written
      exact outcome

theorem reads_assemble {r : BlockSource} {type : BlockType} (known : BlockType.ofTag? r.tag = some type)
    (each : ∀ q ∈ connectedAs r type, Faithful q) :
    Reads (r :: (connectedAs r type).flatMap reachable)
      (fun b => Stands [b] (r :: (connectedAs r type).flatMap reachable))
      (assemble type r.id r.fields (readings r.slots) r.state) := by
  cases type with
  | record =>
    simp only [connectedAs, List.flatMap_append, List.forall_mem_append] at each ⊢
    refine .cons (readable_of_known known nofun nofun) ?_
    refine (reads_slot each.1).bind fun localId first => ?_
    exact (reads_statements each.2).bind_ok fun body later => .block known rfl (first.append later)
  | skippableRecord =>
    simp only [connectedAs, List.flatMap_append, List.forall_mem_append] at each ⊢
    refine .cons (readable_of_known known nofun nofun) ?_
    refine (reads_slot each.1).bind fun localId first => ?_
    refine (reads_slot each.2.1).bind fun skip second => ?_
    exact (reads_statements each.2.2).bind_ok fun body later =>
      .block known rfl (first.append (second.append later))
  | attr | otherwise =>
    simp only [connectedAs, List.flatMap_append, List.forall_mem_append] at each ⊢
    refine .cons (readable_of_known known nofun nofun) ?_
    refine (reads_slot each.1).bind fun _ first => ?_
    exact (reads_slot each.2).bind_ok fun _ second => .block known rfl (first.append second)
  | profile =>
    rw [connectedAs] at each ⊢
    refine reads_descriptor known fun descriptor => ?_
    exact (reads_slots each).bind_ok fun inputs stands => .block known rfl stands
  | list =>
    refine .cons (readable_of_known known nofun nofun) ?_
    exact (reads_slots each).map fun items stands => .block known rfl stands
  | number =>
    rw [assemble]
    cases read : numberField? r.fields "NUM" with
    | none => exact reads_offender (.badNumber known read)
    | some n => exact .cons ⟨_, known, n, read⟩ (.pure (.block known rfl rfl))
  | backlink | pathSlot | jsonSlot | pointerSlot | stop | log =>
    refine .cons (readable_of_known known nofun nofun) ?_
    exact (reads_slot each).map fun _ stands => .block known rfl stands
  | _ => exact .cons (readable_of_known known nofun nofun) (.pure (.block known rfl rfl))

theorem faithful (r : BlockSource) : Faithful r := by
  induction r using reachable.induct with
  | case1 r ih =>
    have each : ∀ q ∈ connected r, Faithful q := fun q inside => ih ⟨q, inside⟩
    rw [Faithful, reachable_eq]
    rw [connected] at each ⊢
    have read : ofSource r = match BlockType.ofTag? r.tag with
        | some type => assemble type r.id r.fields (readings r.slots) r.state
        | none => .error (.unknownType r.id r.tag) := by
      cases r
      rfl
    rw [read]
    cases known : BlockType.ofTag? r.tag with
    | none => exact reads_offender (.unknownType known)
    | some type =>
      rw [known] at each
      exact reads_assemble known each

/-- A block comes to a graph exactly if every block reached from it can be read. The graph then has the tags
and ids of these blocks, in the same order, and otherwise the error is that of the first one that cannot
be read and names it. -/
theorem ofSource_reachable (r : BlockSource) :
    ((∃ b, ofSource r = .ok b) ↔ ∀ q ∈ reachable r, Readable q) ∧
    (∀ b, ofSource r = .ok b → (preorder b).map (fun c => (c.type.tag, c.id)) = (reachable r).map label) ∧
    ∀ e, ofSource r = .error e → ∃ before q behind, reachable r = before ++ q :: behind ∧
      (∀ p ∈ before, Readable p) ∧ ¬ Readable q ∧ Offends q e ∧
      ∃ start rest, e.message = start ++ "Block '" ++ q.id ++ "'" ++ rest := by
  have read := faithful r
  rw [Faithful] at read
  cases outcome : ofSource r with
  | error e =>
    rw [outcome] at read
    obtain ⟨before, q, behind, reached, readable, offends⟩ := read
    have unreadable := not_readable_of_offends offends
    refine ⟨iff_of_false nofun fun all => ?_, nofun, ?_⟩
    · exact unreadable (all q (by simp [reached]))
    · rintro _ ⟨⟩
      exact ⟨before, q, behind, reached, readable, unreadable, offends, message_of_offends offends⟩
  | ok b =>
    rw [outcome] at read
    refine ⟨iff_of_true ⟨b, rfl⟩ read.1, ?_, nofun⟩
    rintro _ ⟨⟩
    have stands : Stands [b] (reachable r) := read.2
    rw [Stands, List.flatMap_singleton] at stands
    exact stands

end RecordMapper.Proofs.ReachableBlocks
