import RecordMapper.Diagnostic
import RecordMapper.Proofs.Places

/-!
# Reports

Diagnostics and known queries are listed place by place. At a place each code is reported exactly if there is a
cause (`reported_iff`), and only that of a block outside of all records depends on more than the block itself. A
pass that keeps a single counter of the records it is inside of comes to the same list (`Pass.walks`). Main
statement: `diagnostics_in_preorder`.
-/

namespace RecordMapper.Proofs.Reports
open RecordMapper.Block RecordMapper.Proofs.ReachableBlocks RecordMapper.Proofs.Places

/-! ## Diagnostics -/

/-- The blocks that belong in a record: attributes and profiles. -/
def belongsInRecord : Block → Bool
  | .attr _ _ _ => true
  | .profile _ _ _ => true
  | _ => false

/-- An attribute or profile that no record is around. -/
def Orphan (place : Place) : Prop := belongsInRecord place.block = true ∧ ∀ b ∈ place.around, b.isRecord = false

instance (place : Place) : Decidable (Orphan place) := inferInstanceAs (Decidable (_ ∧ _))

/-- What is reported at a place: first that a block belongs to no record, then what the block itself gives cause
for. -/
def reportsAt (place : Place) : List Diagnostic :=
  (if Orphan place then Diagnostic.ofPlace false place.block else []) ++ Diagnostic.ofBlock true place.block

/-- What gives cause for a diagnostic at a place. -/
def Gives (place : Place) : DiagnosticCode → Prop
  | .recordWithoutId => ∃ id skip body, place.block = .record id none skip body
  | .attributeDropped => ∃ id key value, place.block = .attr id key value ∧
      (isEmptySlot key = true ∨ isEmptySlot value = true)
  | .incompleteProfile => ∃ id descriptor inputs gap, place.block = .profile id descriptor inputs ∧
      contract descriptor = .error gap
  | .invalidPointer => ∃ query e, place.block.language? = some .pointer ∧ place.block.literalQuery? = some query ∧
      Pointer.parse query = .error e
  | .orphanStatement => Orphan place

theorem missingPart_eq_none_iff (key value : Option Block) :
    Diagnostic.missingPart key value = none ↔ ¬ (isEmptySlot key = true ∨ isEmptySlot value = true) := by
  rw [Diagnostic.missingPart]
  split <;> simp_all

theorem cause_of_attr {id : String} {key value : Option Block} {d : Diagnostic}
    (own : d ∈ Diagnostic.ofBlock true (.attr id key value)) :
    (isEmptySlot key = true ∨ isEmptySlot value = true) ∧
      d.code = DiagnosticCode.attributeDropped.text ∧ d.blockId = id := by
  have missing := missingPart_eq_none_iff key value
  rw [Diagnostic.ofBlock, Diagnostic.ofPlace, if_pos rfl, List.nil_append] at own
  split at own
  · rename_i part lacks
    obtain rfl := List.mem_singleton.mp own
    have empty : isEmptySlot key = true ∨ isEmptySlot value = true := by
      by_contra full
      rw [missing.mpr full] at lacks
      cases lacks
    exact ⟨empty, rfl, rfl⟩
  · cases own

theorem cause_of_profile {id : String} {descriptor : Option Descriptor} {inputs : List (String × Block)}
    {d : Diagnostic} (own : d ∈ Diagnostic.ofBlock true (.profile id descriptor inputs)) :
    ∃ gap, contract descriptor = .error gap ∧
      d = Diagnostic.ofCode .incompleteProfile (GraphError.incompleteProfile id gap).message id [] := by
  rw [Diagnostic.ofBlock, Diagnostic.ofPlace, if_pos rfl, List.nil_append] at own
  split at own
  · rename_i gap lacks
    exact ⟨gap, lacks, List.mem_singleton.mp own⟩
  · cases own

theorem cause_of_query {b : Block} {d : Diagnostic} (reported : d ∈ Diagnostic.ofQuery b) :
    (∃ query e, b.language? = some .pointer ∧ b.literalQuery? = some query ∧ Pointer.parse query = .error e) ∧
      d.code = DiagnosticCode.invalidPointer.text ∧ d.blockId = b.id := by
  unfold Diagnostic.ofQuery at reported
  split at reported
  · rename_i query language known
    split at reported
    · rename_i e failed
      obtain rfl := List.mem_singleton.mp reported
      exact ⟨⟨query, e, language, known, failed⟩, rfl, rfl⟩
    · cases reported
  · cases reported

/-- Each diagnostic of a place has its cause there. -/
theorem gives_of_reported {place : Place} {d : Diagnostic} (reported : d ∈ reportsAt place) :
    ∃ cause, Gives place cause ∧ d.code = cause.text ∧ d.blockId = place.block.id := by
  rcases List.mem_append.mp reported with placed | own
  · split_ifs at placed with orphan
    · obtain rfl := List.mem_singleton.mp placed
      exact ⟨.orphanStatement, orphan, rfl, rfl⟩
    · cases placed
  · obtain ⟨address, around, b⟩ := place
    cases b with
    | record id localId skip body =>
      cases localId with
      | none =>
        obtain rfl := List.mem_singleton.mp own
        exact ⟨.recordWithoutId, ⟨id, skip, body, rfl⟩, rfl, rfl⟩
      | some _ => cases own
    | attr id key value =>
      obtain ⟨empty, told⟩ := cause_of_attr own
      exact ⟨.attributeDropped, ⟨id, key, value, rfl, empty⟩, told⟩
    | profile id descriptor inputs =>
      obtain ⟨gap, lacks, rfl⟩ := cause_of_profile own
      exact ⟨.incompleteProfile, ⟨id, descriptor, inputs, gap, rfl, lacks⟩, rfl, rfl⟩
    | fieldQuery | slotQuery => exact ⟨.invalidPointer, cause_of_query own⟩
    | _ => cases own

theorem profile_reported {address : List Nat} {around : List Block} {id : String} {descriptor : Option Descriptor}
    {inputs : List (String × Block)} {gap : ProfileGap} (lacks : contract descriptor = .error gap) :
    Diagnostic.ofCode .incompleteProfile (GraphError.incompleteProfile id gap).message id [] ∈
      reportsAt ⟨address, around, .profile id descriptor inputs⟩ := by
  rw [reportsAt, Diagnostic.ofBlock, lacks]
  exact List.mem_append_right _ (List.mem_append_right _ (List.mem_singleton_self _))

theorem reported_of_gives {place : Place} {cause : DiagnosticCode} (gives : Gives place cause) :
    ∃ d ∈ reportsAt place, d.code = cause.text := by
  obtain ⟨address, around, b⟩ := place
  cases cause with
  | recordWithoutId =>
    obtain ⟨id, skip, body, rfl⟩ := gives
    exact ⟨_, List.mem_append_right _ (List.mem_singleton_self _), rfl⟩
  | attributeDropped =>
    obtain ⟨id, key, value, rfl, empty⟩ := gives
    cases part : Diagnostic.missingPart key value with
    | none => exact absurd empty ((missingPart_eq_none_iff key value).mp part)
    | some part' =>
      refine ⟨.ofCode .attributeDropped ("Attribute has no " ++ part') id [], List.mem_append_right _ ?_, rfl⟩
      rw [Diagnostic.ofBlock, part]
      exact List.mem_append_right _ (List.mem_singleton_self _)
  | incompleteProfile =>
    obtain ⟨id, descriptor, inputs, gap, rfl, lacks⟩ := gives
    exact ⟨_, profile_reported lacks, rfl⟩
  | invalidPointer =>
    obtain ⟨query, e, language, known, failed⟩ := gives
    have asked : Diagnostic.ofBlock true b = Diagnostic.ofQuery b := by
      cases b with
      | fieldQuery | slotQuery => rfl
      | _ => cases language
    refine ⟨.ofCode .invalidPointer e.message b.id ["A JSON Pointer is empty or starts with '/'."],
      List.mem_append_right _ ?_, rfl⟩
    rw [asked, Diagnostic.ofQuery, language, known]
    dsimp only
    rw [failed]
    exact List.mem_singleton_self _
  | orphanStatement =>
    have orphan : Orphan ⟨address, around, b⟩ := gives
    refine ⟨.ofCode .orphanStatement ("'" ++ b.type.tag ++ "' block is not placed inside a record") b.id [],
      List.mem_append_left _ ?_, rfl⟩
    rw [if_pos orphan]
    exact List.mem_singleton_self _

theorem reported_iff (place : Place) (cause : DiagnosticCode) :
    (∃ d ∈ reportsAt place, d.code = cause.text) ↔ Gives place cause := by
  constructor
  · rintro ⟨d, reported, code⟩
    obtain ⟨cause', gives, code', _⟩ := gives_of_reported reported
    have same : cause = cause' := by
      rw [code] at code'
      revert code'
      cases cause <;> cases cause' <;> decide
    exact same ▸ gives
  · exact reported_of_gives

theorem stateIn_record (around : List Block) :
    stateIn insideRecord false around = around.any isRecord := by
  induction around with
  | nil => rfl
  | cons b rest ih =>
    rw [stateIn, List.foldr_cons, ← stateIn, ih, insideRecord, List.any_cons, Bool.or_comm]

theorem ofBlock_eq_ofPlace (inRecord : Bool) (b : Block) :
    Diagnostic.ofBlock inRecord b =
      (if belongsInRecord b = true then Diagnostic.ofPlace inRecord b else []) ++ Diagnostic.ofBlock true b := by
  cases b with
  | record id localId skip body => cases localId <;> rfl
  | _ => rfl

theorem ofBlock_eq (place : Place) :
    Diagnostic.ofBlock (place.around.any isRecord) place.block = reportsAt place := by
  rw [ofBlock_eq_ofPlace, reportsAt]
  congr 1
  cases covered : place.around.any isRecord with
  | true =>
    have held : ¬ Orphan place := by
      rintro ⟨_, noRecord⟩
      obtain ⟨b, member, record⟩ := List.any_eq_true.mp covered
      rw [noRecord b member] at record
      cases record
    rw [if_neg held, Diagnostic.ofPlace, if_pos rfl, ite_self]
  | false =>
    have noRecord : ∀ b ∈ place.around, b.isRecord = false := by simpa using covered
    exact if_congr (iff_self_and.mpr fun _ => noRecord) rfl rfl

theorem validate_eq (g : Graph) : g.validate = (places g).flatMap reportsAt := by
  rw [Graph.validate, walkGraph_eq]
  exact List.flatMap_congr fun place _ => by rw [stateIn_record, ofBlock_eq]

/-! ## Known queries -/

/-- The query of a query block that is known before any document is. -/
def knownQuery? : Block → Option Graph.QueryUse
  | .fieldQuery name _ query => some ⟨name, .pointer, query⟩
  | .slotQuery name form (some (.literal _ (.text query))) => some ⟨name, form.language, query⟩
  | _ => none

theorem ofBlock_eq_knownQuery (b : Block) : Graph.QueryUse.ofBlock b = (knownQuery? b).toList := by
  cases b with
  | slotQuery name form query =>
    rcases query with _ | q
    · rfl
    · cases q with
      | literal _ value => cases value <;> rfl
      | _ => rfl
  | _ => rfl

theorem queryUses_eq (g : Graph) : g.queryUses = (places g).filterMap fun place => knownQuery? place.block := by
  rw [Graph.queryUses, walkGraph_eq, List.filterMap_eq_flatMap_toList]
  exact List.flatMap_congr fun place _ => ofBlock_eq_knownQuery place.block

/-! ## A pass with a counter -/

/-- What a pass keeps: how many records it has entered and not left, and what it has noted. -/
structure Pass where
  inside : Nat
  noted : List Diagnostic

namespace Pass

/-- The pass with the diagnostics of a block noted. -/
def note (b : Block) (pass : Pass) : Pass :=
  { pass with noted := pass.noted ++ Diagnostic.ofBlock (decide (0 < pass.inside)) b }

/-- The pass on its way to the parts of a block. -/
def enter (b : Block) (pass : Pass) : Pass :=
  { pass with inside := if b.isRecord then pass.inside + 1 else pass.inside }

/-- The pass on its way back from the parts of a block. -/
def leave (b : Block) (pass : Pass) : Pass :=
  { pass with inside := if b.isRecord then pass.inside - 1 else pass.inside }

/-- A pass that visits a block and then its parts, between entering and leaving it. -/
def visit (pass : Pass) (b : Block) : Pass :=
  ((parts b).attach.foldl (fun pass part => visit pass part.1) ((pass.note b).enter b)).leave b
termination_by sizeOf b
decreasing_by exact sizeOf_parts part.2

theorem visit_def (pass : Pass) (b : Block) :
    visit pass b = ((parts b).foldl visit ((pass.note b).enter b)).leave b := by
  rw [visit, List.foldl_attach]

/-- What a walk reports of a block and of all that is connected to it. -/
def walked (inRecord : Bool) (b : Block) : List Diagnostic :=
  walk insideRecord Diagnostic.ofBlock inRecord b

/-- A pass leaves a block with as many records around it as it came with, and has noted what a walk reports. -/
def Walks (b : Block) : Prop :=
  ∀ pass : Pass, pass.visit b = ⟨pass.inside, pass.noted ++ walked (decide (0 < pass.inside)) b⟩

theorem foldl_visit {bs : List Block} (each : ∀ b ∈ bs, Walks b) (pass : Pass) :
    bs.foldl visit pass = ⟨pass.inside, pass.noted ++ bs.flatMap (walked (decide (0 < pass.inside)))⟩ := by
  induction bs generalizing pass with
  | nil => simp
  | cons b rest ih =>
    obtain ⟨own, later⟩ := List.forall_mem_cons.mp each
    rw [List.foldl_cons, own, ih later, List.flatMap_cons, List.append_assoc]

theorem walks (b : Block) : Walks b := by
  intro pass
  have below := foldl_visit (fun p (part : p ∈ parts b) => walks p) ((pass.note b).enter b)
  have entered : decide (0 < ((pass.note b).enter b).inside) = insideRecord (decide (0 < pass.inside)) b := by
    cases record : b.isRecord <;> simp [note, enter, insideRecord, record]
  have own : walked (decide (0 < pass.inside)) b = Diagnostic.ofBlock (decide (0 < pass.inside)) b ++
      (parts b).flatMap (walked (insideRecord (decide (0 < pass.inside)) b)) := walk_eq b
  rw [visit_def, below, entered, own]
  -- what a record adds to the count when it is entered is taken off again when it is left
  cases record : b.isRecord <;> simp [note, enter, leave, record]
termination_by sizeOf b
decreasing_by exact sizeOf_parts part

end Pass

/-- The diagnostics of a graph are those of its places in their order, where an attribute or profile that is
inside of no record is reported as that first; each code is reported at a place exactly if its cause is there.
The known queries are listed in the same order. A pass through the graph with a single counter notes the same
diagnostics and ends outside of all records, so that each top-level block is reported as if it stood alone. -/
theorem diagnostics_in_preorder (g : Graph) :
    (∀ ps, InPreorder g ps ↔ ps = places g) ∧
      g.validate = (places g).flatMap reportsAt ∧
      (∀ place cause, (∃ d ∈ reportsAt place, d.code = DiagnosticCode.text cause) ↔ Gives place cause) ∧
      (g.queryUses = (places g).filterMap fun place => knownQuery? place.block) ∧
      g.topLevel.foldl Pass.visit ⟨0, []⟩ = ⟨0, g.validate⟩ ∧
      g.validate = g.topLevel.flatMap fun b => (Graph.mk [[b]]).validate := by
  have whole : g.validate = g.topLevel.flatMap (Pass.walked false) := walkAll_eq_flatMap g.topLevel
  have alone (b : Block) : Pass.walked false b = (Graph.mk [[b]]).validate := by
    simp [Pass.walked, Graph.validate, walkGraph, walkAll_eq_flatMap, Graph.topLevel]
  refine ⟨inPreorder_iff g, validate_eq g, reported_iff, queryUses_eq g, ?_, ?_⟩
  · rw [Pass.foldl_visit fun b _ => Pass.walks b, whole]
    rfl
  · rw [whole]
    exact List.flatMap_congr fun b _ => alone b

/-- A list in a record may hold a record: what stands behind it is inside of the outer one still. -/
example : (Graph.mk [[.record "r" none none [.list "l" [.record "s" none none []], .attr "a" none none],
    .attr "b" none none]]).validate.map (fun d => (d.code, d.blockId)) =
      [("D001", "r"), ("D001", "s"), ("D002", "a"), ("D005", "b"), ("D002", "b")] := by rfl

end RecordMapper.Proofs.Reports
