import Mathlib.Data.List.Basic
import RecordMapper.Diagnostic
import RecordMapper.Proofs.EmptyCode
import RecordMapper.Proofs.ReachableBlocks

/-!
# Dropped attributes

An attribute is left out of a program if its key or its value comes to no code or to an empty literal.
It is reported if the slot of its key or of its value says nothing itself. Each report is right, but not
each drop is reported: a silent block in a slot comes to no code though the slot holds something
(`drop_reported_iff`).
-/

namespace RecordMapper.Proofs.DroppedAttributes
open RecordMapper.Program RecordMapper.Block RecordMapper.Proofs.EmptyCode RecordMapper.Proofs.ReachableBlocks

/-! ## Visits -/

/-- What a walk collects is what the blocks add that it visits, each in the state of its visit. -/
theorem walk_eq_visits {σ α : Type} (enter : σ → Block → σ) (own : σ → Block → List α) (s : σ) (b : Block) :
    walk enter own s b = (walk enter (fun s b => [(s, b)]) s b).flatMap fun visit => own visit.1 visit.2 := by
  have below : ∀ p ∈ parts b, walk enter own (enter s b) p =
      (walk enter (fun s b => [(s, b)]) (enter s b) p).flatMap fun visit => own visit.1 visit.2 :=
    fun p _ => walk_eq_visits enter own (enter s b) p
  rw [walk_eq b, List.flatMap_congr below, ← List.flatMap_assoc]
  conv_rhs => rw [walk_eq b, List.flatMap_append, List.flatMap_singleton]
termination_by sizeOf b
decreasing_by exact sizeOf_parts ‹_›

/-- The blocks of a graph in the order of a walk, each with whether it is inside a record. -/
def visits (g : Graph) : List (Bool × Block) :=
  walkGraph insideRecord (fun inRecord b => [(inRecord, b)]) false g

/-- What is reported for a block on a visit. -/
def reports (visit : Bool × Block) : List Diagnostic := Diagnostic.ofBlock visit.1 visit.2

theorem validate_eq (g : Graph) : g.validate = (visits g).flatMap reports := by
  rw [Graph.validate, visits, walkGraph, walkGraph, walkAll_eq_flatMap, walkAll_eq_flatMap, List.flatMap_assoc]
  exact List.flatMap_congr fun b _ => walk_eq_visits _ Diagnostic.ofBlock false b

theorem mem_validate_iff {g : Graph} {diagnostic : Diagnostic} :
    diagnostic ∈ g.validate ↔ ∃ visit ∈ visits g, diagnostic ∈ reports visit := by
  rw [validate_eq, List.mem_flatMap]

/-! ## Drops -/

theorem renderSteps_eq_empty_iff (t : Target) (steps : List Step) :
    renderSteps t steps = "" ↔ ∀ step ∈ steps, step.render t = "" := by
  rw [renderSteps, ← String.toList_inj, String.toList_join, String.toList_empty, List.flatMap_eq_nil_iff]
  simp

theorem shows_addAttribute (t : Target) (key value : String) : shows (t.addAttribute key value) = true :=
  shows_append_right _ (by decide)

/-- The steps of an attribute have no text exactly if there are none. -/
theorem render_attributeSteps_iff (s : Style) (key value : String) :
    renderSteps s.target (attributeSteps s key value) = "" ↔ isEmptyLiteral key = true ∨ isEmptyLiteral value = true := by
  rw [renderSteps_eq_empty_iff, ← Bool.or_eq_true]
  unfold attributeSteps
  split_ifs with left
  · simp [left]
  · refine iff_of_false (fun empty => ?_) left
    have added : Step.render s.target (.add key value) = "" := empty _ (by simp)
    exact ne_empty_of_shows (shows_addAttribute s.target key value) added

/-- What is reported for a block on a visit says that it is a dropped attribute. -/
def Reported (visit : Bool × Block) : Prop :=
  ∃ d ∈ reports visit, d.code = DiagnosticCode.attributeDropped.text ∧ d.blockId = visit.2.id

theorem reported_attr_iff (inRecord : Bool) (id : String) (key value : Option Block) :
    Reported (inRecord, .attr id key value) ↔ isEmptySlot key = true ∨ isEmptySlot value = true := by
  have elsewhere : ∀ d ∈ Diagnostic.ofPlace inRecord (.attr id key value),
      d.code ≠ DiagnosticCode.attributeDropped.text := by
    intro d inside
    unfold Diagnostic.ofPlace at inside
    split_ifs at inside with placed
    · cases inside
    · rw [List.mem_singleton] at inside
      subst inside
      show DiagnosticCode.orphanStatement.text ≠ DiagnosticCode.attributeDropped.text
      decide
  rw [← Bool.or_eq_true]
  constructor
  · rintro ⟨d, inside, code, -⟩
    rw [reports, Diagnostic.ofBlock, List.mem_append] at inside
    rcases inside with place | own
    · exact absurd code (elsewhere d place)
    · cases noKey : isEmptySlot key <;> cases noValue : isEmptySlot value <;>
        simp [Diagnostic.missingPart, noKey, noValue] at own ⊢
  · intro lacking
    obtain ⟨part, missing⟩ : ∃ part, Diagnostic.missingPart key value = some part := by
      cases noKey : isEmptySlot key <;> cases noValue : isEmptySlot value <;>
        simp [Diagnostic.missingPart, noKey, noValue] at lacking ⊢
    refine ⟨Diagnostic.ofCode .attributeDropped ("Attribute has no " ++ part) id [], ?_, rfl, rfl⟩
    simp [reports, Diagnostic.ofBlock, missing]

/-- Both slots hold something to say, and yet one of them comes to no code. -/
def Overlooked (key value : Option Block) : Prop :=
  isEmptySlot key = false ∧ isEmptySlot value = false ∧ (isSilentSlot key = true ∨ isSilentSlot value = true)

/-- The diagnostics of a graph are those of its visits, in order. For an attribute among them that has
code, that code is empty exactly if its key or its value comes to nothing. What is reported as dropped is
dropped, and what is dropped is reported unless it is overlooked. -/
theorem drop_reported_iff (s : Style) (g : Graph) :
    g.validate = (visits g).flatMap reports ∧
      ∀ inRecord id key value f, (inRecord, Block.attr id key value) ∈ visits g →
        fragment s (.attr id key value) = .ok f → ∃ st, f = .statement st ∧
          (st.render s = "" ↔ ComesToNothing key ∨ ComesToNothing value) ∧
          (Reported (inRecord, .attr id key value) → st.render s = "") ∧
          ((Reported (inRecord, .attr id key value) ↔ st.render s = "") ↔ ¬ Overlooked key value) := by
  refine ⟨validate_eq g, fun inRecord id key value f _ came => ?_⟩
  rw [fragment] at came
  obtain ⟨keyCode, keyCame, came⟩ := Runs.bind_eq_ok came
  obtain ⟨valueCode, valueCame, came⟩ := Runs.bind_eq_ok came
  cases came
  have dropped : renderSteps s.target (attributeSteps s keyCode valueCode) = "" ↔
      ComesToNothing key ∨ ComesToNothing value := by
    rw [render_attributeSteps_iff, emptyLiteral_slot_iff keyCame, emptyLiteral_slot_iff valueCame]
  refine ⟨_, rfl, dropped, ?_, ?_⟩
  · rw [reported_attr_iff, Statement.render, dropped]
    exact Or.imp .inl .inl
  · rw [reported_attr_iff, Statement.render, dropped]
    unfold ComesToNothing Overlooked
    cases isEmptySlot key <;> cases isEmptySlot value <;> simp

/-- A record with one attribute. -/
def licensed (value : Option Block) : Graph :=
  ⟨[[.record "r" (some (.literal "i" (.text "X"))) none
    [.attr "a" (some (.literal "k" (.text "license"))) value]]]⟩

theorem unconnected_reported :
    Reported (true, .attr "a" (some (.literal "k" (.text "license"))) none) ↔
      (Statement.steps []).render ⟨.python, 2, true⟩ = "" := by
  obtain ⟨st, same, _, _, exact_iff⟩ := (drop_reported_iff ⟨.python, 2, true⟩ (licensed none)).2 true "a"
    (some (.literal "k" (.text "license"))) none (.statement (.steps [])) (.tail _ (.tail _ (.head _))) rfl
  cases same
  exact exact_iff.mpr fun overlooked => Bool.noConfusion overlooked.2.1

/-- An attribute whose value is a reference to nothing is left out, and nothing is reported. -/
theorem reference_unreported :
    (true, Block.attr "a" (some (.literal "k" (.text "license"))) (some (.reference "v" ""))) ∈
        visits (licensed (some (.reference "v" ""))) ∧
      fragment ⟨.python, 2, true⟩ (.attr "a" (some (.literal "k" (.text "license"))) (some (.reference "v" ""))) =
        .ok (.statement (.steps [])) ∧
      (Statement.steps []).render ⟨.python, 2, true⟩ = "" ∧
      (licensed (some (.reference "v" ""))).validate = [] ∧
      ¬ Reported (true, .attr "a" (some (.literal "k" (.text "license"))) (some (.reference "v" ""))) := by
  refine ⟨.tail _ (.tail _ (.head _)), rfl, rfl, rfl, ?_⟩
  rw [reported_attr_iff]
  decide

end RecordMapper.Proofs.DroppedAttributes
