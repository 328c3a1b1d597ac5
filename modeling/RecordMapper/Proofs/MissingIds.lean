import RecordMapper.Proofs.DroppedAttributes
import RecordMapper.Proofs.Failures
import RecordMapper.Proofs.Origins

/-!
# Missing ids

A design without an id aborts a run at the first document that it does not skip. What is announced is a record
whose id slot is not connected, and its design has no id; but a design has no id either if what is connected
comes to nothing, and that is not announced (`missing_id_iff`).
-/

namespace RecordMapper.Proofs.MissingIds
open RecordMapper.Block RecordMapper.Proofs.EmptyCode RecordMapper.Proofs.SameDrops
  RecordMapper.Proofs.DroppedAttributes RecordMapper.Proofs.Origins RecordMapper.Proofs.Failures

/-! ## Announcements -/

/-- What is reported for a block on a visit says that it is a record without an id. -/
def Announced (visit : Bool × Block) : Prop :=
  ∃ diagnostic ∈ reports visit,
    diagnostic.code = DiagnosticCode.recordWithoutId.text ∧ diagnostic.blockId = visit.2.id

/-- A record in whose id slot there is something, which comes to no evaluator. -/
def OverlooksId : Block → Prop
  | .record _ localId _ _ => localId ≠ none ∧ (isSilentSlot localId = true ∨ asksBlankSlot localId = true)
  | _ => False

theorem announced_iff (inRecord : Bool) (id : String) (localId : Option Block) (skip : Option (Option Block))
    (body : List Block) : Announced (inRecord, .record id localId skip body) ↔ localId = none := by
  cases localId with
  | none => exact iff_of_true ⟨_, List.mem_singleton_self _, rfl, rfl⟩ rfl
  | some b =>
    refine iff_of_false ?_ nofun
    rintro ⟨diagnostic, inside, _⟩
    cases inside

theorem topLevel_visited {g : Graph} {b : Block} (inside : b ∈ g.topLevel) : (false, b) ∈ visits g :=
  mem_walkAll_iff.mpr ⟨b, inside, mem_walk_of_own (List.mem_singleton_self _)⟩

theorem unannounced {g : Graph}
    (silent : ∀ diagnostic ∈ g.validate, diagnostic.code ≠ DiagnosticCode.recordWithoutId.text)
    {visit : Bool × Block} (visited : visit ∈ visits g) : ¬ Announced visit := by
  rintro ⟨diagnostic, inside, code, _⟩
  exact silent diagnostic (mem_validate_iff.mpr ⟨visit, visited, inside⟩) code

/-! ## Designs -/

/-- How the announcement of a top-level record stands to the id of its design. -/
structure Told (g : Graph) (record : Block) (d : Design) : Prop where
  visited : (false, record) ∈ visits g
  named : d.name = record.id
  announced : Announced (false, record) → d.id = none
  agrees : (Announced (false, record) ↔ d.id = none) ↔ ¬ OverlooksId record
  aborts : d.id = none → ∀ tolerable index document, d.skips ⟨document, index, d.name⟩ = .ok false →
    d.apply tolerable index document = .error (.missingId d.name)

theorem apply_without_id {d : Design} (missing : d.id = none) {tolerable : List ErrorKind} {index : Nat}
    {document : Json} (unskipped : d.skips ⟨document, index, d.name⟩ = .ok false) :
    d.apply tolerable index document = .error (.missingId d.name) := by
  have unnamed : d.idFor ⟨document, index, d.name⟩ = .error (.missingId d.name) := by rw [Design.idFor, missing]
  simp [Design.apply, unskipped, unnamed, bind, Except.bind]

theorem told_of_design {g : Graph} {record : Block} (inside : record ∈ g.topLevel) {d : Design}
    (made : IsDesignOf record d) : Told g record d := by
  obtain ⟨id, localId, skip, body, rfl, lowered⟩ := made
  have parts := madeFrom_of_record lowered
  have absent : d.id = none ↔ isSilentSlot localId = true ∨ asksBlankSlot localId = true := by
    rw [← Option.isNone_iff_eq_none, isNone_compileSlot localId parts.ownId, Bool.or_eq_true]
  refine ⟨topLevel_visited inside, parts.name, ?_, ?_, fun missing _ _ _ => apply_without_id missing⟩
  · rw [announced_iff, absent]
    rintro rfl
    exact .inl rfl
  · rw [announced_iff, absent, OverlooksId]
    cases localId with
    | none => simp [isSilentSlot]
    | some b => simp

/-- The diagnostics of a graph are those of its visits, in order. A top-level record that is announced has a
design without an id, and one that is not announced has a design with one, unless what is in its id slot is
overlooked. A design without an id fails on every document that it does not skip. So a run fails for want of
an id only if a record was announced or overlooked. -/
theorem missing_id_iff {g : Graph} {designs : List Design} (lowered : g.lower = .ok designs) :
    g.validate = (visits g).flatMap reports ∧
      List.Forall₂ (Told g) g.records designs ∧
      ((∀ diagnostic ∈ g.validate, diagnostic.code ≠ DiagnosticCode.recordWithoutId.text) →
        (∀ record ∈ g.records, ¬ OverlooksId record) →
        ∀ tolerable documents name, run designs tolerable documents ≠ .error (.missingId name)) := by
  have each : List.Forall₂ (Told g) g.records designs := by
    refine ((List.forall₂_and_left _ _).mpr ⟨fun record inside => List.mem_of_mem_filter inside,
      designs_of_lower lowered⟩).imp ?_
    exact fun _ _ both => told_of_design both.1 both.2
  refine ⟨validate_eq g, each, ?_⟩
  intro silent read tolerable documents name ran
  obtain ⟨d, member, index, document, _, failed⟩ := failing_pair ran
  obtain ⟨record, inside, told⟩ := related_of_mem each.flip member
  have missing : d.id = none := by
    cases failsBy_of_apply failed
    assumption
  have heard := (told.agrees.mpr (read record inside)).mpr missing
  exact unannounced silent told.visited heard

/-- A record without statements. -/
def bare (localId : Option Block) : Graph := ⟨[[.record "r" localId none []]]⟩

/-- A record whose id slot is not connected is announced, and its design has no id. -/
theorem unconnected_announced :
    ∃ designs, (bare none).lower = .ok designs ∧
      List.Forall₂ (fun record d => Announced (false, record) ∧ d.id = none) (bare none).records designs := by
  have lowered : (bare none).lower = .ok [Design.empty "r"] := rfl
  obtain ⟨_, each, _⟩ := missing_id_iff lowered
  refine ⟨_, lowered, ?_⟩
  obtain ⟨told, _⟩ := List.forall₂_cons.mp each
  have heard : Announced (false, .record "r" none none []) := (announced_iff _ _ _ _ _).mpr rfl
  exact .cons ⟨heard, told.announced heard⟩ .nil

/-- A record whose id is asked for by a query without text has no id, which aborts a run, and nothing is
reported. -/
theorem blank_id_unreported :
    (bare (some (.fieldQuery "q" .pointer ""))).lower = .ok [Design.empty "r"] ∧
      (bare (some (.fieldQuery "q" .pointer ""))).validate = [] ∧
      (Design.empty "r").id = none ∧
      run [Design.empty "r"] ErrorKind.defaultTolerable [.obj []] = .error (.missingId "r") :=
  ⟨rfl, rfl, rfl, rfl⟩

end RecordMapper.Proofs.MissingIds
