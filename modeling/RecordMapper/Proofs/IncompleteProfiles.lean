import RecordMapper.Proofs.Failures
import RecordMapper.Proofs.Reports
import RecordMapper.Proofs.UnreadSlots

/-!
# Incomplete profiles

A profile is refused if it lacks something by its contract. Diagnostics look for this at every place of a graph,
code only where it is read: not under an input without a property, nor behind another error. So an incomplete
profile that a program is refused for is reported (`located_of_fragment`), and one that is reported stands in
the way of a program where it cannot be passed by, at the top level or in a top-level record, and there of a
design too (`incomplete_profile_refused`).
-/

namespace RecordMapper.Proofs.IncompleteProfiles
open RecordMapper.Program RecordMapper.Block RecordMapper.Proofs.Runs RecordMapper.Proofs.Failures
  RecordMapper.Proofs.ReachableBlocks RecordMapper.Proofs.Places RecordMapper.Proofs.Reports
  RecordMapper.Proofs.UnreadSlots

/-! ## From code to the profile -/

section

variable {s : Style} {id : String} {gap : ProfileGap}

/-- One of several blocks has no code because of an incomplete profile. -/
def FailsIn (s : Style) (bs : List Block) (id : String) (gap : ProfileGap) : Prop :=
  ∃ b ∈ bs, fragment s b = .error (.incompleteProfile id gap)

theorem failsIn_mono {bs bs' : List Block} (more : bs ⊆ bs') (failed : FailsIn s bs id gap) :
    FailsIn s bs' id gap := by
  obtain ⟨b, inside, failed⟩ := failed
  exact ⟨b, more inside, failed⟩

theorem failsIn_slotCode {slot : Option Block} (failed : slotCode s slot = .error (.incompleteProfile id gap)) :
    FailsIn s slot.toList id gap := by
  cases slot with
  | none => cases failed
  | some b =>
    rw [slotCode] at failed
    rcases bind_eq_error failed with own | ⟨f, _, failed⟩
    · exact ⟨b, List.mem_singleton_self b, own⟩
    · cases f <;> cases failed

theorem failsIn_itemCodes {items : List Block} (failed : itemCodes s items = .error (.incompleteProfile id gap)) :
    FailsIn s items id gap := by
  induction items with
  | nil => cases failed
  | cons b rest ih =>
    rw [itemCodes] at failed
    rcases bind_eq_error failed with own | ⟨f, _, failed⟩
    · exact ⟨b, List.mem_cons_self, own⟩
    · cases f with
      | statement st => cases failed
      | expression code order =>
        exact failsIn_mono (List.subset_cons_self b rest) (ih (error_of_bind_ok failed))

theorem failsIn_bodySteps {outer : String} {body : List Block}
    (failed : bodySteps s outer body = .error (.incompleteProfile id gap)) : FailsIn s body id gap := by
  induction body with
  | nil => cases failed
  | cons b rest ih =>
    rw [bodySteps] at failed
    rcases bind_eq_error failed with own | ⟨f, _, failed⟩
    · exact ⟨b, List.mem_cons_self, own⟩
    · cases f with
      | expression code order => cases failed
      | statement st =>
        cases st with
        | design heading own => cases failed
        | steps own =>
          exact failsIn_mono (List.subset_cons_self b rest) (ih (error_of_bind_ok failed))

theorem failsIn_inputsSteps {d : Descriptor} {inputs : List (String × Block)}
    (failed : inputsSteps s d inputs = .error (.incompleteProfile id gap)) : FailsIn s (inputs.map (·.2)) id gap := by
  induction inputs with
  | nil => cases failed
  | cons input rest ih =>
    obtain ⟨name, b⟩ := input
    have below (later : inputsSteps s d rest = .error (.incompleteProfile id gap)) :
        FailsIn s (((name, b) :: rest).map (·.2)) id gap :=
      failsIn_mono (List.subset_cons_self b _) (ih later)
    rw [inputsSteps] at failed
    cases property : d.pidFor? name with
    | none =>
      rw [property] at failed
      exact below failed
    | some pid =>
      rw [property] at failed
      rcases bind_eq_error failed with own | ⟨f, _, failed⟩
      · exact ⟨b, List.mem_cons_self, own⟩
      · rcases bind_eq_error failed with misplaced | ⟨_, _, failed⟩
        · cases f <;> cases misplaced
        · exact below (error_of_bind_ok failed)

/-- A block without code because of an incomplete profile is that profile, or has such a block as a part. -/
theorem failsIn_fragment {b : Block} (failed : fragment s b = .error (.incompleteProfile id gap)) :
    (∃ descriptor inputs, b = .profile id descriptor inputs ∧ contract descriptor = .error gap) ∨
      FailsIn s (parts b) id gap := by
  cases b with
  | record name localId skip body =>
    rw [fragment, SameDrops.skipCode_eq] at failed
    cases nested : nestedRecord? name body with
    | some e =>
      -- a record among the statements is refused as a malformation
      obtain ⟨inner, _, rfl⟩ := Option.map_eq_some_iff.mp nested
      rw [nested] at failed
      cases failed
    | none =>
      rw [nested] at failed
      have others {bs : List Block} (part : bs ⊆ skip.join.toList ++ body) (fails : FailsIn s bs id gap) :
          FailsIn s (parts (.record name localId skip body)) id gap :=
        failsIn_mono (List.subset_append_of_subset_right _ part) fails
      rcases bind_eq_error failed with slot | ⟨_, _, failed⟩
      · exact .inr (failsIn_mono (List.subset_append_left _ _) (failsIn_slotCode slot))
      · rcases bind_eq_error failed with condition | ⟨_, _, failed⟩
        · exact .inr (others (List.subset_append_left _ _) (failsIn_slotCode condition))
        · exact .inr (others (List.subset_append_right _ _) (failsIn_bodySteps (error_of_bind_ok failed)))
  | profile name descriptor inputs =>
    rw [fragment] at failed
    cases found : contract descriptor with
    | error lacks =>
      rw [found] at failed
      cases failed
      exact .inl ⟨descriptor, inputs, rfl, found⟩
    | ok both =>
      rw [found] at failed
      exact .inr (failsIn_inputsSteps (error_of_bind_ok failed))
  | attr _ _ _ | otherwise _ _ _ =>
    rw [fragment] at failed
    rcases bind_eq_error failed with first | ⟨_, _, failed⟩
    · exact .inr (failsIn_mono (List.subset_append_left _ _) (failsIn_slotCode first))
    · exact .inr (failsIn_mono (List.subset_append_right _ _) (failsIn_slotCode (error_of_bind_ok failed)))
  | slotQuery _ _ _ | stop _ _ | log _ _ _ | backlink _ _ =>
    rw [fragment] at failed
    exact .inr (failsIn_slotCode (error_of_bind_ok failed))
  | list name items =>
    rw [fragment] at failed
    exact .inr (failsIn_itemCodes (error_of_bind_ok failed))
  | fieldQuery _ _ _ | reference _ _ | literal _ _ => cases failed

/-- A profile of an id stands at a place and lacks something. -/
def Incomplete (id : String) (gap : ProfileGap) (place : Place) : Prop :=
  ∃ descriptor inputs, place.block = .profile id descriptor inputs ∧ contract descriptor = .error gap

theorem located_of_fragment {g : Graph} {place : Place} (stands : StandsIn g place)
    (failed : fragment s place.block = .error (.incompleteProfile id gap)) :
    ∃ place', StandsIn g place' ∧ Incomplete id gap place' := by
  rcases failsIn_fragment failed with own | ⟨p, part, below⟩
  · exact ⟨place, stands, own⟩
  · obtain ⟨i, found⟩ := List.getElem?_of_mem part
    exact located_of_fragment (.part stands found) below
termination_by sizeOf place.block
decreasing_by exact sizeOf_parts part

theorem failsIn_chainCode {chain : List Block} (failed : chainCode s chain = .error (.incompleteProfile id gap)) :
    FailsIn s chain id gap := by
  induction chain with
  | nil => cases failed
  | cons b rest ih =>
    rw [chainCode] at failed
    rcases bind_eq_error failed with own | ⟨_, _, failed⟩
    · exact ⟨b, List.mem_cons_self, own⟩
    · exact failsIn_mono (List.subset_cons_self b rest) (ih (error_of_bind_ok failed))

theorem failsIn_generate {g : Graph} (failed : generate s g = .error (.incompleteProfile id gap)) :
    FailsIn s g.topLevel id gap := by
  have code : graphCode s g = .error (.incompleteProfile id gap) := error_of_bind_ok failed
  obtain ⟨chain, inside, failed⟩ := mapM_eq_error (error_of_bind_ok code)
  exact failsIn_mono (fun b member => List.mem_flatten.mpr ⟨chain, inside, member⟩) (failsIn_chainCode failed)

theorem located_of_generate {g : Graph} (failed : generate s g = .error (.incompleteProfile id gap)) :
    ∃ place, StandsIn g place ∧ Incomplete id gap place := by
  obtain ⟨b, top, failed⟩ := failsIn_generate failed
  obtain ⟨i, found⟩ := List.getElem?_of_mem top
  exact located_of_fragment (.top found) failed

end

/-- The report of an incomplete profile has the text that a program is refused with. -/
theorem reported_of_incomplete {id : String} {gap : ProfileGap} {place : Place}
    (incomplete : Incomplete id gap place) :
    Diagnostic.ofCode .incompleteProfile (GraphError.incompleteProfile id gap).message id [] ∈ reportsAt place := by
  obtain ⟨address, around, b⟩ := place
  obtain ⟨descriptor, inputs, rfl, lacks⟩ := incomplete
  exact profile_reported lacks

/-! ## From the profile to what is refused -/

section

variable {g : Graph} {id : String} {descriptor : Option Descriptor} {inputs : List (String × Block)}
  {gap : ProfileGap} (lacks : contract descriptor = .error gap)
include lacks

theorem no_fragment (s : Style) : ¬ Succeeds (fragment s (.profile id descriptor inputs)) := by
  rw [fragment, lacks]
  rintro ⟨_, came⟩
  cases came

theorem no_record (s : Style) {record : Block} (member : .profile id descriptor inputs ∈ statements record) :
    ¬ Succeeds (fragment s record) := by
  intro succeeds
  cases record with
  | record name localId skip body =>
    obtain ⟨_, _, _, each⟩ := (record_code_iff s name localId skip body).mp succeeds
    obtain ⟨steps, came⟩ := each _ member
    exact no_fragment lacks s ⟨_, came⟩
  | _ => cases member

theorem no_design {record : Block} (top : record ∈ g.topLevel)
    (member : .profile id descriptor inputs ∈ statements record) : ¬ Succeeds g.lower := by
  rintro ⟨designs, lowered⟩
  cases record with
  | record name localId skip body =>
    obtain ⟨d, _, _, _, _, _, same, own⟩ := Origins.design_of_record lowered top rfl
    cases same
    obtain ⟨_, _, _, _, _, added⟩ := SameDrops.lowered_record own
    obtain ⟨before, after, stated⟩ := step_of_foldlM added _ member
    rw [Design.addStatement, lacks] at stated
    cases stated
  | _ => cases member

end

section

variable {g : Graph} {place : Place} (stands : StandsIn g place)
include stands

theorem top_of_standsIn (outermost : place.around = []) : place.block ∈ g.topLevel := by
  cases stands with
  | top found => exact List.mem_of_getElem? found
  | part _ _ => cases outermost

theorem outer_of_standsIn {outer : Block} (around : place.around = [outer]) : outer ∈ g.topLevel := by
  cases stands with
  | top _ => cases around
  | part outside _ =>
    obtain ⟨rfl, outermost⟩ := List.cons.inj around
    exact top_of_standsIn outside outermost

end

/-- A graph whose code is refused for an incomplete profile has a report of that profile, with the same text. If
an incomplete profile is reported at the top level there is no code, in neither language and however it is
written, and if it is one of the statements of a top-level record there are no designs either. -/
theorem incomplete_profile_refused (g : Graph) :
    g.validate = (places g).flatMap reportsAt ∧
      (∀ s id gap, generate s g = .error (.incompleteProfile id gap) →
        ∃ place ∈ places g, Incomplete id gap place ∧ Diagnostic.ofCode .incompleteProfile
          (GraphError.incompleteProfile id gap).message id [] ∈ reportsAt place) ∧
      ∀ place ∈ places g, (∃ d ∈ reportsAt place, d.code = DiagnosticCode.incompleteProfile.text) →
        (place.around = [] → ∀ s, ∃ e, generate s g = .error e) ∧
          ∀ record, place.around = [record] → place.block ∈ statements record →
            (∀ s, ∃ e, generate s g = .error e) ∧ ∃ e, g.lower = .error e := by
  refine ⟨validate_eq g, fun s id gap failed => ?_, fun place inside reported => ?_⟩
  · obtain ⟨place, stands, incomplete⟩ := located_of_generate failed
    exact ⟨place, mem_of_standsIn stands, incomplete, reported_of_incomplete incomplete⟩
  · have stands := standsIn_of_mem inside
    obtain ⟨id, descriptor, inputs, gap, own, lacks⟩ := (reported_iff place .incompleteProfile).mp reported
    refine ⟨fun outermost s => error_of_not_succeeds ?_, fun record around member => ?_⟩
    · have top := top_of_standsIn stands outermost
      rw [own] at top
      exact fun succeeds => no_fragment lacks s ((generate_succeeds_iff s g).mp succeeds _ top)
    · have top := outer_of_standsIn stands around
      rw [own] at member
      refine ⟨fun s => error_of_not_succeeds fun succeeds => ?_, error_of_not_succeeds (no_design lacks top member)⟩
      exact no_record lacks s member ((generate_succeeds_iff s g).mp succeeds _ top)

/-- A record with a list for its id that holds a profile, and a profile among its statements; and one more
profile that stands alone. None of them says of which profile. -/
def unfinished : Graph :=
  ⟨[[.record "r" (some (.list "l" [.profile "p" none []])) none [.profile "q" none []]], [.profile "t" none []]]⟩

theorem unfinished_refused :
    generate ⟨.python, 2, true⟩ unfinished = .error (.incompleteProfile "p" .descriptor) ∧
      (∃ place ∈ places unfinished, Incomplete "p" .descriptor place ∧
        Diagnostic.ofCode .incompleteProfile (GraphError.incompleteProfile "p" .descriptor).message "p" [] ∈
          reportsAt place) ∧
      (∃ place ∈ places unfinished, Incomplete "q" .descriptor place ∧
        (∀ s, ∃ e, generate s unfinished = .error e) ∧ ∃ e, unfinished.lower = .error e) ∧
      ∃ place ∈ places unfinished, Incomplete "t" .descriptor place ∧ ∀ s, ∃ e, generate s unfinished = .error e := by
  obtain ⟨_, named, refused⟩ := incomplete_profile_refused unfinished
  have failed : generate ⟨.python, 2, true⟩ unfinished = .error (.incompleteProfile "p" .descriptor) := rfl
  have inRecord : StandsIn unfinished ⟨[0, 1], [unfinished.topLevel.head (by decide)], .profile "q" none []⟩ :=
    .part (.top rfl) rfl
  have alone : StandsIn unfinished ⟨[1], [], .profile "t" none []⟩ := .top rfl
  have lacks : contract none = .error .descriptor := rfl
  refine ⟨failed, named _ _ _ failed, ⟨_, mem_of_standsIn inRecord, ⟨none, [], rfl, lacks⟩, ?_⟩,
    ⟨_, mem_of_standsIn alone, ⟨none, [], rfl, lacks⟩, ?_⟩⟩
  · refine (refused _ (mem_of_standsIn inRecord) ⟨_, profile_reported lacks, rfl⟩).2 _ rfl ?_
    exact List.mem_singleton_self _
  · exact (refused _ (mem_of_standsIn alone) ⟨_, profile_reported lacks, rfl⟩).1 rfl

end RecordMapper.Proofs.IncompleteProfiles
