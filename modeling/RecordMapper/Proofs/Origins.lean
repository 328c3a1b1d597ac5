import RecordMapper.Proofs.SameDrops

/-!
# What designs are made from

The designs of a graph are those of its top-level records, in order (`designs_of_lower`). A design has the
evaluators of the id and of the skip condition of its record, and under its keys the evaluators of values that
its statements hold, or the identifier of a profile (`madeFrom_of_record`).
-/

namespace RecordMapper.Proofs.Origins
open RecordMapper.Block RecordMapper.Proofs.Runs RecordMapper.Proofs.SameDrops

/-! ## Designs -/

/-- A block is a record, and a design is what it comes to. -/
def IsDesignOf (record : Block) (d : Design) : Prop :=
  ∃ id localId skip body, record = .record id localId skip body ∧ Design.ofRecord id localId skip body = .ok d

theorem designs_of_blocks {bs : List Block} {ds : List Design} (lowered : Design.ofBlocks bs = .ok ds) :
    List.Forall₂ IsDesignOf (bs.filter Block.isRecord) ds := by
  induction bs generalizing ds with
  | nil =>
    cases lowered
    exact .nil
  | cons b rest ih =>
    cases b with
    | record id localId skip body =>
      obtain ⟨d, first, lowered⟩ := bind_eq_ok lowered
      obtain ⟨later, others, lowered⟩ := bind_eq_ok lowered
      cases lowered
      exact .cons ⟨id, localId, skip, body, rfl, first⟩ (ih others)
    | _ => exact ih lowered

/-- A graph that is lowered has one design for each of its top-level records. -/
theorem designs_of_lower {g : Graph} {designs : List Design} (lowered : g.lower = .ok designs) :
    List.Forall₂ IsDesignOf g.records designs :=
  designs_of_blocks lowered

theorem related_of_mem {α β : Type} {R : α → β → Prop} {as : List α} {bs : List β} (each : List.Forall₂ R as bs)
    {a : α} (inside : a ∈ as) : ∃ b ∈ bs, R a b := by
  obtain ⟨i, place⟩ := List.getElem?_of_mem inside
  obtain ⟨b, found, related⟩ := exists_at each place
  exact ⟨b, List.mem_of_getElem? found, related⟩

theorem record_of_design {g : Graph} {designs : List Design} (lowered : g.lower = .ok designs) {d : Design}
    (member : d ∈ designs) : ∃ record ∈ g.topLevel, IsDesignOf record d := by
  obtain ⟨record, inside, made⟩ := related_of_mem (designs_of_lower lowered).flip member
  exact ⟨record, List.mem_of_mem_filter inside, made⟩

theorem design_of_record {g : Graph} {designs : List Design} (lowered : g.lower = .ok designs) {record : Block}
    (inside : record ∈ g.topLevel) (isRecord : record.isRecord = true) : ∃ d ∈ designs, IsDesignOf record d :=
  related_of_mem (designs_of_lower lowered) (List.mem_filter.mpr ⟨inside, isRecord⟩)

/-! ## Values -/

/-- The values that a statement holds. -/
def valuesOf : Block → List Block
  | .attr _ _ value => value.toList
  | .profile _ _ inputs => inputs.map (·.2)
  | _ => []

/-- An evaluator that was made from one of several blocks, or gives the same text always. -/
def MadeFrom (bs : List Block) (e : Evaluator) : Prop :=
  (∃ text, e = Evaluator.const (.str text)) ∨ ∃ b ∈ bs, compile b = .ok (some e)

theorem madeFrom_mono {bs bs' : List Block} (more : bs ⊆ bs') {e : Evaluator} (made : MadeFrom bs e) :
    MadeFrom bs' e := by
  refine made.imp_right ?_
  rintro ⟨b, inside, came⟩
  exact ⟨b, more inside, came⟩

theorem compile_of_source {b : Block} {registered : Option Source} (came : source b = .ok registered)
    {e : Evaluator} (value : Source.value e ∈ registered) : compile b = .ok (some e) := by
  by_cases link : ∃ id key, b = .backlink id key
  · obtain ⟨id, key, rfl⟩ := link
    rw [source] at came
    obtain ⟨forward, _, came⟩ := bind_eq_ok came
    cases came
    cases forward <;> cases value
  · rw [source.eq_2 b fun id key same => link ⟨id, key, same⟩] at came
    obtain ⟨found, compiled, came⟩ := bind_eq_ok came
    cases came
    cases found with
    | none => cases value
    | some f =>
      cases value
      exact compiled

/-- The values of a part. -/
def partValues : Part → List Block
  | .attr _ value => value.toList
  | .self _ _ => []
  | .input _ _ value => [value]

private theorem madeFrom_source {b : Block} {registered : Option Source} (came : source b = .ok registered)
    {key key' : String} {e : Evaluator} (value : (key, Source.value e) ∈ registered.toList.map (key', ·)) :
    MadeFrom [b] e := by
  obtain ⟨s, member, pair⟩ := List.mem_map.mp value
  cases pair
  exact .inr ⟨b, List.mem_singleton_self b, compile_of_source came (Option.mem_toList.mp member)⟩

theorem madeFrom_part {part : Part} {sources : List (String × Source)} (came : part.sources = .ok sources)
    {key : String} {e : Evaluator} (value : (key, Source.value e) ∈ sources) : MadeFrom (partValues part) e := by
  cases part with
  | self p own =>
    cases came
    cases List.mem_singleton.mp value
    exact .inl ⟨p.identifier, rfl⟩
  | input name pid b =>
    rw [Part.sources] at came
    split_ifs at came
    · cases came
      cases value
    · obtain ⟨found, own, came⟩ := bind_eq_ok came
      cases came
      exact madeFrom_source own value
  | attr k v =>
    cases k with
    | none =>
      cases came
      cases value
    | some k =>
      cases v with
      | none =>
        cases came
        cases value
      | some v =>
        rw [Part.sources] at came
        split_ifs at came
        · cases came
          cases value
        · obtain ⟨text, _, came⟩ := bind_eq_ok came
          cases text with
          | none =>
            cases came
            cases value
          | some text =>
            obtain ⟨found, own, came⟩ := bind_eq_ok came
            cases came
            exact madeFrom_source own value

theorem madeFrom_parts {parts : List Part} {registered : List (List (String × Source))}
    (each : Registered parts registered) {key : String} {e : Evaluator}
    (value : (key, Source.value e) ∈ registered.flatten) : MadeFrom (parts.flatMap partValues) e := by
  induction each with
  | nil => cases value
  | cons own _ ih =>
    rw [List.flatten_cons, List.mem_append] at value
    rw [List.flatMap_cons]
    rcases value with first | later
    · exact madeFrom_mono (List.subset_append_left _ _) (madeFrom_part own first)
    · exact madeFrom_mono (List.subset_append_right _ _) (ih later)

theorem inputParts_values (p : Descriptor) (inputs : List (String × Block)) :
    (inputParts p inputs).flatMap partValues ⊆ inputs.map (·.2) := by
  induction inputs with
  | nil => exact List.Subset.refl _
  | cons input rest ih =>
    obtain ⟨name, b⟩ := input
    rw [inputParts]
    cases p.pidFor? name with
    | none => exact List.subset_cons_of_subset b ih
    | some pid => exact List.cons_subset_cons b ih

theorem statementParts_values (b : Block) : (statementParts b).flatMap partValues ⊆ valuesOf b := by
  cases b with
  | attr id key value => simp [statementParts, partValues, valuesOf]
  | profile id descriptor inputs =>
    rw [statementParts, valuesOf]
    cases contract descriptor with
    | error gap => exact List.nil_subset _
    | ok found => exact inputParts_values found.1 inputs
  | _ => exact List.nil_subset _

/-! ## Records -/

/-- How a design is made from the parts of a record. -/
structure MadeFromRecord (id : String) (localId : Option Block) (skip : Option (Option Block)) (body : List Block)
    (d : Design) : Prop where
  name : d.name = id
  ownId : compileSlot localId = .ok d.id
  ownSkip : compileSlot skip.join = .ok d.skip
  pid : d.pid = none
  values : ∀ entry ∈ d.evaluators, MadeFrom (body.flatMap valuesOf) entry.2

/-- The design of a record is made from its slots and from the values of its statements. -/
theorem madeFrom_of_record {id : String} {localId : Option Block} {skip : Option (Option Block)} {body : List Block}
    {d : Design} (lowered : Design.ofRecord id localId skip body = .ok d) : MadeFromRecord id localId skip body d := by
  obtain ⟨idEvaluator, skipEvaluator, _, idCompiled, skipCompiled, lowered⟩ := lowered_record lowered
  obtain ⟨registered, each, rfl⟩ := registered_of_body lowered
  obtain ⟨name, ownId, pid, ownSkip⟩ := own_addSources registered.flatten
    { Design.empty id with id := idEvaluator, skip := skipEvaluator }
  refine ⟨name, ownId ▸ idCompiled, ownSkip ▸ skipCompiled, pid, ?_⟩
  rintro ⟨key, e⟩ inside
  have held : Holds _ (key, Source.value e) := inside
  rw [holds_addSources_iff] at held
  rcases held with fresh | value
  · cases fresh
  · refine madeFrom_mono ?_ (madeFrom_parts each value)
    intro b inside
    rw [List.flatMap_assoc] at inside
    obtain ⟨st, member, inside⟩ := List.mem_flatMap.mp inside
    exact List.mem_flatMap.mpr ⟨st, member, statementParts_values st inside⟩

end RecordMapper.Proofs.Origins
