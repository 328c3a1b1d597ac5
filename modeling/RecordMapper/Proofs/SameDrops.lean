import Mathlib.Data.List.Forall2
import RecordMapper.Design.Lowering
import RecordMapper.Proofs.EmptyCode

/-!
# What programs and designs leave out

A record comes to the steps of a program, and to a design. Both are put together part by part: from the
id, the skip condition, and each attribute, profile and profile input of its body. What is left out of
one is left out of the other, except in three places (`same_drops_iff`): a query typed in as the empty
text has code but no evaluator, an id that is the empty text has an evaluator but no code, and a backlink
whose key comes to the empty text has code but registers nothing.
-/

namespace RecordMapper.Proofs.SameDrops
open RecordMapper.Program RecordMapper.Block RecordMapper.Proofs.EmptyCode

/-! ## Blank queries -/

mutual

/-- A query typed in as the empty text, or a query that is the answer of such a query. -/
def asksBlank : Block → Bool
  | .fieldQuery _ _ query => query.isEmpty
  | .slotQuery _ _ query => asksBlankSlot query
  | _ => false

/-- Whether a slot holds such a query. -/
def asksBlankSlot : Option Block → Bool
  | none => false
  | some b => asksBlank b

end

mutual

private theorem told_of_asksBlank : ∀ b : Block, asksBlank b = true → isSilent b = false
  | .fieldQuery _ _ _, _ => rfl
  | .slotQuery _ _ query, asks => by
    rw [asksBlank] at asks
    rw [isSilent]
    exact told_of_asksBlankSlot query asks
  | .record _ _ _ _, asks | .attr _ _ _, asks | .profile _ _ _, asks | .stop _ _, asks | .log _ _ _, asks
  | .otherwise _ _ _, asks | .backlink _ _, asks | .reference _ _, asks | .literal _ _, asks | .list _ _, asks => by
    cases asks

private theorem told_of_asksBlankSlot : ∀ slot : Option Block, asksBlankSlot slot = true → isSilentSlot slot = false
  | some b, asks => told_of_asksBlank b asks

end

mutual

/-- A value block has no evaluator exactly if it is silent or asks a blank query. -/
theorem isNone_compile : ∀ (b : Block) {e : Option Evaluator}, compile b = .ok e →
    e.isNone = (isSilent b || asksBlank b)
  | .fieldQuery _ _ query, _, came => by
    rw [compile] at came
    cases came
    cases blank : query.isEmpty <;> simp [isSilent, asksBlank, blank]
  | .slotQuery _ _ query, _, came => by
    rw [compile] at came
    obtain ⟨e, slot, came⟩ := Runs.bind_eq_ok came
    cases came
    rw [Option.isNone_map, isNone_compileSlot query slot]
    rfl
  | .stop _ _, _, came => by
    rw [compile] at came
    obtain ⟨_, _, came⟩ := Runs.bind_eq_ok came
    cases came
    rfl
  | .log _ _ _, _, came => by
    rw [compile] at came
    obtain ⟨_, _, came⟩ := Runs.bind_eq_ok came
    cases came
    rfl
  | .otherwise _ _ _, _, came => by
    rw [compile] at came
    obtain ⟨_, _, came⟩ := Runs.bind_eq_ok came
    obtain ⟨_, _, came⟩ := Runs.bind_eq_ok came
    cases came
    rfl
  | .reference _ pid, _, came => by
    rw [compile] at came
    cases came
    cases empty : pid.isEmpty <;> simp [isSilent, asksBlank, empty]
  | .literal _ _, _, came => by
    rw [compile] at came
    cases came
    rfl
  | .list _ _, _, came => by
    rw [compile] at came
    obtain ⟨_, _, came⟩ := Runs.bind_eq_ok came
    cases came
    rfl
  | .record _ _ _ _, _, came | .attr _ _ _, _, came | .profile _ _ _, _, came | .backlink _ _, _, came => by
    rw [compile] at came
    cases came

theorem isNone_compileSlot : ∀ (slot : Option Block) {e : Option Evaluator}, compileSlot slot = .ok e →
    e.isNone = (isSilentSlot slot || asksBlankSlot slot)
  | none, _, came => by
    rw [compileSlot] at came
    cases came
    rfl
  | some b, _, came => by
    rw [compileSlot] at came
    exact isNone_compile b came

end

/-! ## What a block registers -/

/-- A block on which programs and designs differ as the value of an attribute: a blank query, or a
backlink whose key has code but comes to the empty text or asks a blank query. -/
def Discord : Block → Prop
  | .backlink _ key => isSilentSlot key = false ∧ isEmptySlot key = false ∧ staticSlot key = .ok none
  | b => asksBlank b = true

private theorem static_of_silent {key : Option Block} {forward : Option String}
    (nothing : ComesToNothing key) (static : staticSlot key = .ok forward) : forward = none := by
  cases key with
  | none =>
    cases static
    rfl
  | some k =>
    rw [staticSlot] at static
    split_ifs at static with empty
    · cases static
      rfl
    · have silent : isSilent k = true := nothing.resolve_left empty
      rw [staticText] at static
      obtain ⟨e, came, static⟩ := Runs.bind_eq_ok static
      have none_came := isNone_compile k came
      rw [silent, Bool.true_or, Option.isNone_iff_eq_none] at none_came
      subst none_came
      cases static
      rfl

/-- A value registers something exactly if it has code, unless it is a discord. -/
theorem isSome_source_iff {b : Block} {registered : Option Source} (came : source b = .ok registered) :
    (isSilent b = false ↔ registered.isSome = true) ↔ ¬ Discord b := by
  by_cases link : ∃ name key, b = .backlink name key
  · obtain ⟨name, key, rfl⟩ := link
    rw [source] at came
    obtain ⟨forward, static, came⟩ := Runs.bind_eq_ok came
    cases came
    rw [Option.isSome_map, isSilent, Discord]
    by_cases nothing : ComesToNothing key
    · have unregistered := static_of_silent nothing static
      unfold ComesToNothing at nothing
      subst unregistered
      cases isSilentSlot key <;> cases isEmptySlot key <;> simp [static] at nothing ⊢
    · unfold ComesToNothing at nothing
      rw [not_or, Bool.not_eq_true, Bool.not_eq_true] at nothing
      cases forward <;> simp [nothing, static]
  · obtain ⟨e, compiled, rfl, discord⟩ : ∃ e, compile b = .ok e ∧ registered = e.map Source.value ∧
        (Discord b ↔ asksBlank b = true) := by
      cases b with
      | backlink name key => exact absurd ⟨name, key, rfl⟩ link
      | _ =>
        obtain ⟨e, compiled, came⟩ := Runs.bind_eq_ok (x := compile _) came
        cases came
        exact ⟨e, compiled, rfl, Iff.rfl⟩
    have absent := isNone_compile b compiled
    have told := told_of_asksBlank b
    rw [Option.isSome_map, discord, ← Option.not_isNone, absent]
    cases silent : isSilent b <;> cases asks : asksBlank b <;> simp [silent, asks] at told ⊢

/-! ## Parts of a record -/

/-- A part of the body of a record: an attribute, what a profile says of itself, or a profile input that
has a property. -/
inductive Part where
  | attr (key value : Option Block)
  | self (profile : Descriptor) (key : String)
  | input (name pid : String) (value : Block)

/-- The parts that the inputs of a profile are. -/
def inputParts (p : Descriptor) : List (String × Block) → List Part
  | [] => []
  | (name, b) :: rest =>
    match p.pidFor? name with
    | none => inputParts p rest
    | some pid => .input name pid b :: inputParts p rest

/-- The parts that a statement has. -/
def statementParts : Block → List Part
  | .attr _ key value => [.attr key value]
  | .profile _ descriptor inputs =>
    match contract descriptor with
    | .ok (p, key) => .self p key :: inputParts p inputs
    | .error _ => []
  | _ => []

/-- The steps of a part in a program. -/
def Part.steps (s : Style) : Part → GraphResult (List Step)
  | attr key value => do
    let key ← slotCode s key
    let value ← slotCode s value
    .ok (attributeSteps s key value)
  | self p key => .ok (selfReferenceSteps s p key)
  | input name pid value => do
    let value ← slotCode s (some value)
    .ok (inputSteps s name pid value)

/-- What a part registers in a design, each with its key. -/
def Part.sources : Part → GraphResult (List (String × Source))
  | attr (some key) (some value) =>
    if isEmptySlot (some key) || isEmptySlot (some value) then .ok []
    else do
      match ← staticText key with
      | some key => (source value).map fun registered => registered.toList.map (key, ·)
      | none => .ok []
  | attr _ _ => .ok []
  | self p key => .ok [(key, .value (Evaluator.const (.str p.identifier)))]
  | input _ pid value =>
    if isEmptySlot (some value) then .ok []
    else (source value).map fun registered => registered.toList.map (pid, ·)

/-- The design with sources registered in order. -/
def addSources (registered : List (String × Source)) (d : Design) : Design :=
  registered.foldl (fun d entry => d.add entry.1 entry.2) d

theorem addSources_append (first second : List (String × Source)) (d : Design) :
    addSources (first ++ second) d = addSources second (addSources first d) :=
  List.foldl_append

/-- The parts have these steps, each its own. -/
def Written (s : Style) : List Part → List (List Step) → Prop :=
  List.Forall₂ fun part steps => part.steps s = .ok steps

/-- The parts register these sources, each its own. -/
def Registered : List Part → List (List (String × Source)) → Prop :=
  List.Forall₂ fun part sources => part.sources = .ok sources

/-- Sources leave everything else of a design as it is. -/
theorem own_addSources (registered : List (String × Source)) (d : Design) :
    (addSources registered d).name = d.name ∧ (addSources registered d).id = d.id ∧
      (addSources registered d).pid = d.pid ∧ (addSources registered d).skip = d.skip := by
  induction registered generalizing d with
  | nil => exact ⟨rfl, rfl, rfl, rfl⟩
  | cons entry rest ih =>
    obtain ⟨key, source⟩ := entry
    obtain ⟨name, id, pid, skip⟩ := ih (d.add key source)
    rw [addSources, List.foldl_cons, ← addSources, name, id, pid, skip]
    cases source with
    | value e => exact ⟨rfl, rfl, rfl, rfl⟩
    | backlink forward =>
      simp only [Design.add]
      split_ifs <;> exact ⟨rfl, rfl, rfl, rfl⟩

/-- The design holds a source under a key. -/
def Holds (d : Design) : String × Source → Prop
  | (key, .value e) => (key, e) ∈ d.evaluators
  | (key, .backlink forward) => (forward, key) ∈ d.backlinks

private theorem mem_addEvaluator_iff (key : String) (e : Evaluator) (groups : List (String × List Evaluator))
    (entry : String × Evaluator) :
    entry ∈ (Design.addEvaluator key e groups).flatMap (fun (key, es) => es.map (key, ·)) ↔
      entry ∈ groups.flatMap (fun (key, es) => es.map (key, ·)) ∨ entry = (key, e) := by
  induction groups with
  | nil => simp [Design.addEvaluator]
  | cons group rest ih =>
    obtain ⟨k, es⟩ := group
    by_cases same : k = key
    · subst same
      simp only [Design.addEvaluator, if_true, List.flatMap_cons, List.map_append, List.map_cons, List.map_nil,
        List.mem_append, List.mem_singleton]
      tauto
    · simp only [Design.addEvaluator, if_neg same, List.flatMap_cons, List.mem_append, ih]
      tauto

private theorem holds_add_iff (key : String) (source : Source) (d : Design) (entry : String × Source) :
    Holds (d.add key source) entry ↔ Holds d entry ∨ entry = (key, source) := by
  obtain ⟨k, own⟩ := entry
  cases source with
  | value e =>
    cases own with
    | value e' =>
      have groups := mem_addEvaluator_iff key e d.attributes (k, e')
      simp only [Prod.mk.injEq, Source.value.injEq] at groups ⊢
      exact groups
    | backlink forward => simp [Holds, Design.add]
  | backlink forward =>
    simp only [Design.add]
    split_ifs with already
    · have held : Holds d (key, .backlink forward) := already
      constructor
      · exact .inl
      · rintro (old | same)
        · exact old
        · exact same ▸ held
    · cases own with
      | value e => simp [Holds, Design.evaluators]
      | backlink forward' => simp [Holds, and_comm]

theorem holds_addSources_iff (registered : List (String × Source)) (d : Design) (entry : String × Source) :
    Holds (addSources registered d) entry ↔ Holds d entry ∨ entry ∈ registered := by
  induction registered generalizing d with
  | nil => simp [addSources]
  | cons first rest ih =>
    have step := ih (d.add first.1 first.2)
    rw [holds_add_iff] at step
    rw [List.mem_cons, ← or_assoc]
    exact step

/-! ## Programs part by part -/

section

variable {s : Style} {p : Descriptor} {outer : String}

private theorem written_of_inputs {inputs : List (String × Block)} {steps : List Step}
    (came : inputsSteps s p inputs = .ok steps) :
    ∃ written, Written s (inputParts p inputs) written ∧ steps = written.flatten := by
  induction inputs generalizing steps with
  | nil =>
    cases came
    exact ⟨[], .nil, rfl⟩
  | cons input rest ih =>
    obtain ⟨name, b⟩ := input
    rw [inputsSteps] at came
    rw [inputParts]
    cases property : p.pidFor? name with
    | none =>
      rw [property] at came
      exact ih came
    | some pid =>
      rw [property] at came
      obtain ⟨f, fragment_came, came⟩ := Runs.bind_eq_ok came
      obtain ⟨code, placed, came⟩ := Runs.bind_eq_ok came
      obtain ⟨more, rest_came, came⟩ := Runs.bind_eq_ok came
      cases came
      obtain ⟨written, each, rfl⟩ := ih rest_came
      have slot : slotCode s (some b) = .ok code := by
        rw [slotCode, fragment_came]
        exact placed
      have own : Part.steps s (.input name pid b) = .ok (inputSteps s name pid code) := by
        rw [Part.steps, slot]
        rfl
      exact ⟨inputSteps s name pid code :: written, .cons own each, rfl⟩

theorem written_of_statement {b : Block} {steps : List Step}
    (came : fragment s b = .ok (.statement (.steps steps))) :
    ∃ written, Written s (statementParts b) written ∧ steps = written.flatten := by
  have states : b.isStatement = true := fits_fragment s b came
  cases b with
  | record id localId skip body =>
    rw [fragment] at came
    split at came
    · cases came
    · obtain ⟨_, _, came⟩ := Runs.bind_eq_ok came
      obtain ⟨_, _, came⟩ := Runs.bind_eq_ok came
      obtain ⟨_, _, came⟩ := Runs.bind_eq_ok came
      cases came
  | attr id key value =>
    rw [fragment] at came
    obtain ⟨keyCode, keyCame, came⟩ := Runs.bind_eq_ok came
    obtain ⟨valueCode, valueCame, came⟩ := Runs.bind_eq_ok came
    cases came
    have own : Part.steps s (.attr key value) = .ok (attributeSteps s keyCode valueCode) := by
      rw [Part.steps, keyCame, valueCame]
      rfl
    exact ⟨[_], .cons own .nil, by simp⟩
  | profile id descriptor inputs =>
    rw [fragment] at came
    rw [statementParts]
    cases complete : contract descriptor with
    | error gap =>
      rw [complete] at came
      cases came
    | ok found =>
      rw [complete] at came
      obtain ⟨more, rest_came, came⟩ := Runs.bind_eq_ok came
      cases came
      obtain ⟨written, each, rfl⟩ := written_of_inputs rest_came
      exact ⟨selfReferenceSteps s found.1 found.2 :: written, .cons rfl each, rfl⟩
  | _ => cases states

theorem written_of_body {body : List Block} {steps : List Step}
    (came : bodySteps s outer body = .ok steps) :
    ∃ written, Written s (body.flatMap statementParts) written ∧ steps = written.flatten := by
  induction body generalizing steps with
  | nil =>
    cases came
    exact ⟨[], .nil, rfl⟩
  | cons b rest ih =>
    rw [bodySteps] at came
    obtain ⟨f, fragment_came, came⟩ := Runs.bind_eq_ok came
    cases f with
    | expression code order => cases came
    | statement st =>
      cases st with
      | design heading own => cases came
      | steps own =>
        obtain ⟨more, rest_came, came⟩ := Runs.bind_eq_ok came
        cases came
        obtain ⟨first, first_each, rfl⟩ := written_of_statement fragment_came
        obtain ⟨second, second_each, rfl⟩ := ih rest_came
        exact ⟨first ++ second, List.rel_append first_each second_each, by simp⟩

end

/-! ## Designs part by part -/

section

variable {p : Descriptor} {d d' : Design}

private theorem addBlock_eq_ok {key : String} {b : Block} (came : d.addBlock key b = .ok d') :
    ∃ registered, source b = .ok registered ∧ d' = addSources (registered.toList.map (key, ·)) d := by
  obtain ⟨registered, found, added⟩ := Runs.bind_eq_ok came
  cases added
  refine ⟨registered, found, ?_⟩
  cases registered <;> rfl

private theorem registered_of_attr {key value : Option Block} (came : d.addAttr key value = .ok d') :
    ∃ sources, Part.sources (.attr key value) = .ok sources ∧ d' = addSources sources d := by
  cases key with
  | none =>
    cases came
    exact ⟨[], rfl, rfl⟩
  | some k =>
    cases value with
    | none =>
      cases came
      exact ⟨[], rfl, rfl⟩
    | some v =>
      rw [Design.addAttr] at came
      rw [Part.sources]
      split_ifs at came ⊢ with empty
      · cases came
        exact ⟨[], rfl, rfl⟩
      · obtain ⟨text, static, came⟩ := Runs.bind_eq_ok came
        rw [static]
        cases text with
        | none =>
          cases came
          exact ⟨[], rfl, rfl⟩
        | some text =>
          obtain ⟨registered, source_came, added⟩ := addBlock_eq_ok came
          exact ⟨_, by rw [source_came]; rfl, added⟩

private theorem registered_of_inputs {inputs : List (String × Block)} (came : Design.addInputs p d inputs = .ok d') :
    ∃ registered, Registered (inputParts p inputs) registered ∧ d' = addSources registered.flatten d := by
  induction inputs generalizing d with
  | nil =>
    cases came
    exact ⟨[], .nil, rfl⟩
  | cons input rest ih =>
    obtain ⟨name, b⟩ := input
    rw [Design.addInputs] at came
    rw [inputParts]
    cases property : p.pidFor? name with
    | none =>
      rw [property] at came
      exact ih came
    | some pid =>
      rw [property] at came
      dsimp only at came
      split_ifs at came with empty
      · obtain ⟨registered, each, rfl⟩ := ih came
        have own : Part.sources (.input name pid b) = .ok [] := by rw [Part.sources, if_pos empty]
        exact ⟨[] :: registered, .cons own each, rfl⟩
      · obtain ⟨mid, added, came⟩ := Runs.bind_eq_ok came
        obtain ⟨found, source_came, rfl⟩ := addBlock_eq_ok added
        obtain ⟨registered, each, rfl⟩ := ih came
        have own : Part.sources (.input name pid b) = .ok (found.toList.map (pid, ·)) := by
          rw [Part.sources, if_neg empty, source_came]
          rfl
        exact ⟨found.toList.map (pid, ·) :: registered, .cons own each, (addSources_append _ _ d).symm⟩

private theorem registered_of_statement {b : Block} (came : d.addStatement b = .ok d') :
    ∃ registered, Registered (statementParts b) registered ∧ d' = addSources registered.flatten d := by
  cases b with
  | attr id key value =>
    obtain ⟨sources, own, rfl⟩ := registered_of_attr came
    exact ⟨[sources], .cons own .nil, by simp⟩
  | profile id descriptor inputs =>
    rw [Design.addStatement] at came
    rw [statementParts]
    cases complete : contract descriptor with
    | error gap =>
      rw [complete] at came
      cases came
    | ok found =>
      rw [complete] at came
      obtain ⟨registered, each, rfl⟩ := registered_of_inputs came
      exact ⟨[(found.2, .value (Evaluator.const (.str found.1.identifier)))] :: registered, .cons rfl each, rfl⟩
  | _ => cases came

theorem registered_of_body {body : List Block} (came : body.foldlM Design.addStatement d = .ok d') :
    ∃ registered, Registered (body.flatMap statementParts) registered ∧ d' = addSources registered.flatten d := by
  induction body generalizing d with
  | nil =>
    cases came
    exact ⟨[], .nil, rfl⟩
  | cons b rest ih =>
    obtain ⟨mid, first_came, rest_came⟩ := Runs.foldlM_cons_ok came
    obtain ⟨first, first_each, rfl⟩ := registered_of_statement first_came
    obtain ⟨second, second_each, rfl⟩ := ih rest_came
    refine ⟨first ++ second, List.rel_append first_each second_each, ?_⟩
    rw [List.flatten_append, addSources_append]

end

/-! ## Lowered records -/

/-- A record that is lowered has no record among its statements, slots that compile, and statements that can be
added one after the other. -/
theorem lowered_record {id : String} {localId : Option Block} {skip : Option (Option Block)} {body : List Block}
    {d : Design} (lowered : Design.ofRecord id localId skip body = .ok d) :
    ∃ idEvaluator skipEvaluator, nestedRecord? id body = none ∧ compileSlot localId = .ok idEvaluator ∧
      compileSlot skip.join = .ok skipEvaluator ∧
      body.foldlM Design.addStatement { Design.empty id with id := idEvaluator, skip := skipEvaluator } = .ok d := by
  rw [Design.ofRecord] at lowered
  cases nested : nestedRecord? id body with
  | some e =>
    rw [nested] at lowered
    cases lowered
  | none =>
    rw [nested] at lowered
    obtain ⟨idEvaluator, idCompiled, lowered⟩ := Runs.bind_eq_ok lowered
    obtain ⟨skipEvaluator, skipCompiled, lowered⟩ := Runs.bind_eq_ok lowered
    exact ⟨idEvaluator, skipEvaluator, rfl, idCompiled, skipCompiled, lowered⟩

/-! ## One part in both -/

/-- There is a call that adds a value. -/
def Adds (steps : List Step) : Prop := ∃ key value, .add key value ∈ steps

theorem mem_comment {s : Style} {text : String} {step : Step} (inside : step ∈ s.comment text) :
    step = .comment text := by
  unfold Style.comment at inside
  split_ifs at inside
  · exact List.mem_singleton.mp inside
  · cases inside

theorem adds_attributeSteps_iff (s : Style) (key value : String) :
    Adds (attributeSteps s key value) ↔ ¬ (isEmptyLiteral key = true ∨ isEmptyLiteral value = true) := by
  rw [← Bool.or_eq_true]
  unfold attributeSteps
  split_ifs with left
  · simp [Adds, left]
  · exact iff_of_true ⟨key, value, by simp⟩ left

theorem adds_inputSteps_iff (s : Style) (name pid value : String) :
    Adds (inputSteps s name pid value) ↔ ¬ isEmptyLiteral value = true := by
  unfold inputSteps
  split_ifs with left
  · simp [Adds, left]
  · exact iff_of_true ⟨s.target.quote pid, value, by simp⟩ left

/-- A part whose key is a text, a reference or the identifier of a property. -/
def Part.KnownKey : Part → Prop
  | attr (some (.literal _ (.text _))) _ => True
  | attr (some (.reference _ _)) _ => True
  | attr _ _ => False
  | self _ _ => True
  | input _ _ _ => True

/-- A part on which programs and designs differ. An attribute whose key comes to nothing is left out of
both, whatever its value is. -/
def Part.Differs : Part → Prop
  | attr key (some value) => ¬ ComesToNothing key ∧ Discord value
  | attr _ none => False
  | self _ _ => False
  | input _ _ value => Discord value

private theorem plain_of_empty {b : Block} (empty : isEmptySlot (some b) = true) :
    isSilent b = false ∧ asksBlank b = false ∧ ¬ Discord b := by
  cases b with
  | literal name value => exact ⟨rfl, rfl, Bool.false_ne_true⟩
  | _ => cases empty

private theorem static_of_known {k : Block} {value : Option Block} {text : Option String}
    (known : Part.KnownKey (.attr (some k) value)) (told : isEmptySlot (some k) = false)
    (static : staticText k = .ok text) : text.isSome = true ↔ ¬ ComesToNothing (some k) := by
  unfold ComesToNothing
  rw [told]
  cases k with
  | literal name literal =>
    cases literal with
    | text t =>
      cases static
      have nonempty : t.isEmpty = false := told
      simp [nonempty, isSilentSlot, isSilent]
    | _ => cases known
  | reference name pid =>
    cases empty : pid.isEmpty with
    | true =>
      rw [staticText, compile, empty] at static
      cases static
      simp [isSilentSlot, isSilent, empty]
    | false =>
      rw [staticText, compile, empty] at static
      cases static
      simp [isSilentSlot, isSilent, empty]
  | _ => cases known

private theorem value_agrees_iff {b : Block} {registered : Option Source} (told : isEmptySlot (some b) = false)
    (came : source b = .ok registered) (key : String) :
    (¬ ComesToNothing (some b) ↔ registered.toList.map (key, ·) ≠ []) ↔ ¬ Discord b := by
  rw [← isSome_source_iff came, ComesToNothing, told, isSilentSlot]
  cases registered <;> simp

private theorem attr_agrees_iff {k v : Block} {sources : List (String × Source)}
    (known : Part.KnownKey (.attr (some k) (some v)))
    (registered : Part.sources (.attr (some k) (some v)) = .ok sources) :
    (¬ (ComesToNothing (some k) ∨ ComesToNothing (some v)) ↔ sources ≠ []) ↔
      ¬ Part.Differs (.attr (some k) (some v)) := by
  rw [Part.sources] at registered
  rw [Part.Differs]
  split_ifs at registered with empty
  · cases registered
    rcases Bool.or_eq_true_iff.mp empty with keyEmpty | valueEmpty
    · have nothing : ComesToNothing (some k) := .inl keyEmpty
      simp [nothing]
    · have nothing : ComesToNothing (some v) := .inl valueEmpty
      simp [nothing, (plain_of_empty valueEmpty).2.2]
  · rw [Bool.not_eq_true, Bool.or_eq_false_iff] at empty
    obtain ⟨text, static, registered⟩ := Runs.bind_eq_ok registered
    have keyComes := static_of_known known empty.1 static
    cases text with
    | none =>
      cases registered
      have nothing : ComesToNothing (some k) := by simpa using keyComes
      simp [nothing]
    | some text =>
      obtain ⟨found, came, registered⟩ := Runs.bind_eq_ok registered
      cases registered
      have something : ¬ ComesToNothing (some k) := keyComes.mp rfl
      simpa [something] using value_agrees_iff empty.2 came text

/-- A part with a known key has a call exactly if it registers something, unless it is one on which
programs and designs differ. -/
theorem part_agrees_iff {s : Style} {part : Part} {steps : List Step} {sources : List (String × Source)}
    (known : part.KnownKey) (written : part.steps s = .ok steps) (registered : part.sources = .ok sources) :
    (Adds steps ↔ sources ≠ []) ↔ ¬ part.Differs := by
  cases part with
  | self p key =>
    cases written
    cases registered
    have added : Adds (selfReferenceSteps s p key) := ⟨_, _, List.mem_append_right _ (List.mem_singleton_self _)⟩
    simp [added, Part.Differs]
  | input name pid value =>
    obtain ⟨code, came, written⟩ := Runs.bind_eq_ok written
    cases written
    rw [adds_inputSteps_iff, emptyLiteral_slot_iff came, Part.Differs]
    rw [Part.sources] at registered
    split_ifs at registered with empty
    · cases registered
      have nothing : ComesToNothing (some value) := .inl empty
      simp [nothing, (plain_of_empty empty).2.2]
    · obtain ⟨found, came, registered⟩ := Runs.bind_eq_ok registered
      cases registered
      exact value_agrees_iff (Bool.not_eq_true _ ▸ empty) came pid
  | attr key value =>
    obtain ⟨keyCode, keyCame, written⟩ := Runs.bind_eq_ok written
    obtain ⟨valueCode, valueCame, written⟩ := Runs.bind_eq_ok written
    cases written
    rw [adds_attributeSteps_iff, emptyLiteral_slot_iff keyCame, emptyLiteral_slot_iff valueCame]
    cases key with
    | none => cases known
    | some k =>
      cases value with
      | none =>
        cases registered
        have nothing : ComesToNothing none := .inl rfl
        simp [nothing, Part.Differs]
      | some v => exact attr_agrees_iff known registered

/-! ## A whole record in both -/

/-- There is a call that sets the id. -/
def SetsId (t : Target) (steps : List Step) : Prop := ∃ code, .setId code ∈ steps ∧ (Step.setId code).render t ≠ ""

/-- There is a call that sets the skip condition. -/
def SetsSkip (t : Target) (steps : List Step) : Prop :=
  ∃ code, .setSkip code ∈ steps ∧ (Step.setSkip code).render t ≠ ""

/-- A step of the body of a record: a comment, or a call that adds a value. -/
def OfBody (step : Step) : Prop := (∃ text, step = .comment text) ∨ ∃ key value, step = .add key value

private theorem ofBody_part {s : Style} {part : Part} {steps : List Step} (written : part.steps s = .ok steps) :
    ∀ step ∈ steps, OfBody step := by
  have comment {text : String} : ∀ step ∈ s.comment text, OfBody step :=
    fun step inside => .inl ⟨text, mem_comment inside⟩
  have add {key value : String} : ∀ step ∈ [Step.add key value], OfBody step :=
    fun step inside => .inr ⟨key, value, List.mem_singleton.mp inside⟩
  cases part with
  | self p key =>
    cases written
    unfold selfReferenceSteps
    simp only [List.forall_mem_append]
    exact ⟨⟨comment, comment⟩, add⟩
  | input name pid value =>
    obtain ⟨code, _, written⟩ := Runs.bind_eq_ok written
    cases written
    unfold inputSteps
    split_ifs
    · simp
    · exact List.forall_mem_append.mpr ⟨comment, add⟩
  | attr key value =>
    obtain ⟨keyCode, _, written⟩ := Runs.bind_eq_ok written
    obtain ⟨valueCode, _, written⟩ := Runs.bind_eq_ok written
    cases written
    unfold attributeSteps
    split_ifs
    · simp
    · exact List.forall_mem_append.mpr ⟨comment, add⟩

private theorem ofBody_written {s : Style} {parts : List Part} {written : List (List Step)}
    (each : Written s parts written) : ∀ step ∈ written.flatten, OfBody step := by
  induction each with
  | nil => simp
  | cons own _ ih =>
    rw [List.flatten_cons, List.forall_mem_append]
    exact ⟨ofBody_part own, ih⟩

section

variable {id skip : String} {body : List Step} (ofBody : ∀ step ∈ body, OfBody step)
include ofBody

private theorem setsId_iff (t : Target) : SetsId t (ownSteps id skip ++ body) ↔ ¬ isEmptyLiteral id = true := by
  have none_inside (code : String) : Step.setId code ∉ body := by
    intro inside
    rcases ofBody _ inside with ⟨_, same⟩ | ⟨_, _, same⟩ <;> cases same
  unfold SetsId ownSteps
  constructor
  · rintro ⟨code, inside, _⟩ empty
    simp only [empty, if_true, List.nil_append, List.mem_append, none_inside, or_false] at inside
    split_ifs at inside <;> simp at inside
  · intro told
    refine ⟨id, by simp [told], ?_⟩
    rw [Step.render, Target.setId, if_neg told]
    exact ne_empty_of_shows (shows_append_right _ (by decide))

private theorem setsSkip_iff (t : Target) :
    SetsSkip t (ownSteps id skip ++ body) ↔ ¬ Text.isBlankText skip = true := by
  have none_inside (code : String) : Step.setSkip code ∉ body := by
    intro inside
    rcases ofBody _ inside with ⟨_, same⟩ | ⟨_, _, same⟩ <;> cases same
  unfold SetsSkip ownSteps
  constructor
  · rintro ⟨code, inside, _⟩ blank
    simp only [blank, if_true, List.append_nil, List.mem_append, none_inside, or_false] at inside
    split_ifs at inside <;> simp at inside
  · intro told
    refine ⟨skip, by simp [told], ?_⟩
    exact ne_empty_of_shows (shows_append_right _ (by decide))

end

theorem skipCode_eq (s : Style) (skip : Option (Option Block)) : skipCode s skip = slotCode s skip.join := by
  cases skip with
  | none => rw [skipCode, Option.join_none, slotCode]
  | some slot => rw [skipCode, Option.join_some]

/-- An id on which programs and designs differ. -/
def IdDiffers (slot : Option Block) : Prop := (slot ≠ none ∧ isEmptySlot slot = true) ∨ asksBlankSlot slot = true

private theorem id_agrees_iff {slot : Option Block} {e : Option Evaluator} (came : compileSlot slot = .ok e) :
    (¬ ComesToNothing slot ↔ e.isSome = true) ↔ ¬ IdDiffers slot := by
  rw [← Option.not_isNone, isNone_compileSlot slot came, ComesToNothing, IdDiffers]
  cases slot with
  | none => simp [isEmptySlot, isSilentSlot, asksBlankSlot]
  | some b =>
    have told := told_of_asksBlank b
    rw [isSilentSlot, asksBlankSlot]
    cases empty : isEmptySlot (some b) with
    | true => simp [plain_of_empty empty]
    | false => cases silent : isSilent b <;> cases asks : asksBlank b <;> simp [silent, asks] at told ⊢

private theorem skip_agrees_iff {slot : Option Block} {e : Option Evaluator} (came : compileSlot slot = .ok e) :
    (¬ isSilentSlot slot = true ↔ e.isSome = true) ↔ ¬ asksBlankSlot slot = true := by
  have absent := isNone_compileSlot slot came
  have told := told_of_asksBlankSlot slot
  rw [← Option.not_isNone, absent]
  cases silent : isSilentSlot slot <;> cases asks : asksBlankSlot slot <;> simp [silent, asks] at told ⊢

theorem exists_at {α β : Type} {R : α → β → Prop} {as : List α} {bs : List β} (each : List.Forall₂ R as bs)
    {i : Nat} {a : α} (place : as[i]? = some a) : ∃ b, bs[i]? = some b ∧ R a b := by
  obtain ⟨inside, rfl⟩ := List.getElem?_eq_some_iff.mp place
  have inside' : i < bs.length := each.length_eq ▸ inside
  exact ⟨bs[i], List.getElem?_eq_getElem inside', each.get inside inside'⟩

/-- A record that comes to a program and to a design comes to both part by part. The program sets the id
exactly if the design has one, and so for the skip condition and for what each part with a known key
adds, if and only if the id, the skip condition or the part is not one on which they differ. -/
theorem same_drops_iff {s : Style} {id : String} {localId : Option Block} {skip : Option (Option Block)}
    {body : List Block} {f : Fragment} {d : Design} (generated : fragment s (.record id localId skip body) = .ok f)
    (lowered : Design.ofRecord id localId skip body = .ok d) :
    ∃ heading own first written registered,
      f = .statement (.design heading own) ∧
      (own = first ++ written.flatten ∧ ¬ Adds first ∧ Written s (body.flatMap statementParts) written) ∧
      ((∀ entry, Holds d entry ↔ entry ∈ registered.flatten) ∧
        Registered (body.flatMap statementParts) registered) ∧
      ((SetsId s.target own ↔ d.id.isSome = true) ↔ ¬ IdDiffers localId) ∧
      ((SetsSkip s.target own ↔ d.skip.isSome = true) ↔ ¬ asksBlankSlot skip.join = true) ∧
      ∀ (i : Nat) (part : Part), (body.flatMap statementParts)[i]? = some part → ∃ steps sources,
        written[i]? = some steps ∧ registered[i]? = some sources ∧
          (part.KnownKey → ((Adds steps ↔ sources ≠ []) ↔ ¬ part.Differs)) := by
  rw [fragment] at generated
  rw [Design.ofRecord] at lowered
  cases nested : nestedRecord? id body with
  | some e =>
    rw [nested] at lowered
    cases lowered
  | none =>
    rw [nested] at generated lowered
    obtain ⟨idCode, idCame, generated⟩ := Runs.bind_eq_ok generated
    obtain ⟨skipCode, skipCame, generated⟩ := Runs.bind_eq_ok generated
    obtain ⟨steps, bodyCame, generated⟩ := Runs.bind_eq_ok generated
    cases generated
    obtain ⟨idEvaluator, idCompiled, lowered⟩ := Runs.bind_eq_ok lowered
    obtain ⟨skipEvaluator, skipCompiled, lowered⟩ := Runs.bind_eq_ok lowered
    obtain ⟨written, writtenEach, rfl⟩ := written_of_body bodyCame
    obtain ⟨registered, registeredEach, same⟩ := registered_of_body lowered
    have ofBody := ofBody_written writtenEach
    have kept : d.id = idEvaluator ∧ d.skip = skipEvaluator := by
      obtain ⟨_, ownId, _, ownSkip⟩ := own_addSources registered.flatten _
      rw [same]
      exact ⟨ownId, ownSkip⟩
    have plain : ¬ Adds (ownSteps idCode skipCode) := by
      rintro ⟨key, value, inside⟩
      unfold ownSteps at inside
      split_ifs at inside <;> simp at inside
    rw [skipCode_eq] at skipCame
    refine ⟨_, _, ownSteps idCode skipCode, written, registered, rfl, ⟨rfl, plain, writtenEach⟩,
      ⟨?_, registeredEach⟩, ?_, ?_, ?_⟩
    · intro entry
      have fresh : ¬ Holds { Design.empty id with id := idEvaluator, skip := skipEvaluator } entry := by
        obtain ⟨key, source⟩ := entry
        cases source <;> exact List.not_mem_nil
      rw [same, holds_addSources_iff]
      exact or_iff_right fresh
    · rw [setsId_iff ofBody, emptyLiteral_slot_iff idCame, kept.1]
      exact id_agrees_iff idCompiled
    · rw [setsSkip_iff ofBody, blank_slot_iff skipCame, kept.2]
      exact skip_agrees_iff skipCompiled
    · intro i part place
      obtain ⟨steps, stepsPlace, ownSteps⟩ := exists_at writtenEach place
      obtain ⟨sources, sourcesPlace, ownSources⟩ := exists_at registeredEach place
      exact ⟨steps, sources, stepsPlace, sourcesPlace, fun known => part_agrees_iff known ownSteps ownSources⟩

/-- A record with one attribute. -/
def noted (value : Block) : List Block := [.attr "a" (some (.literal "k" (.text "raw"))) (some value)]

/-- Two attributes: one with a query as its value, and one with a query that has no text. -/
def remarks : List Block := noted (.fieldQuery "q" .pointer "/raw") ++ noted (.fieldQuery "b" .pointer "")

/-- A record with an id and a skip condition that are set in the program and in the design. They agree on the first
attribute, which both have, and not on the second. -/
theorem pointer_in_both :
    ∃ own d written registered,
      fragment ⟨.python, 2, false⟩ (.record "r" (some (.literal "i" (.text "X")))
          (some (some (.fieldQuery "h" .pointer "/hidden"))) remarks) = .ok (.statement (.design [] own)) ∧
      Design.ofRecord "r" (some (.literal "i" (.text "X"))) (some (some (.fieldQuery "h" .pointer "/hidden")))
        remarks = .ok d ∧
      Written ⟨.python, 2, false⟩ (remarks.flatMap statementParts) written ∧
      Registered (remarks.flatMap statementParts) registered ∧
      (SetsId .python own ↔ d.id.isSome = true) ∧ (SetsSkip .python own ↔ d.skip.isSome = true) ∧
      (∃ steps sources, written[0]? = some steps ∧ registered[0]? = some sources ∧ (Adds steps ↔ sources ≠ [])) ∧
      ∃ steps sources, written[1]? = some steps ∧ registered[1]? = some sources ∧ ¬ (Adds steps ↔ sources ≠ []) := by
  have generated : fragment ⟨.python, 2, false⟩ (.record "r" (some (.literal "i" (.text "X")))
      (some (some (.fieldQuery "h" .pointer "/hidden"))) remarks) = .ok _ := rfl
  have lowered : Design.ofRecord "r" (some (.literal "i" (.text "X")))
      (some (some (.fieldQuery "h" .pointer "/hidden"))) remarks = .ok _ := rfl
  obtain ⟨_, _, _, written, registered, same, ⟨_, _, writtenEach⟩, ⟨_, registeredEach⟩, idAgrees, skipAgrees, parts⟩ :=
    same_drops_iff generated lowered
  cases same
  refine ⟨_, _, written, registered, generated, lowered, writtenEach, registeredEach, ?_, ?_, ?_, ?_⟩
  · exact idAgrees.mpr (by rintro (⟨_, empty⟩ | asks) <;> contradiction)
  · exact skipAgrees.mpr (by decide)
  · obtain ⟨steps, sources, own, own', agrees⟩ := parts 0 _ rfl
    have concord : ¬ Discord (.fieldQuery "q" .pointer "/raw") := by simp [Discord, asksBlank]
    exact ⟨steps, sources, own, own', (agrees trivial).mpr fun differs => concord differs.2⟩
  · obtain ⟨steps, sources, own, own', agrees⟩ := parts 1 _ rfl
    have keyed : ¬ ComesToNothing (some (.literal "k" (.text "raw"))) := by
      rintro (empty | silent) <;> contradiction
    exact ⟨steps, sources, own, own', fun same => (agrees trivial).mp same ⟨keyed, rfl⟩⟩

/-- A query typed in as the empty text has a call in the program and nothing in the design. -/
theorem blank_query_differs :
    fragment ⟨.python, 2, false⟩ (.record "r" (some (.literal "i" (.text "X"))) none
        (noted (.fieldQuery "q" .pointer ""))) =
      .ok (.statement (.design []
        [.setId "'X'", .add "'raw'" "jsonpath.pointer.resolve('', executor.current_source_json)"])) ∧
    Design.ofRecord "r" (some (.literal "i" (.text "X"))) none (noted (.fieldQuery "q" .pointer "")) =
      .ok ⟨"r", some (Evaluator.const (.str "X")), none, none, [], []⟩ := by
  exact ⟨rfl, rfl⟩

end RecordMapper.Proofs.SameDrops
