import RecordMapper.Proofs.DroppedAttributes
import RecordMapper.Proofs.Failures
import RecordMapper.Proofs.Origins
import RecordMapper.Proofs.Stops

/-!
# Clean queries

Some queries are known before any document is, and whether such a query can be read does not depend on a
document. If all queries of a graph are known and can be read, an evaluator fails in two ways only: a pointer
leads nowhere in the document, or a stop is raised (`explained_of_compile`). So no value aborts a run but by a
stop, and no run fails because of how a query is written (`clean_batch`).
-/

namespace RecordMapper.Proofs.CleanQueries
open RecordMapper.Block RecordMapper.Proofs.Runs RecordMapper.Proofs.DroppedAttributes RecordMapper.Proofs.Origins
  RecordMapper.Proofs.Failures

/-! ## Queries -/

/-- A text can be read as a query. -/
def Readable : QueryLanguage → String → Prop
  | .pointer, query => ∃ path, Pointer.parse query = .ok path
  | .path, query => ∃ tokens, JsonPath.tokenize query = .ok tokens

/-- A pointer led nowhere in a document. -/
def Misses (cause : EvalError) : Prop := cause.kind = .queryNotFound ∨ cause.kind = .queryTypeMismatch

theorem misses_of_step {query : String} {value : Json} {s : Segment} {e : QueryError}
    (failed : Pointer.step query value s = .error e) : Misses (.query e) := by
  unfold Pointer.step at failed
  cases value with
  | obj members =>
    cases found : members.lookup s.text with
    | some v => simp [found] at failed
    | none =>
      simp only [found] at failed
      cases failed
      exact .inl rfl
  | arr items =>
    dsimp only at failed
    split_ifs at failed with index
    · cases found : s.place?.bind (items[·]?) with
      | some v => simp [found] at failed
      | none =>
        simp only [found] at failed
        cases failed
        exact .inl rfl
    · cases failed
      exact .inr rfl
  | _ =>
    cases failed
    exact .inr rfl

theorem misses_of_follow {query : String} {path : List Segment} {value : Json} {e : QueryError}
    (failed : Pointer.follow query value path = .error e) : Misses (.query e) := by
  induction path generalizing value with
  | nil => cases failed
  | cons s rest ih =>
    rw [Pointer.follow] at failed
    cases stepped : Pointer.step query value s with
    | ok v =>
      rw [stepped] at failed
      exact ih failed
    | error cause =>
      rw [stepped] at failed
      cases failed
      exact misses_of_step stepped

/-- A query that can be read fails on a document only as a pointer that leads nowhere. -/
theorem misses_of_runQuery {language : QueryLanguage} {query : String} (readable : Readable language query)
    {c : Context} {cause : EvalError} (failed : runQuery language query c = .error cause) : Misses cause := by
  cases language with
  | pointer =>
    obtain ⟨path, parsed⟩ := readable
    rw [runQuery, Evaluator.pointer, Pointer.resolve, parsed] at failed
    cases followed : Pointer.follow query c.document path.tail with
    | ok v => simp [followed] at failed
    | error e =>
      simp only [followed] at failed
      cases failed
      exact misses_of_follow followed
  | path =>
    obtain ⟨tokens, tokenized⟩ := readable
    rw [runQuery, Evaluator.path, JsonPath.findAll, tokenized] at failed
    cases failed

/-! ## Evaluators -/

/-- The visits of a walk from a block on. -/
def within (inRecord : Bool) (b : Block) : List (Bool × Block) :=
  walk insideRecord (fun inRecord b => [(inRecord, b)]) inRecord b

/-- The visits of a walk from a slot on. -/
def withinSlot (inRecord : Bool) (slot : Option Block) : List (Bool × Block) :=
  walkSlot insideRecord (fun inRecord b => [(inRecord, b)]) inRecord slot

/-- The visits of a walk from blocks on. -/
def withinAll (inRecord : Bool) (bs : List Block) : List (Bool × Block) :=
  walkAll insideRecord (fun inRecord b => [(inRecord, b)]) inRecord bs

/-- A block that is no query, or whose query is known and can be read. -/
def Clean (b : Block) : Prop :=
  ∀ language, b.language? = some language → ∃ query, b.literalQuery? = some query ∧ Readable language query

/-- A stop among blocks raises a failure. -/
def StoppedBy (visited : List (Bool × Block)) (c : Context) (cause : EvalError) : Prop :=
  ∃ inRecord id message e, (inRecord, Block.stop id message) ∈ visited ∧ compile (.stop id message) = .ok (some e) ∧
    e c = .error cause ∧ cause.kind = .stopped

/-- A failure comes from a pointer that leads nowhere, or from a stop among blocks. -/
def Explained (visited : List (Bool × Block)) (c : Context) (cause : EvalError) : Prop :=
  Misses cause ∨ StoppedBy visited c cause

section

variable {visited : List (Bool × Block)} {c : Context} {cause : EvalError}

private theorem explained_orNull {e : Option Evaluator} (own : ∀ f ∈ e, f c = .error cause → Explained visited c cause)
    (failed : orNull e c = .error cause) : Explained visited c cause := by
  cases e with
  | none => cases failed
  | some f => exact own f rfl failed

/-- What a fallback fails with is a stop of the value or what the other value fails with. -/
private theorem otherwise_error {value other : Evaluator} (failed : Evaluator.otherwise value other c = .error cause) :
    value c = .error cause ∨ other c = .error cause := by
  rw [Evaluator.otherwise] at failed
  unfold Outcome.otherwise at failed
  split at failed
  · split_ifs at failed
    exact .inr failed
  · next first =>
    rw [first]
    exact .inl failed
  · exact .inr failed

/-- What a stop fails with is a failure of its message or the stop. -/
private theorem stop_error {message : Option Evaluator} (failed : Evaluator.stop message c = .error cause) :
    (∃ f ∈ message, f c = .error cause) ∨ cause.kind = .stopped := by
  by_cases preempted : ∃ first, Stops.Preempted message c first
  · obtain ⟨first, preempted⟩ := preempted
    rw [Stops.stop_of_preempted preempted] at failed
    cases failed
    obtain ⟨f, own, outcome, _⟩ := preempted
    exact .inl ⟨f, own, outcome⟩
  · obtain ⟨text, stopped⟩ := Stops.stop_of_not_preempted preempted
    rw [stopped] at failed
    cases failed
    exact .inr rfl

private theorem visited_self {inRecord : Bool} {b : Block} (inside : within inRecord b ⊆ visited) :
    (inRecord, b) ∈ visited :=
  inside (mem_walk_of_own (List.mem_singleton_self _))

/-- A query that another block gives is known only if that block is a text. -/
private theorem literal_of_known {name : String} {form : SlotQuery} {query : Option Block} {text : String}
    (known : (Block.slotQuery name form query).literalQuery? = some text) :
    ∃ own, query = some (.literal own (.text text)) := by
  unfold literalQuery? at known
  split at known
  · next same => cases same
  · next own _ same =>
    cases same
    cases known
    exact ⟨own, rfl⟩
  · cases known

mutual

/-- Where all queries are clean, what an evaluator fails with is explained. -/
theorem explained_of_compile (clean : ∀ visit ∈ visited, Clean visit.2) : ∀ (b : Block) {inRecord : Bool}
    {e : Option Evaluator}, within inRecord b ⊆ visited → compile b = .ok e → ∀ f ∈ e, f c = .error cause →
    Explained visited c cause
  | .fieldQuery _ _ query, _, _, inside, came => by
    rw [compile] at came
    cases came
    intro f own failed
    split_ifs at own
    · cases own
    · cases own
      obtain ⟨_, known, readable⟩ := clean _ (visited_self inside) .pointer rfl
      cases known
      exact .inl (misses_of_runQuery readable failed)
  | .slotQuery _ form _, _, _, inside, came => by
    obtain ⟨text, known, readable⟩ := clean _ (visited_self inside) form.language rfl
    obtain ⟨own, rfl⟩ := literal_of_known known
    rw [compile] at came
    cases came
    rintro _ ⟨⟩ failed
    exact .inl (misses_of_runQuery readable failed)
  | .stop name message, inRecord, _, inside, came => by
    have compiled := came
    rw [compile] at came
    obtain ⟨m, slot, came⟩ := bind_eq_ok came
    cases came
    rintro _ ⟨⟩ failed
    have visit := visited_self inside
    rw [within, walk] at inside
    obtain ⟨_, below⟩ := List.append_subset.mp inside
    -- the block is the stop that is raised, unless its message fails first
    rcases stop_error failed with ⟨f, own, first⟩ | stopped
    · exact explained_of_compileSlot clean message below slot f own first
    · exact .inr ⟨inRecord, name, message, _, visit, compiled, failed, stopped⟩
  | .log _ _ value, _, _, inside, came => by
    rw [compile] at came
    obtain ⟨v, slot, came⟩ := bind_eq_ok came
    cases came
    rintro _ ⟨⟩ failed
    rw [within, walk] at inside
    obtain ⟨_, below⟩ := List.append_subset.mp inside
    exact explained_orNull (explained_of_compileSlot clean value below slot) failed
  | .otherwise _ value other, _, _, inside, came => by
    rw [compile] at came
    obtain ⟨v, slot, came⟩ := bind_eq_ok came
    obtain ⟨o, otherSlot, came⟩ := bind_eq_ok came
    cases came
    rintro _ ⟨⟩ failed
    rw [within, walk] at inside
    obtain ⟨_, both⟩ := List.append_subset.mp inside
    obtain ⟨below, otherBelow⟩ := List.append_subset.mp both
    rcases otherwise_error failed with first | second
    · exact explained_orNull (explained_of_compileSlot clean value below slot) first
    · exact explained_orNull (explained_of_compileSlot clean other otherBelow otherSlot) second
  | .reference _ pid, _, _, _, came => by
    rw [compile] at came
    cases came
    intro f own failed
    split_ifs at own
    · cases own
    · cases own
      cases failed
  | .literal _ _, _, _, _, came => by
    rw [compile] at came
    cases came
    rintro _ ⟨⟩ failed
    cases failed
  | .list _ items, _, _, inside, came => by
    rw [compile] at came
    obtain ⟨es, all, came⟩ := bind_eq_ok came
    cases came
    rintro _ ⟨⟩ failed
    rw [within, walk] at inside
    obtain ⟨_, below⟩ := List.append_subset.mp inside
    rw [Evaluator.list] at failed
    cases mapped : es.mapM fun (item : Evaluator) => item c with
    | ok values => simp [mapped, Except.map] at failed
    | error first =>
      rw [mapped] at failed
      cases failed
      obtain ⟨f, own, failed⟩ := mapM_eq_error mapped
      exact explained_of_compileAll clean items below all f own failed
  | .record _ _ _ _, _, _, _, came | .attr _ _ _, _, _, _, came | .profile _ _ _, _, _, _, came
  | .backlink _ _, _, _, _, came => by
    rw [compile] at came
    cases came

theorem explained_of_compileSlot (clean : ∀ visit ∈ visited, Clean visit.2) : ∀ (slot : Option Block)
    {inRecord : Bool} {e : Option Evaluator}, withinSlot inRecord slot ⊆ visited → compileSlot slot = .ok e →
    ∀ f ∈ e, f c = .error cause → Explained visited c cause
  | none, _, _, _, came => by
    rw [compileSlot] at came
    cases came
    exact fun f own => nomatch own
  | some b, _, _, inside, came => by
    rw [compileSlot] at came
    rw [withinSlot, walkSlot] at inside
    exact explained_of_compile clean b inside came

theorem explained_of_compileAll (clean : ∀ visit ∈ visited, Clean visit.2) : ∀ (bs : List Block)
    {inRecord : Bool} {es : List Evaluator}, withinAll inRecord bs ⊆ visited → compileAll bs = .ok es →
    ∀ f ∈ es, f c = .error cause → Explained visited c cause
  | [], _, _, _, came => by
    rw [compileAll] at came
    cases came
    exact fun f own => nomatch own
  | b :: rest, _, _, inside, came => by
    rw [compileAll] at came
    obtain ⟨e, first, came⟩ := bind_eq_ok came
    obtain ⟨es, later, came⟩ := bind_eq_ok came
    cases came
    rw [withinAll, walkAll] at inside
    obtain ⟨here, below⟩ := List.append_subset.mp inside
    refine List.forall_mem_append.mpr ⟨?_, explained_of_compileAll clean rest below later⟩
    intro f own
    exact explained_of_compile clean b here first f (Option.mem_toList.mp own)

end

end

/-! ## Graphs -/

/-- Every query of a graph is known, no pointer among them is reported, and each path can be read. -/
structure CleanGraph (g : Graph) : Prop where
  known : ∀ visit ∈ visits g, visit.2.language?.isSome = true → visit.2.literalQuery?.isSome = true
  unreported : ∀ diagnostic ∈ g.validate, diagnostic.code ≠ DiagnosticCode.invalidPointer.text
  tokenized : ∀ visit ∈ visits g, ∀ query, visit.2.language? = some .path → visit.2.literalQuery? = some query →
    ∃ tokens, JsonPath.tokenize query = .ok tokens

/-- A pointer that cannot be read is reported. -/
theorem reported_of_unreadable (inRecord : Bool) {b : Block} {query : String} {e : PathError}
    (language : b.language? = some .pointer) (known : b.literalQuery? = some query)
    (unreadable : Pointer.parse query = .error e) :
    ∃ diagnostic ∈ reports (inRecord, b), diagnostic.code = DiagnosticCode.invalidPointer.text := by
  have own : reports (inRecord, b) = Diagnostic.ofQuery b := by
    cases b with
    | fieldQuery | slotQuery => rfl
    | _ => cases language
  have reported : Diagnostic.ofQuery b = [Diagnostic.ofCode .invalidPointer e.message b.id
      ["A JSON Pointer is empty or starts with '/'."]] := by
    simp [Diagnostic.ofQuery, language, known, unreadable]
  rw [own, reported]
  exact ⟨_, List.mem_singleton_self _, rfl⟩

theorem clean_of_graph {g : Graph} (clean : CleanGraph g) : ∀ visit ∈ visits g, Clean visit.2 := by
  rintro ⟨inRecord, b⟩ visited language own
  obtain ⟨query, known⟩ := Option.isSome_iff_exists.mp (clean.known _ visited (by rw [own]; rfl))
  refine ⟨query, known, ?_⟩
  cases language with
  | path => exact clean.tokenized _ visited query own known
  | pointer =>
    cases parsed : Pointer.parse query with
    | ok path => exact ⟨path, parsed⟩
    | error e =>
      obtain ⟨diagnostic, inside, code⟩ := reported_of_unreadable inRecord own known parsed
      exact absurd code (clean.unreported diagnostic (mem_validate_iff.mpr ⟨_, visited, inside⟩))

theorem within_of_value {st b : Block} (held : b ∈ valuesOf st) (inRecord : Bool) :
    ∃ inner, within inner b ⊆ within inRecord st := by
  cases st with
  | attr name key value =>
    obtain rfl : value = some b := Option.mem_toList.mp held
    refine ⟨insideRecord inRecord (.attr name key (some b)), ?_⟩
    rw [within, within, walk]
    exact List.subset_append_of_subset_right _ (List.subset_append_of_subset_right _ (List.Subset.refl _))
  | profile name descriptor inputs =>
    refine ⟨insideRecord inRecord (.profile name descriptor inputs), ?_⟩
    rw [within, within, walk]
    refine List.subset_append_of_subset_right _ fun visit below => ?_
    exact mem_walkInputs_iff.mpr ⟨b, held, below⟩
  | _ => cases held

/-- Where all queries are clean, what the evaluators of a design fail with is explained. -/
theorem explained_of_design {g : Graph} {designs : List Design} (lowered : g.lower = .ok designs)
    (clean : CleanGraph g) {d : Design} (member : d ∈ designs) {c : Context} {cause : EvalError} :
    ∀ e ∈ Reading.evaluatorsOf d, e c = .error cause → Explained (visits g) c cause := by
  obtain ⟨record, inside, name, localId, skip, body, rfl, own⟩ := record_of_design lowered member
  have parts := madeFrom_of_record own
  have all : within false (.record name localId skip body) ⊆ visits g := fun visit below =>
    mem_walkAll_iff.mpr ⟨_, inside, below⟩
  rw [within, walk] at all
  obtain ⟨_, below⟩ := List.append_subset.mp all
  obtain ⟨slots, bodyBelow⟩ := List.append_subset.mp below
  obtain ⟨idBelow, skipBelow⟩ := List.append_subset.mp slots
  have cleanly := clean_of_graph clean
  intro e evaluator failed
  simp only [Reading.evaluatorsOf, parts.pid, Option.toList_none, List.append_nil, List.mem_append,
    Option.mem_toList] at evaluator
  rcases evaluator with (fromId | fromSkip) | fromValue
  · exact explained_of_compileSlot cleanly localId idBelow parts.ownId e fromId failed
  · have joined : withinSlot true skip.join ⊆ visits g := by
      cases skip with
      | none => exact List.nil_subset _
      | some slot => exact skipBelow
    exact explained_of_compileSlot cleanly skip.join joined parts.ownSkip e fromSkip failed
  · obtain ⟨entry, value, rfl⟩ := List.mem_map.mp fromValue
    rcases parts.values entry value with ⟨text, same⟩ | ⟨b, held, compiled⟩
    · rw [same] at failed
      cases failed
    · obtain ⟨st, statement, held⟩ := List.mem_flatMap.mp held
      obtain ⟨inner, inside⟩ := within_of_value held true
      have deep : within inner b ⊆ visits g := fun visit here =>
        bodyBelow (mem_walkAll_iff.mpr ⟨st, statement, inside here⟩)
      exact explained_of_compile cleanly b deep compiled entry.2 rfl failed

/-! ## Batches -/

/-- How a run may fail where all queries are clean: a value by a stop, an id or a skip condition by a stop or by
a pointer that leads nowhere, and a design for want of an id that can be used. -/
def Tame (g : Graph) (documents : List Json) : RunError → Prop
  | .missingId _ => True
  | .badId _ _ _ => True
  | .pid _ _ _ => False
  | .id design index cause | .skip design index cause =>
    ∃ document, documents[index]? = some document ∧ Explained (visits g) ⟨document, index, design⟩ cause
  | .value design _ index cause =>
    ∃ document, documents[index]? = some document ∧ StoppedBy (visits g) ⟨document, index, design⟩ cause

theorem stopped_of_intolerable {visited : List (Bool × Block)} {c : Context} {cause : EvalError}
    (explained : Explained visited c cause) (intolerable : cause.kind ∉ ErrorKind.defaultTolerable) :
    StoppedBy visited c cause := by
  refine explained.resolve_left ?_
  rintro (missing | mismatch)
  · exact intolerable (missing ▸ List.mem_cons_self)
  · exact intolerable (mismatch ▸ List.mem_cons_of_mem _ (List.mem_singleton_self _))

theorem kind_of_explained {visited : List (Bool × Block)} {c : Context} {cause : EvalError}
    (explained : Explained visited c cause) : cause.kind ≠ .querySyntax ∧ cause.kind ≠ .failed := by
  rcases explained with (missing | mismatch) | ⟨_, _, _, _, _, _, _, stopped⟩
  · rw [missing]
    decide
  · rw [mismatch]
    decide
  · rw [stopped]
    decide

theorem kind_of_tame {g : Graph} {documents : List Json} {failure : RunError} (tame : Tame g documents failure) :
    ∀ cause ∈ failure.cause?, cause.kind ≠ .querySyntax ∧ cause.kind ≠ .failed := by
  rintro cause inside
  cases failure with
  | missingId _ | badId _ _ _ => cases inside
  | pid _ _ _ => exact tame.elim
  | id _ _ _ | skip _ _ _ =>
    cases inside
    obtain ⟨_, _, explained⟩ := tame
    exact kind_of_explained explained
  | value _ _ _ _ =>
    cases inside
    obtain ⟨_, _, stopped⟩ := tame
    exact kind_of_explained (.inr stopped)

/-- A run over a graph with clean queries that tolerates what is tolerated unless a configuration says otherwise
fails, if it fails, by a stop, by a pointer that leads nowhere in an id or a skip condition, or for want of an
id that can be used; it never fails because of how a query is written. -/
theorem clean_batch {g : Graph} {designs : List Design} {documents : List Json} {failure : RunError}
    (lowered : g.lower = .ok designs) (clean : CleanGraph g)
    (ran : run designs ErrorKind.defaultTolerable documents = .error failure) :
    Tame g documents failure ∧ ∀ cause ∈ failure.cause?, cause.kind ≠ .querySyntax ∧ cause.kind ≠ .failed := by
  obtain ⟨d, member, index, document, placed, failed⟩ := failing_pair ran
  have explained {e : Evaluator} {cause : EvalError} (own : e ∈ Reading.evaluatorsOf d)
      (outcome : e ⟨document, index, d.name⟩ = .error cause) :
      Explained (visits g) ⟨document, index, d.name⟩ cause :=
    explained_of_design lowered clean member e own outcome
  have tame : Tame g documents failure := by
    cases failsBy_of_apply failed with
    | missingId _ | notText _ _ _ _ _ | emptyId _ _ _ _ _ => trivial
    | skip e cause own outcome =>
      exact ⟨document, placed, explained (by simp [Reading.evaluatorsOf, own]) outcome⟩
    | id e cause own outcome =>
      exact ⟨document, placed, explained (by simp [Reading.evaluatorsOf, own]) outcome⟩
    | pid e cause own outcome =>
      obtain ⟨_, _, _, _, _, _, rfl, made⟩ := record_of_design lowered member
      have unset : none = some e := (madeFrom_of_record made).pid.symm.trans own
      cases unset
    | value key e cause own outcome intolerable =>
      have told := explained (List.mem_append_right _ (List.mem_map_of_mem own)) outcome
      exact ⟨document, placed, stopped_of_intolerable told intolerable⟩
  exact ⟨tame, kind_of_tame tame⟩

/-- A record that stops at a document without a license, and lists tags. -/
def licensedOnly : Graph :=
  ⟨[[.record "r" (some (.fieldQuery "i" .pointer "/id")) none
    [.attr "l" (some (.literal "k" (.text "license")))
        (some (.otherwise "o" (some (.fieldQuery "q" .pointer "/license"))
          (some (.stop "s" (some (.fieldQuery "n" .pointer "/note")))))),
      .attr "t" (some (.literal "k'" (.text "tags")))
        (some (.slotQuery "p" .path (some (.literal "q'" (.text "$.tags[*]")))))]]]⟩

theorem licensedOnly_clean : CleanGraph licensedOnly where
  known := by decide
  unreported := List.forall_mem_nil _
  tokenized := by
    have paths : ∀ visit ∈ visits licensedOnly, visit.2.language? = some .path →
        visit.2.literalQuery? = some "$.tags[*]" := by decide
    have tokenized : JsonPath.tokenize "$.tags[*]" = .ok [.key "tags", .wildcard] := by cbv
    intro visit visited query path known
    rw [paths visit visited path] at known
    cases known
    exact ⟨_, tokenized⟩

theorem licensedOnly_stopped :
    ∃ designs failure, licensedOnly.lower = .ok designs ∧ CleanGraph licensedOnly ∧
      run designs ErrorKind.defaultTolerable [.obj [("id", .str "A"), ("note", .str "no license")]] = .error failure ∧
      failure = .value "r" "license" 0 (.stopped "no license") ∧
      Tame licensedOnly [.obj [("id", .str "A"), ("note", .str "no license")]] failure := by
  obtain ⟨designs, lowered, ran⟩ : ∃ designs, licensedOnly.lower = .ok designs ∧
      run designs ErrorKind.defaultTolerable [.obj [("id", .str "A"), ("note", .str "no license")]] =
        .error (.value "r" "license" 0 (.stopped "no license")) := ⟨_, rfl, rfl⟩
  exact ⟨designs, _, lowered, licensedOnly_clean, ran, rfl, (clean_batch lowered licensedOnly_clean ran).1⟩

end RecordMapper.Proofs.CleanQueries
