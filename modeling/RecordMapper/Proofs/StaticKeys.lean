import RecordMapper.Proofs.Reading

/-!
# Keys that are known before any document

Whether a key is static is found out by one evaluation, against null. A block has alternatives, which are
tried in turn until one is final; no query comes to a text on null. So the text that is found is that of
a literal or a reference, with nothing before it that is final on null, and the block keeps to it on a
document exactly if nothing before it is final there on anything else (`key_kept_iff`). A block without
a query before it keeps to its text on all documents; one with a query before it may not
(`static_key_varies`).
-/

namespace RecordMapper.Proofs.StaticKeys
open RecordMapper.Block RecordMapper.Proofs.Reading

mutual

/-- The values that a block may come to, in the order in which they are tried. -/
def alternatives : Block → List (Option Block)
  | .log _ _ value => alternativesSlot value
  | .otherwise _ value other => alternativesSlot value ++ alternativesSlot other
  | b => [some b]

/-- The values that a slot may come to. -/
def alternativesSlot : Option Block → List (Option Block)
  | none => [none]
  | some b => alternatives b

end

/-- What a slot comes to in a context; null if its block has no evaluator. -/
def outcome (context : Context) (slot : Option Block) : Outcome :=
  match compileSlot slot with
  | .ok e => orNull e context
  | .error _ => .ok .null

/-- Whether an outcome is final: a value that is not empty-ish, or a stop. -/
def settles : Outcome → Bool
  | .ok value => !value.isEmptyish
  | .error (.stopped _) => true
  | .error _ => false

/-- The text that a literal or a reference is. -/
def textOf : Option Block → Option String
  | some (.literal _ (.text text)) => some text
  | some (.reference _ pid) => some pid
  | _ => none

/-! ## Trying in turn -/

/-- The first outcome that is final, or else the last. -/
def firstOf : List Outcome → Outcome
  | [] => .ok .null
  | [o] => o
  | o :: rest => if settles o then o else firstOf rest

theorem otherwise_eq (first : Outcome) (fallback : Unit → Outcome) :
    first.otherwise fallback = if settles first then first else fallback () := by
  cases first with
  | ok value => cases empty : value.isEmptyish <;> simp [Outcome.otherwise, settles, empty]
  | error cause => cases cause <;> simp [Outcome.otherwise, settles]

theorem firstOf_cons {o : Outcome} {rest : List Outcome} (more : rest ≠ []) :
    firstOf (o :: rest) = if settles o then o else firstOf rest := by
  obtain ⟨next, later, rfl⟩ := List.exists_cons_of_ne_nil more
  rfl

theorem firstOf_append {first second : List Outcome} (some : first ≠ []) (more : second ≠ []) :
    firstOf (first ++ second) = (firstOf first).otherwise fun _ => firstOf second := by
  induction first with
  | nil => exact absurd rfl some
  | cons o rest ih =>
    rw [List.cons_append, firstOf_cons (List.append_ne_nil_of_right_ne_nil _ more)]
    cases rest with
    | nil =>
      rw [otherwise_eq]
      rfl
    | cons next rest =>
      rw [ih (by simp), firstOf_cons (o := o) (by simp)]
      by_cases final : settles o = true
      · rw [if_pos final, if_pos final, otherwise_eq, if_pos final]
      · rw [if_neg final, if_neg final]

/-- Where something is final, or last, what comes first is it or something before it. -/
private theorem firstOf_map {α : Type} (f : α → Outcome) (tried : List α) {a : α} {rest : List α}
    (final : settles (f a) = true ∨ rest = []) :
    firstOf ((tried ++ a :: rest).map f) = f ((tried.find? fun x => settles (f x)).getD a) := by
  induction tried with
  | nil =>
    rcases final with final | rfl
    · cases rest with
      | nil => rfl
      | cons next rest => exact if_pos final
    · rfl
  | cons x tried ih =>
    rw [List.cons_append, List.map_cons, firstOf_cons (by simp), ih, List.find?_cons]
    cases settles (f x) <;> rfl

/-- Among several there is one that is final or last, with none before it that is final. -/
private theorem exists_final {α : Type} (f : α → Outcome) {xs : List α} (some : xs ≠ []) :
    ∃ tried a rest, xs = tried ++ a :: rest ∧ (∀ x ∈ tried, settles (f x) = false) ∧
      (settles (f a) = true ∨ rest = []) := by
  induction xs with
  | nil => exact absurd rfl some
  | cons x xs ih =>
    cases final : settles (f x) with
    | true => exact ⟨[], x, xs, rfl, List.forall_mem_nil _, .inl final⟩
    | false =>
      by_cases last : xs = []
      · exact ⟨[], x, xs, rfl, List.forall_mem_nil _, .inr last⟩
      · obtain ⟨tried, a, rest, rfl, before, found⟩ := ih last
        exact ⟨x :: tried, a, rest, rfl, List.forall_mem_cons.mpr ⟨final, before⟩, found⟩

/-! ## Alternatives -/

mutual

private theorem alternatives_ne_nil : ∀ b : Block, alternatives b ≠ []
  | .log _ _ value => alternativesSlot_ne_nil value
  | .otherwise _ value _ => List.append_ne_nil_of_left_ne_nil (alternativesSlot_ne_nil value) _
  | .record _ _ _ _ | .attr _ _ _ | .profile _ _ _ | .fieldQuery _ _ _ | .slotQuery _ _ _ | .stop _ _
  | .backlink _ _ | .reference _ _ | .literal _ _ | .list _ _ => List.cons_ne_nil _ _

private theorem alternativesSlot_ne_nil : ∀ slot : Option Block, alternativesSlot slot ≠ []
  | none => List.cons_ne_nil _ _
  | some b => alternatives_ne_nil b

end

private theorem outcome_eq {slot : Option Block} {e : Option Evaluator} (came : compileSlot slot = .ok e)
    (context : Context) : outcome context slot = orNull e context := by
  rw [outcome, came]

mutual

/-- A block comes to the first of its alternatives that is final. -/
theorem compile_tries (context : Context) : ∀ (b : Block) {e : Option Evaluator}, compile b = .ok e →
    orNull e context = firstOf ((alternatives b).map (outcome context))
  | .log _ description value, _, came => by
    rw [compile] at came
    obtain ⟨v, slot, came⟩ := Runs.bind_eq_ok came
    cases came
    rw [alternatives, ← compileSlot_tries context value slot]
    rfl
  | .otherwise _ value other, _, came => by
    rw [compile] at came
    obtain ⟨v, slot, came⟩ := Runs.bind_eq_ok came
    obtain ⟨o, otherSlot, came⟩ := Runs.bind_eq_ok came
    cases came
    rw [alternatives, List.map_append, firstOf_append, ← compileSlot_tries context value slot,
      ← compileSlot_tries context other otherSlot]
    · rfl
    · simpa using alternativesSlot_ne_nil value
    · simpa using alternativesSlot_ne_nil other
  | .record _ _ _ _, _, came | .attr _ _ _, _, came | .profile _ _ _, _, came | .fieldQuery _ _ _, _, came
  | .slotQuery _ _ _, _, came | .stop _ _, _, came | .backlink _ _, _, came | .reference _ _, _, came
  | .literal _ _, _, came | .list _ _, _, came => by
    exact (outcome_eq (by rw [compileSlot, came]) context).symm

theorem compileSlot_tries (context : Context) : ∀ (slot : Option Block) {e : Option Evaluator},
    compileSlot slot = .ok e → orNull e context = firstOf ((alternativesSlot slot).map (outcome context))
  | none, _, came => by
    exact (outcome_eq came context).symm
  | some b, _, came => compile_tries context b came

end

/-- What is tried as it is: nothing, or a block that hands no other value on. -/
def isPlain : Option Block → Bool
  | some (.log _ _ _) => false
  | some (.otherwise _ _ _) => false
  | _ => true

mutual

private theorem alternatives_plain : ∀ b : Block, ∀ x ∈ alternatives b, isPlain x = true
  | .log _ _ value => alternativesSlot_plain value
  | .otherwise _ value other => List.forall_mem_append.mpr ⟨alternativesSlot_plain value, alternativesSlot_plain other⟩
  | .record _ _ _ _ | .attr _ _ _ | .profile _ _ _ | .fieldQuery _ _ _ | .slotQuery _ _ _ | .stop _ _
  | .backlink _ _ | .reference _ _ | .literal _ _ | .list _ _ => List.forall_mem_singleton.mpr rfl

private theorem alternativesSlot_plain : ∀ slot : Option Block, ∀ x ∈ alternativesSlot slot, isPlain x = true
  | none => List.forall_mem_singleton.mpr rfl
  | some b => alternatives_plain b

end

/-! ## Texts on null -/

private theorem runQuery_no_text (language : QueryLanguage) (query text : String) :
    runQuery language query keyContext ≠ .ok (.str text) := by
  cases language with
  | path =>
    rw [runQuery, Evaluator.path]
    cases JsonPath.findAll query keyContext.document <;> simp
  | pointer =>
    have nowhere : ∀ path : List Segment, Pointer.follow query .null path ≠ .ok (.str text) := by
      intro path
      cases path with
      | nil => simp [Pointer.follow]
      | cons s rest => simp [Pointer.follow, Pointer.step]
    intro found
    rw [runQuery, Evaluator.pointer, keyContext, Pointer.resolve] at found
    cases parsed : Pointer.parse query with
    | error cause => simp [parsed] at found
    | ok path =>
      cases came : Pointer.follow query .null path.tail with
      | error cause => simp [parsed, came] at found
      | ok value =>
        simp only [parsed, came] at found
        cases found
        exact nowhere _ came

private theorem queryOf_no_text (language : QueryLanguage) (query : Evaluator) (text : String) :
    Evaluator.queryOf (runQuery language) query keyContext ≠ .ok (.str text) := by
  intro same
  rw [Evaluator.queryOf] at same
  split at same
  · exact runQuery_no_text language _ text same
  · cases same
  · cases same

private theorem stop_no_value (message : Option Evaluator) (context : Context) (value : Json) :
    Evaluator.stop message context ≠ .ok value := by
  intro same
  cases message with
  | none => cases same
  | some m =>
    unfold Evaluator.stop at same
    cases came : m context <;> simp [came] at same

private theorem list_no_text (items : List Evaluator) (context : Context) (text : String) :
    Evaluator.list items context ≠ .ok (.str text) := by
  rw [Evaluator.list]
  cases items.mapM fun (item : Evaluator) => item context <;> simp [Except.map]

/-- What comes to a text on null without handing on another value is that text itself. -/
theorem textOf_of_outcome {slot : Option Block} (plain : isPlain slot = true) {text : String}
    (came : outcome keyContext slot = .ok (.str text)) : textOf slot = some text := by
  unfold outcome at came
  cases compiled : compileSlot slot with
  | error cause => simp [compiled] at came
  | ok e =>
    rw [compiled] at came
    cases slot with
    | none =>
      cases compiled
      cases came
    | some b =>
      rw [compileSlot] at compiled
      cases b with
      | log id description value => cases plain
      | otherwise id value other => cases plain
      | record id localId skip body => cases compiled
      | attr id key value => cases compiled
      | profile id descriptor inputs => cases compiled
      | backlink id key => cases compiled
      | fieldQuery id form query =>
        rw [compile] at compiled
        cases compiled
        split_ifs at came
        · cases came
        · exact absurd came (runQuery_no_text .pointer query text)
      | slotQuery id form query =>
        rw [compile] at compiled
        obtain ⟨q, slot, compiled⟩ := Runs.bind_eq_ok compiled
        cases compiled
        cases q with
        | none => cases came
        | some q => exact absurd came (queryOf_no_text form.language q text)
      | stop id message =>
        rw [compile] at compiled
        obtain ⟨m, slot, compiled⟩ := Runs.bind_eq_ok compiled
        cases compiled
        exact absurd came (stop_no_value m keyContext _)
      | reference id pid =>
        rw [compile] at compiled
        cases compiled
        split_ifs at came
        · cases came
        · cases came
          rfl
      | literal id value =>
        rw [compile] at compiled
        cases compiled
        cases value <;> cases came
        rfl
      | list id items =>
        rw [compile] at compiled
        obtain ⟨es, all, compiled⟩ := Runs.bind_eq_ok compiled
        cases compiled
        exact absurd came (list_no_text es keyContext text)

private theorem asks_of_textOf {slot : Option Block} {text : String} (own : textOf slot = some text) :
    asksSlot slot = false := by
  cases slot with
  | none => rfl
  | some b => cases b <;> first | rfl | cases own

/-- What has no query in it comes to the same everywhere. -/
theorem outcome_everywhere {slot : Option Block} (silent : asksSlot slot = false) (c c' : Context) :
    outcome c slot = outcome c' slot := by
  unfold outcome
  cases compiled : compileSlot slot with
  | error cause => rfl
  | ok e =>
    have reads : ∀ f ∈ e, f c = f c' := by
      refine compileSlot_reads slot compiled fun asked => ?_
      rw [silent] at asked
      cases asked
    cases e with
    | none => rfl
    | some f => exact reads f rfl

/-- A key is found to be static by what its evaluator comes to on null. -/
theorem evaluated_of_static {b : Block} {key : String} (static : staticText b = .ok (some key)) :
    ∃ e, compile b = .ok (some e) ∧ e keyContext = .ok (.str key) := by
  obtain ⟨found, compiled, static⟩ := Runs.bind_eq_ok static
  cases found with
  | none => cases static
  | some e =>
    refine ⟨e, compiled, ?_⟩
    cases came : e keyContext with
    | error cause => simp [came] at static
    | ok value =>
      cases value with
      | str text =>
        by_cases empty : text.isEmpty = true
        · simp [came, empty] at static
        · simpa [came, empty] using static
      | _ => simp [came] at static

/-- The alternative that settles a block on a text on null comes to that text on all documents. -/
private theorem outcome_of_chosen {b : Block} {e : Evaluator} (compiled : compile b = .ok (some e)) {key : String}
    (evaluated : e keyContext = .ok (.str key)) {tried : List (Option Block)} {chosen : Option Block}
    {rest : List (Option Block)} (split : alternatives b = tried ++ chosen :: rest)
    (before : ∀ x ∈ tried, settles (outcome keyContext x) = false)
    (final : settles (outcome keyContext chosen) = true ∨ rest = []) :
    textOf chosen = some key ∧ ∀ context, outcome context chosen = .ok (.str key) := by
  have onNull : outcome keyContext chosen = .ok (.str key) := by
    have none_final : tried.find? (fun x => settles (outcome keyContext x)) = none :=
      List.find?_eq_none.mpr fun x inside => by simp [before x inside]
    have tries : e keyContext = firstOf ((alternatives b).map (outcome keyContext)) := compile_tries keyContext b compiled
    rw [split, firstOf_map _ _ final, none_final, evaluated] at tries
    exact tries.symm
  have member : chosen ∈ alternatives b := by
    rw [split]
    exact List.mem_append_right _ List.mem_cons_self
  have own : textOf chosen = some key := textOf_of_outcome (alternatives_plain b chosen member) onNull
  refine ⟨own, fun context => ?_⟩
  rw [outcome_everywhere (asks_of_textOf own) context keyContext, onNull]

/-- A key that is found to be static is the text of an alternative, with none before it that is final on
null. The block comes to the key on a document exactly if no alternative before is final there on
anything else; so it comes to the key on all documents if there is no query in those before. -/
theorem key_kept_iff {b : Block} {key : String} (static : staticText b = .ok (some key)) :
    ∃ e tried chosen rest, compile b = .ok (some e) ∧ alternatives b = tried ++ chosen :: rest ∧
      textOf chosen = some key ∧ (∀ x ∈ tried, settles (outcome keyContext x) = false) ∧
      (∀ context, e context = .ok (.str key) ↔
        ∀ x, tried.find? (fun x => settles (outcome context x)) = some x → outcome context x = .ok (.str key)) ∧
      ((∀ x ∈ tried, asksSlot x = false) → ∀ context, e context = .ok (.str key)) := by
  obtain ⟨e, compiled, evaluated⟩ := evaluated_of_static static
  obtain ⟨tried, chosen, rest, split, before, final⟩ := exists_final (outcome keyContext) (alternatives_ne_nil b)
  obtain ⟨own, everywhere⟩ := outcome_of_chosen compiled evaluated split before final
  have kept (context : Context) : e context = .ok (.str key) ↔
      ∀ x, tried.find? (fun x => settles (outcome context x)) = some x → outcome context x = .ok (.str key) := by
    have final' : settles (outcome context chosen) = true ∨ rest = [] := by
      rw [everywhere context, ← everywhere keyContext]
      exact final
    have tries : e context = firstOf ((alternatives b).map (outcome context)) := compile_tries context b compiled
    rw [tries, split, firstOf_map _ _ final']
    cases tried.find? fun x => settles (outcome context x) with
    | none => simp [everywhere context]
    | some x => simp
  refine ⟨e, tried, chosen, rest, compiled, split, own, before, kept, ?_⟩
  intro silent context
  rw [kept context]
  intro x first
  have inside : x ∈ tried := List.mem_of_find?_eq_some first
  have final := List.find?_some first
  rw [outcome_everywhere (silent x inside) context keyContext, before x inside] at final
  cases final

/-- A key that falls back on a text where the document gives none. -/
def fallbackKey : Block :=
  .otherwise "o" (some (.fieldQuery "q" .pointer "/key")) (some (.literal "t" (.text "type")))

private theorem fallbackKey_compiled : compile fallbackKey =
    .ok (some (Evaluator.otherwise (Evaluator.pointer "/key") (Evaluator.const (.str "type")))) := by
  rw [fallbackKey, compile, compileSlot, compile, compileSlot, compile]
  rfl

private theorem fallbackKey_static : staticText fallbackKey = .ok (some "type") := by
  rw [staticText, fallbackKey_compiled]
  rfl

/-- Where the document gives no key, the block comes to the one that was found to be static. -/
theorem fallbackKey_kept :
    staticText fallbackKey = .ok (some "type") ∧
    ∃ e, compile fallbackKey = .ok (some e) ∧ e ⟨.obj [("name", .str "license")], 0, "d"⟩ = .ok (.str "type") := by
  obtain ⟨e, tried, chosen, rest, compiled, split, _, _, kept, _⟩ := key_kept_iff fallbackKey_static
  refine ⟨fallbackKey_static, e, compiled, (kept _).mpr ?_⟩
  intro x first
  have both : alternatives fallbackKey =
      [some (.fieldQuery "q" .pointer "/key"), some (.literal "t" (.text "type"))] := rfl
  have inside : x ∈ tried ++ chosen :: rest := List.mem_append_left _ (List.mem_of_find?_eq_some first)
  have final := List.find?_some first
  rw [← split, both] at inside
  rcases List.mem_pair.mp inside with rfl | rfl
  · cases final
  · rfl

/-- A key that was found to be static can depend on the document. -/
theorem static_key_varies :
    ¬ ∀ (b : Block) (key : String), staticText b = .ok (some key) → ∀ e, compile b = .ok (some e) →
      ∀ context, e context = .ok (.str key) := by
  intro claimed
  have kept := claimed _ _ fallbackKey_static _ fallbackKey_compiled ⟨.obj [("key", .str "license")], 0, "d"⟩
  have varied : Evaluator.otherwise (Evaluator.pointer "/key") (Evaluator.const (.str "type"))
      ⟨.obj [("key", .str "license")], 0, "d"⟩ = .ok (.str "license") := rfl
  rw [varied] at kept
  simp at kept

end RecordMapper.Proofs.StaticKeys
