import RecordMapper.Proofs.Orders

/-!
# How a run fails

A run fails with what its first failing pair of a design and a document fails with (`run_eq_error_iff`).
A design fails on a document because it has no id, because the id that it computes is of no use, or because
one of its evaluators fails (`failsBy_of_apply`).
-/

namespace RecordMapper.Proofs.Failures
open RecordMapper.Run RecordMapper.Proofs.Runs RecordMapper.Proofs.Orders

theorem bind_eq_error {ε α β : Type} {x : Except ε α} {f : α → Except ε β} {failure : ε}
    (bound : x >>= f = .error failure) : x = .error failure ∨ ∃ a, x = .ok a ∧ f a = .error failure := by
  cases x with
  | error e =>
    cases bound
    exact .inl rfl
  | ok a => exact .inr ⟨a, rfl, bound⟩

/-- Where only the first of two steps can fail, a failure is its own. -/
theorem error_of_bind_ok {ε α β : Type} {x : Except ε α} {f : α → β} {failure : ε}
    (failed : (x >>= fun a => .ok (f a)) = .error failure) : x = .error failure := by
  rcases bind_eq_error failed with own | ⟨_, _, more⟩
  · exact own
  · cases more

theorem mapM_eq_error {ε α β : Type} {f : α → Except ε β} {xs : List α} {failure : ε}
    (mapped : xs.mapM f = .error failure) : ∃ x ∈ xs, f x = .error failure := by
  induction xs with
  | nil => cases mapped
  | cons x rest ih =>
    rw [List.mapM_cons] at mapped
    rcases bind_eq_error mapped with failed | ⟨_, _, mapped⟩
    · exact ⟨x, List.mem_cons_self, failed⟩
    · obtain ⟨later, inside, failed⟩ := ih (error_of_bind_ok mapped)
      exact ⟨later, List.mem_cons_of_mem x inside, failed⟩

/-! ## Pairs -/

theorem mem_pairs_iff {designs : List Design} {documents : List Json} {pair : Design × Nat × Json} :
    pair ∈ pairs designs documents ↔ pair.1 ∈ designs ∧ documents[pair.2.1]? = some pair.2.2 := by
  obtain ⟨d, index, document⟩ := pair
  simp only [pairs, List.mem_flatMap, List.mem_map, Prod.exists, Prod.mk.injEq]
  constructor
  · rintro ⟨_, member, _, _, inside, rfl, rfl, rfl⟩
    exact ⟨member, List.mem_zipIdx_iff_getElem?.mp inside⟩
  · rintro ⟨member, placed⟩
    exact ⟨d, member, document, index, List.mem_zipIdx_iff_getElem?.mpr placed, rfl, rfl, rfl⟩

theorem step_eq_error_iff {tolerable : List ErrorKind} {s : State} {pair : Design × Nat × Json} {failure : RunError} :
    step tolerable s pair = .error failure ↔ applyPair tolerable pair = .error failure := by
  rw [step, applyPair]
  cases pair.1.apply tolerable pair.2.1 pair.2.2 <;> simp

/-- Pairs that are applied in order fail with the first of them that fails. -/
theorem foldlM_eq_error_iff {tolerable : List ErrorKind} {ps : List (Design × Nat × Json)} {s : State}
    {failure : RunError} : ps.foldlM (step tolerable) s = .error failure ↔
      ∃ before pair after as, ps = before ++ pair :: after ∧ Comes tolerable before as ∧
        applyPair tolerable pair = .error failure := by
  induction ps generalizing s with
  | nil =>
    refine iff_of_false (fun folded => nomatch folded) ?_
    rintro ⟨before, pair, after, _, split, _⟩
    simp at split
  | cons first rest ih =>
    rw [List.foldlM_cons]
    constructor
    · intro folded
      rcases bind_eq_error folded with failed | ⟨mid, stepped, folded⟩
      · exact ⟨[], first, rest, [], rfl, .nil, step_eq_error_iff.mp failed⟩
      · obtain ⟨before, pair, after, as, rfl, came, failed⟩ := ih.mp folded
        have one : [first].foldlM (step tolerable) s = .ok mid := by
          rw [List.foldlM_cons, stepped]
          rfl
        obtain ⟨own, single, _⟩ := foldlM_step_iff.mp one
        exact ⟨first :: before, pair, after, own ++ as, rfl, List.rel_append single came, failed⟩
    · rintro ⟨before, pair, after, as, split, came, failed⟩
      cases came with
      | nil =>
        cases split
        rw [step_eq_error_iff.mpr failed]
        rfl
      | @cons _ applied before as own came =>
        cases split
        have stepped : step tolerable s first = .ok (s.add applied) := by
          rw [applyPair] at own
          rw [step, own]
        rw [stepped]
        exact ih.mpr ⟨before, pair, after, as, rfl, came, failed⟩

/-- A run fails exactly if one of its pairs fails, with what the first such pair fails with. -/
theorem run_eq_error_iff {designs : List Design} {tolerable : List ErrorKind} {documents : List Json}
    {failure : RunError} : run designs tolerable documents = .error failure ↔
      ∃ before pair after as, pairs designs documents = before ++ pair :: after ∧ Comes tolerable before as ∧
        applyPair tolerable pair = .error failure := by
  rw [← foldlM_eq_error_iff (s := State.start), run_eq]
  cases (pairs designs documents).foldlM (step tolerable) State.start with
  | error e => simp [Except.map]
  | ok s => exact iff_of_false nofun nofun

theorem failing_pair {designs : List Design} {tolerable : List ErrorKind} {documents : List Json} {failure : RunError}
    (ran : run designs tolerable documents = .error failure) :
    ∃ d ∈ designs, ∃ index document, documents[index]? = some document ∧
      d.apply tolerable index document = .error failure := by
  obtain ⟨before, pair, after, _, split, _, failed⟩ := run_eq_error_iff.mp ran
  have inside : pair ∈ pairs designs documents := by
    rw [split]
    exact List.mem_append_right _ List.mem_cons_self
  obtain ⟨member, placed⟩ := mem_pairs_iff.mp inside
  exact ⟨pair.1, member, pair.2.1, pair.2.2, placed, failed⟩

/-! ## One pair -/

/-- What a design may fail with on a document, and why. -/
inductive FailsBy (d : Design) (tolerable : List ErrorKind) (c : Context) : RunError → Prop where
  | skip (e : Evaluator) (cause : EvalError) : d.skip = some e → e c = .error cause →
      FailsBy d tolerable c (.skip d.name c.index cause)
  | missingId : d.id = none → FailsBy d tolerable c (.missingId d.name)
  | id (e : Evaluator) (cause : EvalError) : d.id = some e → e c = .error cause →
      FailsBy d tolerable c (.id d.name c.index cause)
  | notText (e : Evaluator) (value : Json) : d.id = some e → e c = .ok value → value.identifier? = none →
      FailsBy d tolerable c (.badId d.name c.index (.notText value))
  | emptyId (e : Evaluator) (value : Json) : d.id = some e → e c = .ok value → value.identifier? = some "" →
      FailsBy d tolerable c (.badId d.name c.index .empty)
  | pid (e : Evaluator) (cause : EvalError) : d.pid = some e → e c = .error cause →
      FailsBy d tolerable c (.pid d.name c.index cause)
  | value (key : String) (e : Evaluator) (cause : EvalError) : (key, e) ∈ d.evaluators → e c = .error cause →
      cause.kind ∉ tolerable → FailsBy d tolerable c (.value d.name key c.index cause)

section

variable {d : Design} {tolerable : List ErrorKind} {c : Context} {failure : RunError}

theorem failsBy_of_skips (failed : d.skips c = .error failure) : FailsBy d tolerable c failure := by
  unfold Design.skips at failed
  cases condition : d.skip with
  | none => simp [condition] at failed
  | some e =>
    cases outcome : e c with
    | ok value => simp [condition, outcome] at failed
    | error cause =>
      simp only [condition, outcome] at failed
      cases failed
      exact .skip e cause condition outcome

theorem failsBy_of_idFor (failed : d.idFor c = .error failure) : FailsBy d tolerable c failure := by
  unfold Design.idFor at failed
  cases evaluator : d.id with
  | none =>
    simp only [evaluator] at failed
    cases failed
    exact .missingId evaluator
  | some e =>
    cases outcome : e c with
    | error cause =>
      simp only [evaluator, outcome] at failed
      cases failed
      exact .id e cause evaluator outcome
    | ok value =>
      cases text : value.identifier? with
      | none =>
        simp only [evaluator, outcome, text] at failed
        cases failed
        exact .notText e value evaluator outcome text
      | some id =>
        simp only [evaluator, outcome, text] at failed
        split_ifs at failed with empty
        cases failed
        rw [String.isEmpty_iff] at empty
        exact .emptyId e value evaluator outcome (by rw [text, empty])

theorem failsBy_of_pidFor (failed : d.pidFor c = .error failure) : FailsBy d tolerable c failure := by
  unfold Design.pidFor at failed
  cases evaluator : d.pid with
  | none => simp [evaluator] at failed
  | some e =>
    cases outcome : e c with
    | ok value => simp [evaluator, outcome] at failed
    | error cause =>
      simp only [evaluator, outcome] at failed
      cases failed
      exact .pid e cause evaluator outcome

theorem failsBy_of_values {entries : List (String × Evaluator)} (own : ∀ entry ∈ entries, entry ∈ d.evaluators)
    {acc : Record × Nat} (failed : entries.foldlM (d.addTo tolerable c) acc = .error failure) :
    FailsBy d tolerable c failure := by
  induction entries generalizing acc with
  | nil => cases failed
  | cons entry rest ih =>
    obtain ⟨first, later⟩ := List.forall_mem_cons.mp own
    rw [List.foldlM_cons] at failed
    rcases bind_eq_error failed with failed | ⟨mid, _, failed⟩
    · unfold Design.addTo at failed
      cases outcome : entry.2 c with
      | ok value => simp [outcome] at failed
      | error cause =>
        simp only [outcome] at failed
        split_ifs at failed with tolerated
        cases failed
        exact .value entry.1 entry.2 cause first outcome tolerated
    · exact ih later failed

/-- A design that fails on a document has no id, computes one that is of no use, or has an evaluator that
fails. -/
theorem failsBy_of_apply {index : Nat} {document : Json} (failed : d.apply tolerable index document = .error failure) :
    FailsBy d tolerable ⟨document, index, d.name⟩ failure := by
  rcases bind_eq_error failed with skipping | ⟨skipped, _, failed⟩
  · exact failsBy_of_skips skipping
  · cases skipped with
    | true => cases failed
    | false =>
      rcases bind_eq_error failed with naming | ⟨id, _, failed⟩
      · exact failsBy_of_idFor naming
      · rcases bind_eq_error failed with identifying | ⟨pid, _, failed⟩
        · exact failsBy_of_pidFor identifying
        · rcases bind_eq_error failed with adding | ⟨made, _, failed⟩
          · exact failsBy_of_values (fun _ inside => inside) adding
          · cases failed

end

end RecordMapper.Proofs.Failures
