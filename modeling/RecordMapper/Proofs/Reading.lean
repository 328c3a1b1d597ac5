import RecordMapper.Proofs.Origins

/-!
# What evaluators read

An evaluator may read the document, its number in the batch and the name of the design. Those that
blocks are made into read nothing but the document (`compile_reads`), and not even that if no query is
among the blocks. So a design of a graph makes of a document what it makes of it, at whatever place of
a batch it stands, and only a failure names that place (`apply_renumber`).
-/

namespace RecordMapper.Proofs.Reading
open RecordMapper.Block

mutual

/-- Whether there is a query in a value. -/
def asks : Block → Bool
  | .fieldQuery _ _ _ => true
  | .slotQuery _ _ _ => true
  | .stop _ message => asksSlot message
  | .log _ _ value => asksSlot value
  | .otherwise _ value other => asksSlot value || asksSlot other
  | .list _ items => asksAny items
  | _ => false

/-- Whether there is a query in a slot. -/
def asksSlot : Option Block → Bool
  | none => false
  | some b => asks b

/-- Whether there is a query in one of several values. -/
def asksAny : List Block → Bool
  | [] => false
  | b :: rest => asks b || asksAny rest

end

/-! ## Evaluators -/

section

variable {c c' : Context}

private theorem runQuery_reads (same : c.document = c'.document) (language : QueryLanguage) (query : String) :
    runQuery language query c = runQuery language query c' := by
  cases language with
  | pointer => rw [runQuery, Evaluator.pointer, Evaluator.pointer, same]
  | path => rw [runQuery, Evaluator.path, Evaluator.path, same]

private theorem orNull_reads {e : Option Evaluator} (reads : ∀ f ∈ e, f c = f c') : orNull e c = orNull e c' := by
  cases e with
  | none => rfl
  | some f => exact reads f rfl

private theorem stop_reads {message : Option Evaluator} (reads : ∀ f ∈ message, f c = f c') :
    Evaluator.stop message c = Evaluator.stop message c' := by
  cases message with
  | none => rfl
  | some f => rw [Evaluator.stop, Evaluator.stop, reads f rfl]

private theorem list_reads {items : List Evaluator} (reads : ∀ f ∈ items, f c = f c') :
    Evaluator.list items c = Evaluator.list items c' := by
  have each : (items.mapM fun (item : Evaluator) => item c) = items.mapM fun (item : Evaluator) => item c' := by
    induction items with
    | nil => rfl
    | cons f rest ih =>
      obtain ⟨first, later⟩ := List.forall_mem_cons.mp reads
      rw [List.mapM_cons, List.mapM_cons, first, ih later]
  rw [Evaluator.list, Evaluator.list, each]

end

mutual

/-- The evaluator of a block comes to one outcome in two contexts with one document, and in any two if
there is no query in the block. -/
theorem compile_reads {c c' : Context} : ∀ (b : Block) {e : Option Evaluator}, compile b = .ok e →
    (asks b = true → c.document = c'.document) → ∀ f ∈ e, f c = f c'
  | .fieldQuery _ _ query, _, came, same => by
    rw [compile] at came
    cases came
    intro f inside
    split_ifs at inside
    · cases inside
    · cases inside
      exact runQuery_reads (same rfl) .pointer query
  | .slotQuery _ form query, _, came, same => by
    rw [compile] at came
    obtain ⟨q, slot, came⟩ := Runs.bind_eq_ok came
    cases came
    have document := same rfl
    have reads := compileSlot_reads query slot fun _ => document
    cases q with
    | none => exact fun f inside => nomatch inside
    | some g =>
      rintro _ ⟨⟩
      rw [Evaluator.queryOf, Evaluator.queryOf, reads g rfl]
      split
      · exact runQuery_reads document _ _
      · rfl
      · rfl
  | .stop _ message, _, came, same => by
    rw [compile] at came
    obtain ⟨m, slot, came⟩ := Runs.bind_eq_ok came
    cases came
    rintro _ ⟨⟩
    exact stop_reads (compileSlot_reads message slot same)
  | .log _ _ value, _, came, same => by
    rw [compile] at came
    obtain ⟨v, slot, came⟩ := Runs.bind_eq_ok came
    cases came
    rintro _ ⟨⟩
    exact orNull_reads (compileSlot_reads value slot same)
  | .otherwise _ value other, _, came, same => by
    rw [compile] at came
    obtain ⟨v, slot, came⟩ := Runs.bind_eq_ok came
    obtain ⟨o, otherSlot, came⟩ := Runs.bind_eq_ok came
    cases came
    rintro _ ⟨⟩
    have first := orNull_reads (compileSlot_reads value slot fun asked => same (by rw [asks, asked, Bool.true_or]))
    have second := orNull_reads (compileSlot_reads other otherSlot fun asked => same (by rw [asks, asked, Bool.or_true]))
    rw [Evaluator.otherwise, Evaluator.otherwise, first, second]
  | .reference _ pid, _, came, _ => by
    rw [compile] at came
    cases came
    intro f inside
    split_ifs at inside
    · cases inside
    · cases inside
      rfl
  | .literal _ _, _, came, _ => by
    rw [compile] at came
    cases came
    rintro _ ⟨⟩
    rfl
  | .list _ items, _, came, same => by
    rw [compile] at came
    obtain ⟨es, all, came⟩ := Runs.bind_eq_ok came
    cases came
    rintro _ ⟨⟩
    exact list_reads (compileAll_reads items all same)
  | .record _ _ _ _, _, came, _ | .attr _ _ _, _, came, _ | .profile _ _ _, _, came, _ | .backlink _ _, _, came, _ => by
    rw [compile] at came
    cases came

theorem compileSlot_reads {c c' : Context} : ∀ (slot : Option Block) {e : Option Evaluator}, compileSlot slot = .ok e →
    (asksSlot slot = true → c.document = c'.document) → ∀ f ∈ e, f c = f c'
  | none, _, came, _ => by
    rw [compileSlot] at came
    cases came
    exact fun f inside => nomatch inside
  | some b, _, came, same => by
    rw [compileSlot] at came
    exact compile_reads b came same

theorem compileAll_reads {c c' : Context} : ∀ (bs : List Block) {es : List Evaluator}, compileAll bs = .ok es →
    (asksAny bs = true → c.document = c'.document) → ∀ f ∈ es, f c = f c'
  | [], _, came, _ => by
    rw [compileAll] at came
    cases came
    exact fun f inside => nomatch inside
  | b :: rest, _, came, same => by
    rw [compileAll] at came
    obtain ⟨e, first, came⟩ := Runs.bind_eq_ok came
    obtain ⟨es, later, came⟩ := Runs.bind_eq_ok came
    cases came
    refine List.forall_mem_append.mpr ⟨?_, ?_⟩
    · intro f inside
      refine compile_reads b first (fun asked => same (by rw [asksAny, asked, Bool.true_or])) f ?_
      exact Option.mem_toList.mp inside
    · exact compileAll_reads rest later fun asked => same (by rw [asksAny, asked, Bool.or_true])

end

/-! ## Designs -/

/-- The evaluators of a design. -/
def evaluatorsOf (d : Design) : List Evaluator :=
  d.id.toList ++ d.pid.toList ++ d.skip.toList ++ d.evaluators.map (·.2)

/-- The evaluators of a design read nothing but the document. -/
def ReadsDocument (d : Design) : Prop :=
  ∀ c c' : Context, c.document = c'.document → ∀ e ∈ evaluatorsOf d, e c = e c'

private theorem ofRecord_reads {id : String} {localId : Option Block} {skip : Option (Option Block)}
    {body : List Block} {d : Design} (lowered : Design.ofRecord id localId skip body = .ok d) : ReadsDocument d := by
  have parts := Origins.madeFrom_of_record lowered
  intro c c' same e inside
  simp only [evaluatorsOf, parts.pid, Option.toList_none, List.append_nil, List.mem_append, Option.mem_toList] at inside
  rcases inside with (fromId | fromSkip) | fromValue
  · exact compileSlot_reads localId parts.ownId (fun _ => same) e fromId
  · exact compileSlot_reads skip.join parts.ownSkip (fun _ => same) e fromSkip
  · obtain ⟨entry, value, rfl⟩ := List.mem_map.mp fromValue
    rcases parts.values entry value with ⟨text, constant⟩ | ⟨b, _, compiled⟩
    · rw [constant]
      rfl
    · exact compile_reads b compiled (fun _ => same) entry.2 rfl

/-- The designs of a graph read nothing but the document. -/
theorem lower_reads {g : Graph} {designs : List Design} (lowered : g.lower = .ok designs) :
    ∀ d ∈ designs, ReadsDocument d := by
  intro d member
  obtain ⟨_, _, _, _, _, _, _, own⟩ := Origins.record_of_design lowered member
  exact ofRecord_reads own

/-! ## Places in a batch -/

/-- A run error with the number of its document changed. -/
def renumber (f : Nat → Nat) : RunError → RunError
  | .missingId design => .missingId design
  | .id design document cause => .id design (f document) cause
  | .badId design document reason => .badId design (f document) reason
  | .pid design document cause => .pid design (f document) cause
  | .skip design document cause => .skip design (f document) cause
  | .value design key document cause => .value design key (f document) cause

theorem mapError_bind {ε ε' α β : Type} (g : ε → ε') (x : Except ε α) (next : α → Except ε β) :
    (x >>= next).mapError g = x.mapError g >>= fun a => (next a).mapError g := by
  cases x <;> rfl

section

variable {d : Design} {c c' : Context} {f : Nat → Nat} (place : c'.index = f c.index)
include place

private theorem skips_renumber (reads : ∀ e ∈ d.skip, e c = e c') :
    d.skips c' = (d.skips c).mapError (renumber f) := by
  unfold Design.skips
  cases condition : d.skip with
  | none => rfl
  | some e =>
    simp only [← reads e condition, place]
    cases e c <;> rfl

private theorem idFor_renumber (reads : ∀ e ∈ d.id, e c = e c') :
    d.idFor c' = (d.idFor c).mapError (renumber f) := by
  unfold Design.idFor
  cases evaluator : d.id with
  | none => rfl
  | some e =>
    simp only [← reads e evaluator, place]
    cases e c with
    | error cause => rfl
    | ok value =>
      dsimp only
      cases value.identifier? with
      | none => rfl
      | some id =>
        dsimp only
        split_ifs <;> rfl

private theorem pidFor_renumber (reads : ∀ e ∈ d.pid, e c = e c') :
    d.pidFor c' = (d.pidFor c).mapError (renumber f) := by
  unfold Design.pidFor
  cases evaluator : d.pid with
  | none => rfl
  | some e =>
    simp only [← reads e evaluator, place]
    cases e c <;> rfl

private theorem addTo_renumber (tolerable : List ErrorKind) (acc : Record × Nat) {entry : String × Evaluator}
    (reads : entry.2 c = entry.2 c') :
    d.addTo tolerable c' acc entry = (d.addTo tolerable c acc entry).mapError (renumber f) := by
  unfold Design.addTo
  simp only [← reads, place]
  cases entry.2 c with
  | ok value => rfl
  | error cause =>
    dsimp only
    split_ifs <;> rfl

private theorem foldlM_renumber (tolerable : List ErrorKind) {entries : List (String × Evaluator)} (acc : Record × Nat)
    (reads : ∀ entry ∈ entries, entry.2 c = entry.2 c') :
    entries.foldlM (d.addTo tolerable c') acc =
      (entries.foldlM (d.addTo tolerable c) acc).mapError (renumber f) := by
  induction entries generalizing acc with
  | nil => rfl
  | cons entry rest ih =>
    obtain ⟨first, later⟩ := List.forall_mem_cons.mp reads
    rw [List.foldlM_cons, List.foldlM_cons, mapError_bind, addTo_renumber place tolerable acc first]
    exact congrArg _ (funext fun mid => ih mid later)

end

/-- At another place of its batch, a document gives a design that reads nothing but the document the same
failure but for that place, or the same result. -/
theorem apply_renumber {d : Design} (reads : ReadsDocument d) (tolerable : List ErrorKind) (f : Nat → Nat) (i : Nat)
    (document : Json) :
    d.apply tolerable (f i) document = (d.apply tolerable i document).mapError (renumber f) := by
  have same : ∀ e ∈ evaluatorsOf d, e ⟨document, i, d.name⟩ = e ⟨document, f i, d.name⟩ := reads _ _ rfl
  simp only [evaluatorsOf, List.forall_mem_append, Option.mem_toList, List.forall_mem_map] at same
  obtain ⟨⟨⟨id, pid⟩, skip⟩, values⟩ := same
  have place : (⟨document, f i, d.name⟩ : Context).index = f (⟨document, i, d.name⟩ : Context).index := rfl
  rw [Design.apply, Design.apply, mapError_bind, skips_renumber place skip]
  refine congrArg _ (funext fun skipped => ?_)
  cases skipped with
  | true => rfl
  | false =>
    simp only [Bool.false_eq_true, if_false, mapError_bind, idFor_renumber place id, pidFor_renumber place pid,
      foldlM_renumber place tolerable _ values]
    rfl

/-- What a design that reads nothing but the document makes of a document does not depend on the place
of the document in its batch. -/
theorem apply_moved_iff {d : Design} (reads : ReadsDocument d) (tolerable : List ErrorKind) (i j : Nat)
    (document : Json) (applied : Applied) :
    d.apply tolerable i document = .ok applied ↔ d.apply tolerable j document = .ok applied := by
  rw [apply_renumber reads tolerable (fun _ => j) i document]
  cases d.apply tolerable i document with
  | ok made => exact Iff.rfl
  | error failure => exact iff_of_false nofun nofun

end RecordMapper.Proofs.Reading
