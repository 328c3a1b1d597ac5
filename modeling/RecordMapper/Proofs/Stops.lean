import RecordMapper.Design.Lowering
import RecordMapper.Proofs.Runs

/-!
# Explicit stops

The message of a stop is evaluated before the stop is raised. A stop is raised exactly if that
evaluation does not fail, or fails with a stop itself; any other failure of the message comes
instead, and what is done about it is decided by its own kind (`stop_raised_iff`). So a stop whose
message leads nowhere is dropped like any other query that leads nowhere (`stop_not_raised`).
-/

namespace RecordMapper.Proofs.Stops
open RecordMapper.Block

/-- The message fails, and not with a stop. -/
def Preempted (message : Option Evaluator) (context : Context) (cause : EvalError) : Prop :=
  ∃ m, message = some m ∧ m context = .error cause ∧ cause.kind ≠ .stopped

/-! ## One evaluation -/

private theorem kind_stopped_iff (cause : EvalError) : cause.kind = .stopped ↔ ∃ text, cause = .stopped text := by
  cases cause with
  | query q => cases q <;> simp [EvalError.kind]
  | stopped text => simp [EvalError.kind]
  | failed reason => simp [EvalError.kind]

private theorem stop_is_stopped (text : Option String) : ∃ t, Outcome.stop text = .stopped t := by
  cases text with
  | none => exact ⟨_, rfl⟩
  | some m =>
    by_cases blank : Text.isBlankText m = true
    · exact ⟨_, if_pos blank⟩
    · exact ⟨_, if_neg blank⟩

theorem stop_of_preempted {message : Option Evaluator} {context : Context} {cause : EvalError}
    (preempted : Preempted message context cause) : Evaluator.stop message context = .error cause := by
  obtain ⟨m, rfl, failed, _⟩ := preempted
  simp [Evaluator.stop, failed]

theorem stop_of_not_preempted {message : Option Evaluator} {context : Context}
    (clear : ¬ ∃ cause, Preempted message context cause) :
    ∃ text, Evaluator.stop message context = .error (.stopped text) := by
  cases message with
  | none =>
    obtain ⟨text, stopped⟩ := stop_is_stopped (some "")
    exact ⟨text, by rw [← stopped]; rfl⟩
  | some m =>
    cases outcome : m context with
    | ok value =>
      obtain ⟨text, stopped⟩ := stop_is_stopped (some (Evaluator.messageOf value))
      exact ⟨text, by rw [← stopped]; simp [Evaluator.stop, outcome]⟩
    | error cause =>
      have stops : cause.kind = .stopped := by
        by_contra other
        exact clear ⟨cause, m, rfl, outcome, other⟩
      obtain ⟨text, rfl⟩ := (kind_stopped_iff cause).mp stops
      exact ⟨text, by simp [Evaluator.stop, outcome]⟩

/-! ## What is done about it -/

private theorem addTo_of_failed_iff {d : Design} {tolerable : List ErrorKind} {context : Context}
    {acc after : Record × Nat} {key : String} {e : Evaluator} {cause : EvalError} (failed : e context = .error cause) :
    d.addTo tolerable context acc (key, e) = .ok after ↔ after = (acc.1, acc.2 + 1) ∧ cause.kind ∈ tolerable := by
  unfold Design.addTo
  simp only [failed]
  split_ifs with tolerated
  · simp [tolerated, eq_comm]
  · simp [tolerated]

private theorem otherwise_of_stopped {first other : Evaluator} {context : Context} {text : String}
    (stopped : first context = .error (.stopped text)) :
    Evaluator.otherwise first other context = first context := by
  simp [Evaluator.otherwise, Outcome.otherwise, stopped]

private theorem otherwise_of_failed {first other : Evaluator} {context : Context} {cause : EvalError}
    (failed : first context = .error cause) (other_kind : cause.kind ≠ .stopped) :
    Evaluator.otherwise first other context = other context := by
  cases cause with
  | stopped text => exact absurd rfl other_kind
  | query q => simp [Evaluator.otherwise, Outcome.otherwise, failed]
  | failed reason => simp [Evaluator.otherwise, Outcome.otherwise, failed]

/-- A stop block with any message that compiles. A stop is raised on a document exactly if the
message does not fail before, and a failure of the message comes in its place. Where stops are not
tolerated, a design that has the block among its values makes a record only if the message failed in
a way that is tolerated, and a fallback behind the block is evaluated exactly if the message
failed. -/
theorem stop_raised_iff (id : String) (message : Option Block) (m : Option Evaluator)
    (compiled : compileSlot message = .ok m) :
    ∃ e, source (.stop id message) = .ok (some (.value e)) ∧ compile (.stop id message) = .ok (some e) ∧
      (∀ context,
        ((∃ text, e context = .error (.stopped text)) ↔ ¬ ∃ cause, Preempted m context cause) ∧
        ∀ cause, Preempted m context cause → e context = .error cause) ∧
      (∀ (tolerable : List ErrorKind), .stopped ∉ tolerable →
        ∀ (d : Design) (index : Nat) (document : Json) (key : String),
          (∀ acc after, d.addTo tolerable ⟨document, index, d.name⟩ acc (key, e) = .ok after ↔
            after = (acc.1, acc.2 + 1) ∧ ∃ cause, Preempted m ⟨document, index, d.name⟩ cause ∧ cause.kind ∈ tolerable) ∧
          ((key, e) ∈ d.evaluators →
            (∃ record rules dropped, d.apply tolerable index document = .ok (.recorded record rules dropped)) →
            ∃ cause, Preempted m ⟨document, index, d.name⟩ cause ∧ cause.kind ∈ tolerable)) ∧
      ∀ (outer : String) (fallback : Option Block) (f : Option Evaluator), compileSlot fallback = .ok f →
        ∃ e', compile (.otherwise outer (some (.stop id message)) fallback) = .ok (some e') ∧
          ∀ context,
            ((∃ cause, Preempted m context cause) → e' context = orNull f context) ∧
            ((¬ ∃ cause, Preempted m context cause) → e' context = e context) := by
  have stops : compile (.stop id message) = .ok (some (Evaluator.stop m)) := by
    rw [compile, compiled]
    rfl
  have dropped (tolerable : List ErrorKind) (fatal : .stopped ∉ tolerable) (d : Design) (context : Context)
      (key : String) (acc after : Record × Nat) :
      d.addTo tolerable context acc (key, Evaluator.stop m) = .ok after ↔
        after = (acc.1, acc.2 + 1) ∧ ∃ cause, Preempted m context cause ∧ cause.kind ∈ tolerable := by
    by_cases preempted : ∃ cause, Preempted m context cause
    · obtain ⟨cause, preempted⟩ := preempted
      have failed := stop_of_preempted preempted
      rw [addTo_of_failed_iff failed]
      refine and_congr_right fun _ => ⟨fun tolerated => ⟨cause, preempted, tolerated⟩, ?_⟩
      rintro ⟨cause', preempted', tolerated⟩
      have failed' := stop_of_preempted preempted'
      rw [failed] at failed'
      cases failed'
      exact tolerated
    · obtain ⟨text, stopped⟩ := stop_of_not_preempted preempted
      rw [addTo_of_failed_iff stopped]
      refine and_congr_right fun _ => ⟨fun tolerated => absurd tolerated fatal, ?_⟩
      rintro ⟨cause, preempted', _⟩
      exact absurd ⟨cause, preempted'⟩ preempted
  refine ⟨Evaluator.stop m, ?_, stops, ?_, ?_, ?_⟩
  · rw [source, stops]
    · rfl
    · simp
  · intro context
    refine ⟨⟨?_, stop_of_not_preempted⟩, fun cause => stop_of_preempted⟩
    rintro ⟨text, stopped⟩ ⟨cause, preempted⟩
    rw [stop_of_preempted preempted] at stopped
    cases stopped
    exact preempted.choose_spec.2.2 rfl
  · intro tolerable fatal d index document key
    refine ⟨dropped tolerable fatal d _ key, ?_⟩
    rintro member ⟨record, rules, count, applied⟩
    obtain ⟨before, after, added⟩ := Runs.addTo_of_apply applied _ member
    exact ((dropped tolerable fatal d _ key before after).mp added).2
  · intro outer fallback f compiledFallback
    refine ⟨Evaluator.otherwise (Evaluator.stop m) (orNull f), ?_, fun context => ⟨?_, ?_⟩⟩
    · rw [compile, compileSlot, stops, compiledFallback]
      rfl
    · rintro ⟨cause, preempted⟩
      exact otherwise_of_failed (stop_of_preempted preempted) preempted.choose_spec.2.2
    · intro clear
      obtain ⟨text, stopped⟩ := stop_of_not_preempted clear
      exact otherwise_of_stopped stopped

/-- A stop whose message is a pointer. -/
def stopWithNote : Block := .stop "s" (some (.fieldQuery "q" .pointer "/note"))

private theorem note_compiled :
    compileSlot (some (.fieldQuery "q" .pointer "/note")) = .ok (some (Evaluator.pointer "/note")) := by
  rw [compileSlot, compile]
  rfl

private theorem note_missing :
    Evaluator.pointer "/note" ⟨.obj [], 0, "d"⟩ = .error (.query (.notFound "/note" "note")) := rfl

/-- On a document with a note the stop is raised; on one without, the missing note is what fails. -/
theorem stop_raised_with_note :
    compileSlot (some (.fieldQuery "q" .pointer "/note")) = .ok (some (Evaluator.pointer "/note")) ∧
    ∃ e, compile stopWithNote = .ok (some e) ∧
      (∃ text, e ⟨.obj [("note", .str "no license")], 0, "d"⟩ = .error (.stopped text)) ∧
      e ⟨.obj [], 0, "d"⟩ = .error (.query (.notFound "/note" "note")) := by
  obtain ⟨e, _, stops, raised, _⟩ := stop_raised_iff "s" _ _ note_compiled
  refine ⟨note_compiled, e, stops, (raised _).1.mpr ?_, (raised _).2 _ ⟨_, rfl, note_missing, by decide⟩⟩
  rintro ⟨cause, m, same, failed, _⟩
  cases same
  have found : Evaluator.pointer "/note" ⟨.obj [("note", .str "no license")], 0, "d"⟩ = .ok (.str "no license") := rfl
  rw [found] at failed
  cases failed

/-- A stop is not always raised: a message that leads nowhere fails in its place. -/
theorem stop_not_raised :
    ¬ ∀ (id : String) (message : Option Block) (m : Option Evaluator), compileSlot message = .ok m →
      ∀ e, compile (.stop id message) = .ok (some e) → ∀ context, ∃ text, e context = .error (.stopped text) := by
  intro all
  have stops : compile stopWithNote = .ok (some (Evaluator.stop (some (Evaluator.pointer "/note")))) := by
    rw [stopWithNote, compile, note_compiled]
    rfl
  obtain ⟨text, stopped⟩ := all "s" _ _ note_compiled _ stops ⟨.obj [], 0, "d"⟩
  simp [Evaluator.stop, note_missing] at stopped

end RecordMapper.Proofs.Stops
