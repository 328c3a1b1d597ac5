import RecordMapper.Proofs.StaticKeys
import RecordMapper.Proofs.UnreadSlots

/-!
# Chains of fallbacks

A fallback may have fallbacks on either side, to any depth. Whatever the shape of such a tree, its leaves are tried
from left to right, each on its own (`fallbacks_in_order`). To compile the tree is to compile its leaves in order,
and what is compiled tries what they come to in turn (`compile_leaves`), so the shape is gone once that is done.
-/

namespace RecordMapper.Proofs.Fallbacks
open RecordMapper.Block RecordMapper.Proofs.Runs RecordMapper.Proofs.StaticKeys

mutual

/-- The slots that the fallbacks of a block lead to and that hold no fallback themselves, from left to right. -/
def leaves : Block → List (Option Block)
  | .otherwise _ value other => leavesOfSlot value ++ leavesOfSlot other
  | b => [some b]

/-- The leaves of a slot; one that is not connected is a leaf. -/
def leavesOfSlot : Option Block → List (Option Block)
  | none => [none]
  | some b => leaves b

end

mutual

theorem leaves_ne_nil : ∀ b : Block, leaves b ≠ []
  | .otherwise _ value _ => List.append_ne_nil_of_left_ne_nil (leavesOfSlot_ne_nil value) _
  | .record _ _ _ _ | .attr _ _ _ | .profile _ _ _ | .fieldQuery _ _ _ | .slotQuery _ _ _ | .stop _ _ | .log _ _ _
  | .backlink _ _ | .reference _ _ | .literal _ _ | .list _ _ => List.cons_ne_nil _ _

theorem leavesOfSlot_ne_nil : ∀ slot : Option Block, leavesOfSlot slot ≠ []
  | none => List.cons_ne_nil _ _
  | some b => leaves_ne_nil b

end

/-! ## Trying in turn -/

/-- The evaluator that tries several, null for each that is missing. -/
def inTurn (es : List (Option Evaluator)) : Evaluator := fun context => firstOf (es.map fun e => orNull e context)

theorem inTurn_append {es es' : List (Option Evaluator)} (some : es ≠ []) (more : es' ≠ []) :
    inTurn (es ++ es') = Evaluator.otherwise (inTurn es) (inTurn es') := by
  funext context
  rw [inTurn, List.map_append, firstOf_append (by simpa using some) (by simpa using more)]
  rfl

/-- What comes first is the first that is final, or else the last. -/
theorem firstOf_of_find {α : Type} (f : α → Outcome) {xs : List α} (some : xs ≠ []) :
    ∃ x, (xs.find? fun x => settles (f x)).or xs.getLast? = .some x ∧ firstOf (xs.map f) = f x := by
  induction xs with
  | nil => exact absurd rfl some
  | cons x rest ih =>
    cases rest with
    | nil =>
      refine ⟨x, ?_, rfl⟩
      cases final : settles (f x) <;> simp [final]
    | cons y rest =>
      rw [List.map_cons, firstOf_cons (by simp), List.find?_cons, List.getLast?_cons_cons]
      cases final : settles (f x) with
      | true => exact ⟨x, rfl, if_pos rfl⟩
      | false => simpa using ih (by simp)

/-! ## Compiled leaves -/

private theorem map_eq_ok {ε α β γ : Type} {x : Except ε α} {y : Except ε β} {f : α → γ} {g : β → γ} {a : α}
    (same : x.map f = y.map g) (came : x = .ok a) : ∃ b, y = .ok b ∧ f a = g b := by
  subst came
  cases y with
  | error e => cases same
  | ok b => exact ⟨b, rfl, Except.ok.inj same⟩

private theorem map_eq_error {ε α β γ : Type} {x : Except ε α} {y : Except ε β} {f : α → γ} {g : β → γ} {e : ε}
    (same : x.map f = y.map g) (failed : x = .error e) : y = .error e := by
  subst failed
  cases y with
  | error e' => exact congrArg _ (Except.error.inj same).symm
  | ok b => cases same

private theorem ne_nil_of_mapM {ε α β : Type} {f : α → Except ε β} {xs : List α} {ys : List β}
    (mapped : xs.mapM f = .ok ys) (some : xs ≠ []) : ys ≠ [] := by
  rintro rfl
  exact some (List.forall₂_nil_right_iff.mp (mapM_eq_ok_iff.mp mapped))

mutual

/-- A block fails to compile where the first of its leaves to fail does, and else tries them in turn. -/
theorem compile_leaves : ∀ b : Block, (compile b).map orNull = ((leaves b).mapM compileSlot).map inTurn
  | .otherwise _ value other => by
    have first := compileSlot_leaves value
    have second := compileSlot_leaves other
    rw [compile, leaves, List.mapM_append]
    cases came : compileSlot value with
    | error cause =>
      rw [map_eq_error first came]
      rfl
    | ok e =>
      obtain ⟨es, mapped, tried⟩ := map_eq_ok first came
      rw [mapped]
      cases came' : compileSlot other with
      | error cause =>
        rw [map_eq_error second came']
        rfl
      | ok e' =>
        obtain ⟨es', mapped', tried'⟩ := map_eq_ok second came'
        have turns : inTurn (es ++ es') = Evaluator.otherwise (orNull e) (orNull e') := by
          rw [tried, tried', inTurn_append (ne_nil_of_mapM mapped (leavesOfSlot_ne_nil value))
            (ne_nil_of_mapM mapped' (leavesOfSlot_ne_nil other))]
        rw [mapped']
        exact congrArg Except.ok turns.symm
  | .record _ _ _ _ | .attr _ _ _ | .profile _ _ _ | .fieldQuery _ _ _ | .slotQuery _ _ _ | .stop _ _ | .log _ _ _
  | .backlink _ _ | .reference _ _ | .literal _ _ | .list _ _ => by
    rw [leaves, List.mapM_cons, List.mapM_nil, compileSlot]
    · cases compile _ <;> rfl
    all_goals simp

theorem compileSlot_leaves : ∀ slot : Option Block,
    (compileSlot slot).map orNull = ((leavesOfSlot slot).mapM compileSlot).map inTurn
  | none => rfl
  | some b => compile_leaves b

end

/-! ## Trees of fallbacks -/

/-- A fallback that compiles has an evaluator. -/
theorem compile_otherwise {id : String} {value other : Option Block} {e : Option Evaluator}
    (came : compile (.otherwise id value other) = .ok e) : e = some (orNull e) := by
  rw [compile] at came
  obtain ⟨v, _, came⟩ := bind_eq_ok came
  obtain ⟨o, _, came⟩ := bind_eq_ok came
  cases came
  rfl

/-- What leaves come to on a document is what they are compiled to. -/
theorem outcome_leaves {slots : List (Option Block)} {es : List (Option Evaluator)}
    (mapped : slots.mapM compileSlot = .ok es) (context : Context) :
    es.map (fun e => orNull e context) = slots.map (outcome context) := by
  have each := mapM_eq_ok_iff.mp mapped
  induction each with
  | nil => rfl
  | cons came _ ih =>
    rename_i later
    rw [List.map_cons, List.map_cons, ih (mapM_eq_ok_iff.mpr later), outcome, came]

theorem compile_congr {b b' : Block} (same : leaves b = leaves b') :
    (compile b).map orNull = (compile b').map orNull := by
  rw [compile_leaves, compile_leaves, same]

section

variable (id : String) (value other : Option Block)

/-- A tree of fallbacks compiles exactly if all its leaves do. On each document it comes to what the first of them
from left to right does that comes to a value that is not empty-ish or to a stop, and else to what the last
one does. Another tree with the same leaves in the same order is compiled to the same. -/
theorem fallbacks_in_order :
    ((∃ e, compile (.otherwise id value other) = .ok (some e)) ↔
      ∀ leaf ∈ leaves (.otherwise id value other), ∃ e, compileSlot leaf = .ok e) ∧
    (∀ e, compile (.otherwise id value other) = .ok (some e) → ∀ context, ∃ leaf,
      ((leaves (.otherwise id value other)).find? fun leaf => settles (outcome context leaf)).or
        (leaves (.otherwise id value other)).getLast? = some leaf ∧
      e context = outcome context leaf) ∧
    ∀ id' value' other', leaves (.otherwise id' value' other') = leaves (.otherwise id value other) →
      compile (.otherwise id' value' other') = compile (.otherwise id value other) := by
  have law := compile_leaves (.otherwise id value other)
  refine ⟨?_, ?_, ?_⟩
  · refine Iff.trans ⟨?_, ?_⟩ UnreadSlots.mapM_succeeds_iff
    · rintro ⟨e, came⟩
      obtain ⟨es, mapped, _⟩ := map_eq_ok law came
      exact ⟨es, mapped⟩
    · rintro ⟨es, mapped⟩
      obtain ⟨e, came, _⟩ := map_eq_ok law.symm mapped
      exact ⟨orNull e, by rw [came, ← compile_otherwise came]⟩
  · intro e came context
    obtain ⟨es, mapped, tried⟩ := map_eq_ok law came
    obtain ⟨leaf, chosen, first⟩ := firstOf_of_find (outcome context) (leaves_ne_nil (.otherwise id value other))
    refine ⟨leaf, chosen, ?_⟩
    calc e context
      _ = inTurn es context := congrFun tried context
      _ = firstOf ((leaves (.otherwise id value other)).map (outcome context)) := by
        rw [inTurn, outcome_leaves mapped]
      _ = outcome context leaf := first
  · intro id' value' other' same
    have alike := compile_congr same
    cases came : compile (.otherwise id value other) with
    | error cause => exact map_eq_error alike.symm came
    | ok e =>
      obtain ⟨e', came', evaluators⟩ := map_eq_ok alike.symm came
      rw [came', compile_otherwise came', ← evaluators, ← compile_otherwise came]

end

/-- A name, or else a title, with a slot that is not connected and an empty-ish text on the way. -/
def named : Block :=
  .otherwise "a" (some (.otherwise "b" (some (.fieldQuery "name" .pointer "/name")) none))
    (some (.otherwise "c" (some (.literal "none" (.text "()"))) (some (.fieldQuery "title" .pointer "/title"))))

/-- The same leaves, each as the fallback of the one before. -/
def namedInARow : Block :=
  .otherwise "d" (some (.fieldQuery "name" .pointer "/name")) (some (.otherwise "e" none
    (some (.otherwise "f" (some (.literal "none" (.text "()"))) (some (.fieldQuery "title" .pointer "/title"))))))

theorem named_in_order :
    (∀ leaf ∈ leaves named, ∃ e, compileSlot leaf = .ok e) ∧ leaves namedInARow = leaves named ∧
    ∃ e, compile named = .ok (some e) ∧ compile namedInARow = .ok (some e) ∧
      e ⟨.obj [("name", .str "A"), ("title", .str "T")], 0, "d"⟩ = .ok (.str "A") ∧
      e ⟨.obj [("name", .null), ("title", .str "T")], 0, "d"⟩ = .ok (.str "T") ∧
      e ⟨.obj [], 0, "d"⟩ = .error (.query (.notFound "/title" "title")) := by
  have compiling : ∀ leaf ∈ leaves named, ∃ e, compileSlot leaf = .ok e := by
    simp [named, leaves, leavesOfSlot, compileSlot, compile]
  obtain ⟨compiles, comesTo, regrouped⟩ := fallbacks_in_order "a"
    (some (.otherwise "b" (some (.fieldQuery "name" .pointer "/name")) none))
    (some (.otherwise "c" (some (.literal "none" (.text "()"))) (some (.fieldQuery "title" .pointer "/title"))))
  obtain ⟨e, came⟩ := compiles.mpr compiling
  have row : compile namedInARow = compile named := regrouped _ _ _ rfl
  refine ⟨compiling, rfl, e, came, row.trans came, ?_, ?_, ?_⟩
  · obtain ⟨leaf, chosen, first⟩ := comesTo e came ⟨.obj [("name", .str "A"), ("title", .str "T")], 0, "d"⟩
    cases chosen
    exact first
  · obtain ⟨leaf, chosen, first⟩ := comesTo e came ⟨.obj [("name", .null), ("title", .str "T")], 0, "d"⟩
    cases chosen
    exact first
  · obtain ⟨leaf, chosen, first⟩ := comesTo e came ⟨.obj [], 0, "d"⟩
    cases chosen
    exact first

end RecordMapper.Proofs.Fallbacks
