import RecordMapper.Program.Basic
import RecordMapper.Proofs.TwoLanguages

/-!
# Backlinks that are handed over as they are

Whether a call hands over its value as it is or to be evaluated later is decided on the first characters of the
code of the value. Main statement: `unwrapped_iff_backlink`, by which the decision is right: a value is handed
over as it is exactly if a backlink stands in its slot. No code of another value begins like a backlink, whatever
texts it holds (`isBacklink_fragment`), and parentheses are never put around a backlink (`slotCode_backlink`).
-/

namespace RecordMapper.Proofs.UnwrappedBacklinks
open RecordMapper.Program RecordMapper.Block RecordMapper.Proofs.SameDrops RecordMapper.Proofs.TwoLanguages
open RecordMapper.Proofs.CommentLines (placed)

/-! ## Calls -/

/-- A call that hands over its value as it is. -/
def Unwrapped (t : Target) (key value : String) : Prop :=
  (Step.add key value).render t = ".addAttribute(" ++ key ++ ", " ++ value ++ ")\n"

/-- A call that hands over its value to be evaluated later. -/
def Delayed (t : Target) (key value : String) : Prop :=
  (Step.add key value).render t = ".addAttribute(" ++ key ++ ", " ++ t.thunk value ++ ")\n"

theorem length_lt_thunk (t : Target) (code : String) : code.length < (t.thunk code).length := by
  have mark : 0 < "lambda: ".length ∧ 0 < "() => ".length := by decide
  cases t
  · rw [Target.thunk, String.length_append]
    omega
  · rw [Target.thunk, String.length_append]
    omega

/-- A call does not hand over its value in both ways. -/
theorem thunk_apart (t : Target) (key value : String) :
    ".addAttribute(" ++ key ++ ", " ++ value ++ ")\n" ≠
      ".addAttribute(" ++ key ++ ", " ++ t.thunk value ++ ")\n" := by
  intro same
  have longer := length_lt_thunk t value
  have lengths := congrArg String.length same
  simp only [String.length_append] at lengths
  omega

theorem unwrapped_iff (t : Target) (key value : String) : Unwrapped t key value ↔ t.isBacklink value = true := by
  rw [Unwrapped, Step.render, Target.addAttribute_eq]
  cases back : t.isBacklink value with
  | true => simp
  | false => simpa using (thunk_apart t key value).symm

theorem delayed_iff (t : Target) (key value : String) : Delayed t key value ↔ ¬ t.isBacklink value = true := by
  rw [Delayed, Step.render, Target.addAttribute_eq]
  cases back : t.isBacklink value with
  | true => simpa using thunk_apart t key value
  | false => simp

/-! ## Values -/

/-- A backlink stands in a slot. -/
def IsLink : Option Block → Prop
  | some (.backlink _ _) => True
  | _ => False

section

variable {s : Style}

theorem isBacklink_literal (t : Target) (value : Literal) : t.isBacklink (literalCode t value) = false := by
  cases value with
  | text text => exact (opensOther_quote t text).isBacklink_eq t
  | number n => exact (opensOther_number n).isBacklink_eq t
  | truth b => exact (opensOther_truth t b).isBacklink_eq t
  | null => exact isBacklink_null t

/-- The code of a value begins like a backlink exactly if it is that of a backlink with a key. -/
theorem isBacklink_fragment {b : Block} {code : String} {order : Order}
    (came : fragment s b = .ok (.expression code order)) :
    s.target.isBacklink code = true ↔ IsLink (some b) ∧ code ≠ "" := by
  by_cases link : IsLink (some b)
  · cases b with
    | backlink id key =>
      rw [fragment] at came
      obtain ⟨keyCode, _, came⟩ := Runs.bind_eq_ok came
      cases came
      split
      · simp [isBacklink_nothing]
      · refine iff_of_true (isBacklink_backlinkCall _ _) ⟨link, ?_⟩
        exact EmptyCode.ne_empty_of_shows (EmptyCode.shows_backlinkCall _ _)
    | _ => cases link
  · suffices plain : s.target.isBacklink code = false by simp [plain, link]
    cases b with
    | backlink id key => exact absurd trivial link
    | record _ _ _ _ | attr _ _ _ | profile _ _ _ => cases (EmptyCode.fits_fragment s _ came).1
    | fieldQuery id form query =>
      cases came
      exact (opensOther_queryCall s.target .pointer _).isBacklink_eq _
    | slotQuery id form query =>
      rw [fragment] at came
      obtain ⟨slot, _, came⟩ := Runs.bind_eq_ok came
      cases came
      split
      · exact isBacklink_nothing _
      · exact (opensOther_queryCall s.target _ _).isBacklink_eq _
    | stop id message =>
      rw [fragment] at came
      obtain ⟨slot, _, came⟩ := Runs.bind_eq_ok came
      cases came
      exact (opensOther_stopCall _ _).isBacklink_eq _
    | log id description value =>
      rw [fragment] at came
      obtain ⟨slot, _, came⟩ := Runs.bind_eq_ok came
      cases came
      exact (opensOther_logCall _ _ _).isBacklink_eq _
    | otherwise id value other =>
      rw [fragment] at came
      obtain ⟨slot, _, came⟩ := Runs.bind_eq_ok came
      obtain ⟨slot', _, came⟩ := Runs.bind_eq_ok came
      cases came
      exact (opensOther_otherwiseCall _ _ _).isBacklink_eq _
    | reference id pid =>
      cases came
      split
      · exact isBacklink_nothing _
      · exact (opensOther_quote _ _).isBacklink_eq _
    | literal id value =>
      cases came
      exact isBacklink_literal _ value
    | list id items =>
      rw [fragment] at came
      obtain ⟨codes, _, came⟩ := Runs.bind_eq_ok came
      cases came
      exact (opensOther_listCode s codes).isBacklink_eq _

theorem slotCode_backlink {id code : String} {key : Option Block} (came : slotCode s key = .ok code)
    (told : isEmptyLiteral code = false) : slotCode s (some (.backlink id key)) = .ok (s.target.backlinkCall code) := by
  rw [slotCode, fragment, came]
  simp [Bind.bind, Except.bind, told, valueCode]

/-- The code in a slot begins like a backlink exactly if it is that of a backlink. -/
theorem isBacklink_slot {slot : Option Block} {code : String} (came : slotCode s slot = .ok code) :
    s.target.isBacklink code = true ↔ IsLink slot ∧ code ≠ "" := by
  cases slot with
  | none =>
    cases came
    simp [isBacklink_nothing]
  | some b =>
    rw [slotCode] at came
    obtain ⟨f, fragment_came, came⟩ := Runs.bind_eq_ok came
    cases f with
    | statement st => cases came
    | expression bare order =>
      have own := isBacklink_fragment fragment_came
      rw [valueCode] at came
      cases came
      split
      · exact own
      · next loose =>
        have other : ¬ IsLink (some b) := by
          intro link
          cases b with
          | backlink id key =>
            rw [fragment] at fragment_came
            obtain ⟨_, _, fragment_came⟩ := Runs.bind_eq_ok fragment_came
            cases fragment_came
            simp at loose
          | _ => cases link
        simp [other, (opensOther_enclosed bare).isBacklink_eq]

/-! ## Parts of a design -/

/-- The slot that the value of a part stands in; what a profile says of itself stands in none. -/
def valueSlot : Part → Option Block
  | .attr _ value => value
  | .self _ _ => none
  | .input _ _ value => some value

theorem isBacklink_told {slot : Option Block} {code : String} (came : slotCode s slot = .ok code)
    (told : ¬ isEmptyLiteral code = true) : s.target.isBacklink code = true ↔ IsLink slot := by
  rw [isBacklink_slot came]
  refine and_iff_left ?_
  rintro rfl
  exact told (by decide)

/-- Where a single call stands behind comments, there is no other. -/
theorem add_of_led {lead : List Step} (comments : TwoStyles.calls lead = []) {key value key' value' : String}
    (inside : Step.add key value ∈ lead ++ [.add key' value']) : key = key' ∧ value = value' := by
  rcases List.mem_append.mp inside with early | last
  · have call : Step.add key value ∈ TwoStyles.calls lead := List.mem_filter.mpr ⟨early, rfl⟩
    rw [comments] at call
    cases call
  · cases List.mem_singleton.mp last
    exact ⟨rfl, rfl⟩

/-- The value that a part adds begins like a backlink exactly if a backlink stands in its slot. -/
theorem isBacklink_part {part : Part} {own : List Step} {key value : String} (written : part.steps s = .ok own)
    (inside : .add key value ∈ own) : s.target.isBacklink value = true ↔ IsLink (valueSlot part) := by
  cases part with
  | self profile name =>
    cases written
    have comments : TwoStyles.calls (s.comment "## profile_hmc ##" ++ s.comment "attribute: Self-Reference") = [] := by
      rw [TwoStyles.calls_append, TwoStyles.calls_comment, TwoStyles.calls_comment, List.nil_append]
    obtain ⟨_, rfl⟩ := add_of_led comments inside
    rw [(opensOther_quote _ _).isBacklink_eq]
    simp [valueSlot, IsLink]
  | attr keySlot slot =>
    obtain ⟨keyCode, _, written⟩ := Runs.bind_eq_ok written
    obtain ⟨code, came, written⟩ := Runs.bind_eq_ok written
    cases written
    rw [attributeSteps] at inside
    split at inside
    · cases inside
    · next told =>
      obtain ⟨_, rfl⟩ := add_of_led (TwoStyles.calls_comment s _) inside
      rw [Bool.or_eq_true, not_or] at told
      exact isBacklink_told came told.2
  | input name pid b =>
    obtain ⟨code, came, written⟩ := Runs.bind_eq_ok written
    cases written
    rw [inputSteps] at inside
    split at inside
    · cases inside
    · next told =>
      obtain ⟨_, rfl⟩ := add_of_led (TwoStyles.calls_comment s _) inside
      exact isBacklink_told came told

/-! ## Graphs -/

/-- The parts of a block that stands in a chain: those of the statements of a record, or its own. -/
def topParts : Block → List Part
  | .record _ _ _ body => body.flatMap statementParts
  | b => statementParts b

theorem infix_join {texts : List String} {text : String} (inside : text ∈ texts) :
    text.toList <:+: (String.join texts).toList := by
  obtain ⟨before, after, rfl⟩ := List.append_of_mem inside
  rw [String.toList_join, List.flatMap_append, List.flatMap_cons, ← List.append_assoc]
  exact List.infix_append _ _ _

theorem infix_intercalate {separator text : List Char} {texts : List (List Char)} (inside : text ∈ texts) :
    text <:+: separator.intercalate texts := by
  induction texts with
  | nil => cases inside
  | cons first rest ih =>
    cases rest with
    | nil =>
      rw [List.intercalate_singleton]
      obtain rfl := List.mem_singleton.mp inside
      exact List.infix_rfl
    | cons next rest =>
      rw [List.intercalate_cons_cons]
      rcases List.mem_cons.mp inside with rfl | later
      · rw [List.append_assoc]
        exact (List.prefix_append _ _).isInfix
      · exact (ih later).trans (List.suffix_append _ _).isInfix

theorem steps_of_written {parts : List Part} {written : List (List Step)} (each : Written s parts written) {part : Part}
    (inside : part ∈ parts) : ∃ own, part.steps s = .ok own ∧ ∀ step ∈ own, step ∈ written.flatten := by
  obtain ⟨i, place⟩ := List.mem_iff_getElem?.mp inside
  obtain ⟨own, found, came⟩ := exists_at each place
  exact ⟨own, came, fun step member => List.mem_flatten_of_mem (List.mem_of_getElem? found) member⟩

/-- The steps of the parts of a block stand in its text, those of a record one level in. -/
theorem infix_of_top {b : Block} {st : Statement} (came : fragment s b = .ok (.statement st)) {part : Part}
    (inside : part ∈ topParts b) : ∃ own, part.steps s = .ok own ∧
      ∀ step ∈ own, (placed s b.isRecord step).toList <:+: (st.render s).toList := by
  have alone (states : topParts b = statementParts b) {steps : List Step} (same : st = .steps steps)
      (level : b.isRecord = false) : ∃ own, part.steps s = .ok own ∧
        ∀ step ∈ own, (placed s b.isRecord step).toList <:+: (st.render s).toList := by
    subst same
    obtain ⟨written, each, rfl⟩ := written_of_statement came
    obtain ⟨own, ownSteps, within⟩ := steps_of_written each (states ▸ inside)
    refine ⟨own, ownSteps, fun step member => ?_⟩
    rw [placed, level, Statement.render, renderSteps]
    exact infix_join (List.mem_map_of_mem (within step member))
  cases b with
  | record id localId skip body =>
    rw [fragment] at came
    split at came
    · cases came
    · obtain ⟨idCode, _, came⟩ := Runs.bind_eq_ok came
      obtain ⟨skipText, _, came⟩ := Runs.bind_eq_ok came
      obtain ⟨steps, bodyCame, came⟩ := Runs.bind_eq_ok came
      cases came
      obtain ⟨written, each, rfl⟩ := written_of_body bodyCame
      obtain ⟨own, ownSteps, within⟩ := steps_of_written each inside
      refine ⟨own, ownSteps, fun step member => ?_⟩
      rw [Statement.render, String.toList_append, String.toList_append]
      refine List.IsInfix.trans ?_ (List.infix_append _ _ _)
      exact infix_join (List.mem_map_of_mem (List.mem_append_right _ (within step member)))
  | attr id key value =>
    rw [fragment] at came
    obtain ⟨_, _, came⟩ := Runs.bind_eq_ok came
    obtain ⟨_, _, came⟩ := Runs.bind_eq_ok came
    cases came
    exact alone rfl rfl rfl
  | profile id descriptor inputs =>
    rw [fragment] at came
    split at came
    · cases came
    · obtain ⟨_, _, came⟩ := Runs.bind_eq_ok came
      cases came
      exact alone rfl rfl rfl
  | _ => cases inside

theorem fragment_of_chain {chain : List Block} {code : String} (came : chainCode s chain = .ok code) {b : Block}
    (inside : b ∈ chain) : ∃ f, fragment s b = .ok f ∧ (topCode s f).toList <:+: code.toList := by
  induction chain generalizing code with
  | nil => cases inside
  | cons first rest ih =>
    rw [chainCode] at came
    obtain ⟨f, fragment_came, came⟩ := Runs.bind_eq_ok came
    obtain ⟨more, rest_came, came⟩ := Runs.bind_eq_ok came
    cases came
    rw [String.toList_append]
    rcases List.mem_cons.mp inside with rfl | later
    · exact ⟨f, fragment_came, (List.prefix_append _ _).isInfix⟩
    · obtain ⟨g, found, within⟩ := ih rest_came later
      exact ⟨g, found, within.trans (List.suffix_append _ _).isInfix⟩

theorem fragment_of_graph {g : Graph} {code : String} (came : graphCode s g = .ok code) {b : Block}
    (inside : b ∈ g.topLevel) : ∃ f, fragment s b = .ok f ∧ (topCode s f).toList <:+: code.toList := by
  obtain ⟨codes, chains, came⟩ := Runs.bind_eq_ok came
  cases came
  obtain ⟨chain, member, inside⟩ := List.mem_flatten.mp inside
  rw [Runs.mapM_eq_ok_iff] at chains
  obtain ⟨i, place⟩ := List.mem_iff_getElem?.mp member
  obtain ⟨own, found, chain_came⟩ := exists_at chains place
  obtain ⟨f, fragment_came, within⟩ := fragment_of_chain chain_came inside
  refine ⟨f, fragment_came, within.trans ?_⟩
  rw [String.toList_intercalate]
  by_cases empty : own = ""
  · subst empty
    exact List.nil_infix
  · apply infix_intercalate
    refine List.mem_map_of_mem (List.mem_filter.mpr ⟨List.mem_of_getElem? found, ?_⟩)
    simpa using empty

/-- In the program of a graph a value is handed over as it is exactly if a backlink stands in its slot, and is
evaluated later otherwise. The code of a value begins like a backlink only if it is that of a backlink, and
a backlink with a key stands in a slot without parentheses. -/
theorem unwrapped_iff_backlink (s : Style) :
    (∀ b code order, fragment s b = .ok (.expression code order) →
      (s.target.isBacklink code = true ↔ IsLink (some b) ∧ code ≠ "")) ∧
    (∀ id key code, slotCode s key = .ok code → isEmptyLiteral code = false →
      slotCode s (some (.backlink id key)) = .ok (s.target.backlinkCall code)) ∧
    ∀ g program, generate s g = .ok program →
      ∃ code, graphCode s g = .ok code ∧ program = tidy (s.target.finish code s.target.preamble) ∧
        ∀ b ∈ g.topLevel, ∀ part ∈ topParts b, ∃ own, part.steps s = .ok own ∧
          ∀ key value, .add key value ∈ own →
            (placed s b.isRecord (.add key value)).toList <:+: code.toList ∧
            (Unwrapped s.target key value ↔ IsLink (valueSlot part)) ∧
            (Delayed s.target key value ↔ ¬ IsLink (valueSlot part)) := by
  refine ⟨fun _ _ _ came => isBacklink_fragment came, fun _ _ _ came told => slotCode_backlink came told, ?_⟩
  intro g program generated
  obtain ⟨code, came, generated⟩ := Runs.bind_eq_ok generated
  have tidied := Except.ok.inj generated
  refine ⟨code, came, tidied.symm, fun b top part inside => ?_⟩
  obtain ⟨f, fragment_came, within⟩ := fragment_of_graph came top
  cases f with
  | expression own order =>
    -- only statements have parts
    have value := (EmptyCode.fits_fragment s b fragment_came).1
    cases b with
    | record _ _ _ _ | attr _ _ _ | profile _ _ _ => cases value
    | _ => cases inside
  | statement st =>
    obtain ⟨own, written, stands⟩ := infix_of_top fragment_came inside
    refine ⟨own, written, fun key value added => ⟨(stands _ added).trans within, ?_, ?_⟩⟩
    · rw [unwrapped_iff, isBacklink_part written added]
    · rw [delayed_iff, isBacklink_part written added]

end

/-- A record with a backlink and a text that reads like one. -/
def linked : Graph :=
  ⟨[[.record "r" (some (.literal "i" (.text "X"))) none
    [.attr "a" (some (.literal "k" (.text "owner"))) (some (.backlink "b" (some (.literal "l" (.text "owns"))))),
      .attr "c" (some (.literal "m" (.text "note"))) (some (.literal "n" (.text "BackwardLinkFor(1)")))]]]⟩

theorem linked_told_apart :
    ∃ program, generate ⟨.python, 2, true⟩ linked = .ok program ∧
      fragment ⟨.python, 2, true⟩ (.literal "n" (.text "BackwardLinkFor(1)")) =
        .ok (.expression "'BackwardLinkFor(1)'" .atomic) ∧
      Target.python.isBacklink "'BackwardLinkFor(1)'" = false ∧
      slotCode ⟨.python, 2, true⟩ (some (.backlink "b" (some (.literal "l" (.text "owns"))))) =
        .ok "BackwardLinkFor('owns')" ∧
      Unwrapped .python "'owner'" "BackwardLinkFor('owns')" ∧ Delayed .python "'note'" "'BackwardLinkFor(1)'" := by
  obtain ⟨values, backlinks, graphs⟩ := unwrapped_iff_backlink ⟨.python, 2, true⟩
  have text : fragment ⟨.python, 2, true⟩ (.literal "n" (.text "BackwardLinkFor(1)")) =
      .ok (.expression "'BackwardLinkFor(1)'" .atomic) := rfl
  have plain := values _ _ _ text
  have placed := backlinks "b" (some (.literal "l" (.text "owns"))) "'owns'" rfl (by decide)
  obtain ⟨program, generated⟩ : ∃ program, generate ⟨.python, 2, true⟩ linked = .ok program := ⟨_, rfl⟩
  obtain ⟨_, _, _, parts⟩ := graphs linked program generated
  obtain ⟨own, written, decided⟩ := parts _ (.head _)
    (.attr (some (.literal "k" (.text "owner"))) (some (.backlink "b" (some (.literal "l" (.text "owns")))))) (.head _)
  obtain ⟨own', written', decided'⟩ := parts _ (.head _)
    (.attr (some (.literal "m" (.text "note"))) (some (.literal "n" (.text "BackwardLinkFor(1)")))) (.tail _ (.head _))
  have first := decided "'owner'" "BackwardLinkFor('owns')" (by cases written; exact .tail _ (.head _))
  have second := decided' "'note'" "'BackwardLinkFor(1)'" (by cases written'; exact .tail _ (.head _))
  refine ⟨program, generated, text, ?_, placed, first.2.1.mpr trivial, second.2.2.mpr not_false⟩
  rw [← Bool.not_eq_true, plain]
  exact fun link => link.1

end RecordMapper.Proofs.UnwrappedBacklinks
