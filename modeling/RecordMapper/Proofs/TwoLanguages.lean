import RecordMapper.Proofs.CommentLines
import RecordMapper.Proofs.DroppedAttributes
import RecordMapper.Proofs.TwoStyles

/-!
# One design in two languages

What a block comes to is the same design in every style, and so in both languages: both refuse it with the
same error, or it comes to a statement with the same chain of calls, or to an expression of the same order,
and to no text in both or in neither (`same_design`). Only one decision is made on text that the languages
write differently, whether a value is a backlink; related code here is code that is a backlink in both
languages or in neither.
-/

namespace RecordMapper.Proofs.TwoLanguages
open RecordMapper.Program RecordMapper.Block RecordMapper.Proofs.TwoStyles
open RecordMapper.Proofs.Noninterference (Both)

/-! ## The chain of a statement -/

/-- The calls in the chain that builds a design. -/
inductive Call where
  | setId
  | setSkipCondition
  | addThunk
  | addBacklink
deriving DecidableEq, Repr

/-- The call that a step is, if it is one. -/
def callOf (t : Target) : Step → Option Call
  | .comment _ => none
  | .setId code => if isEmptyLiteral code then none else some .setId
  | .setSkip _ => some .setSkipCondition
  | .add _ value => some (if t.isBacklink value then .addBacklink else .addThunk)

/-- What the text of a step is if it is a certain call, or none. -/
def Writes (t : Target) (step : Step) : Option Call → Prop
  | none => (∃ text, step = .comment text) ∨ step.render t = ""
  | some .setId => ∃ code, step.render t = ".setId(" ++ t.thunk (t.textCall code) ++ ")\n"
  | some .setSkipCondition => ∃ code, step.render t = ".setSkipCondition(" ++ t.thunk code ++ ")\n"
  | some .addThunk => ∃ key value, step.render t = ".addAttribute(" ++ key ++ ", " ++ t.thunk value ++ ")\n"
  | some .addBacklink => ∃ key value,
      t.isBacklink value = true ∧ step.render t = ".addAttribute(" ++ key ++ ", " ++ value ++ ")\n"

theorem writes_callOf (t : Target) (step : Step) : Writes t step (callOf t step) := by
  cases step with
  | comment text => exact .inl ⟨text, rfl⟩
  | setId code =>
    cases empty : isEmptyLiteral code with
    | true =>
      have called : callOf t (.setId code) = none := by simp only [callOf, empty, if_true]
      rw [called]
      exact .inr (by simp only [Step.render, Target.setId, empty, if_true])
    | false =>
      have called : callOf t (.setId code) = some .setId := by simp [callOf, empty]
      rw [called]
      exact ⟨code, by simp [Step.render, Target.setId, empty]⟩
  | setSkip condition => exact ⟨condition, rfl⟩
  | add key value =>
    cases back : t.isBacklink value with
    | true =>
      have called : callOf t (.add key value) = some .addBacklink := by simp only [callOf, back, if_true]
      rw [called]
      exact ⟨key, value, back, by simp only [Step.render, Target.addAttribute_eq, back, if_true]⟩
    | false =>
      have called : callOf t (.add key value) = some .addThunk := by simp [callOf, back]
      rw [called]
      exact ⟨key, value, by simp [Step.render, Target.addAttribute_eq, back]⟩

/-- All steps of a statement. -/
def stepsOf : Statement → List Step
  | .steps own => own
  | .design heading own => heading ++ own

/-- The calls of a statement in order. -/
def chain (t : Target) (st : Statement) : List Call := (stepsOf st).filterMap (callOf t)

/-- Whether a statement builds a design of its own. -/
def builds : Statement → Bool
  | .steps _ => false
  | .design _ _ => true

/-! ## Backlinks in two languages -/

/-- Code that is a backlink in one language exactly if it is one in the other. -/
def LinkedAlike (t t' : Target) (x y : String) : Prop := t.isBacklink x = t'.isBacklink y

/-- Code that begins with another character than a backlink does in any language. -/
def OpensOther (code : String) : Prop := ∃ c ∈ code.toList.head?, c ≠ 'B' ∧ c ≠ 'n'

instance (code : String) : Decidable (OpensOther code) :=
  decidable_of_iff (code.toList.head?.any (fun c => c != 'B' && c != 'n') = true) (by simp [OpensOther, Option.any_eq_true])

theorem OpensOther.append {a : String} (other : OpensOther a) (b : String) : OpensOther (a ++ b) := by
  obtain ⟨c, first, plain⟩ := other
  exact ⟨c, by rw [String.toList_append, List.head?_append, Option.mem_def.mp first]; rfl, plain⟩

theorem OpensOther.isBacklink_eq {code : String} (other : OpensOther code) (t : Target) : t.isBacklink code = false := by
  obtain ⟨c, first, plain⟩ := other
  obtain ⟨d, opening, mark⟩ : ∃ d, t.backlinkOpen.toList.head? = some d ∧ (d = 'B' ∨ d = 'n') := by
    cases t
    · exact ⟨'B', by decide, .inl rfl⟩
    · exact ⟨'n', by decide, .inr rfl⟩
  obtain ⟨rest, opens⟩ := List.head?_eq_some_iff.mp opening
  obtain ⟨later, begins⟩ := List.head?_eq_some_iff.mp first
  have apart : (d == c) = false := by
    rw [beq_eq_false_iff_ne]
    rintro rfl
    exact mark.elim plain.1 plain.2
  rw [Target.isBacklink, opens, begins, List.isPrefixOf, apart, Bool.false_and]

theorem LinkedAlike.of_other {x y : String} (other : OpensOther x) (other' : OpensOther y) (t t' : Target) :
    LinkedAlike t t' x y := by
  rw [LinkedAlike, other.isBacklink_eq, other'.isBacklink_eq]

theorem opensOther_quote (t : Target) (text : String) : OpensOther (t.quote text) := by
  obtain ⟨mark, quotes, spelled⟩ := StringLiterals.quote_written t text
  exact ⟨mark, by rw [spelled]; rfl, by rcases quotes with rfl | rfl <;> decide⟩

theorem opensOther_number (n : Number) : OpensOther n.render := by
  obtain ⟨c, rest, begins⟩ := List.exists_cons_of_ne_nil
    (String.toList_eq_nil_iff.not.mpr (EmptyCode.ne_empty_of_shows (EmptyCode.shows_number n)))
  have first : NumberTexts.isNumeric c = true := NumberTexts.numeric_render n c (by simp [begins])
  refine ⟨c, by rw [begins]; rfl, ?_, ?_⟩ <;>
    · rintro rfl
      cases first

theorem opensOther_truth (t : Target) (b : Bool) : OpensOther (t.truth b) := by
  cases t <;> cases b <;> decide

theorem isBacklink_nothing (t : Target) : t.isBacklink "" = false := by
  cases t <;> decide

theorem isBacklink_null (t : Target) : t.isBacklink t.null = false := by
  cases t <;> decide

theorem linkedAlike_literal (t t' : Target) (value : Literal) :
    LinkedAlike t t' (literalCode t value) (literalCode t' value) := by
  cases value with
  | text text => exact .of_other (opensOther_quote t text) (opensOther_quote t' text) t t'
  | number n => exact .of_other (opensOther_number n) (opensOther_number n) t t'
  | truth b => exact .of_other (opensOther_truth t b) (opensOther_truth t' b) t t'
  | null => exact (isBacklink_null t).trans (isBacklink_null t').symm

theorem isBacklink_backlinkCall (t : Target) (key : String) : t.isBacklink (t.backlinkCall key) = true := by
  rw [Target.isBacklink, Target.backlinkCall, List.isPrefixOf_iff_prefix, String.append_assoc, String.toList_append]
  exact List.prefix_append _ _

theorem opensOther_listCode (s : Style) (items : List String) : OpensOther (listCode s items) := by
  rw [listCode]
  split
  · decide
  · exact (OpensOther.append (by decide) _).append _

theorem opensOther_enclosed (code : String) : OpensOther ("(" ++ code ++ ")") :=
  (OpensOther.append (by decide) _).append _

theorem opensOther_queryCall (t : Target) (language : QueryLanguage) (query : String) :
    OpensOther (queryCall t language query) := by
  cases t <;> cases language <;> exact (OpensOther.append (by decide) _).append _

theorem opensOther_stopCall (t : Target) (message : String) : OpensOther (t.stopCall message) := by
  cases t <;> exact (OpensOther.append (by decide) _).append _

theorem opensOther_logCall (t : Target) (value description : String) : OpensOther (t.logCall value description) :=
  (((OpensOther.append (by decide) _).append _).append _).append _

theorem opensOther_otherwiseCall (t : Target) (value other : String) : OpensOther (t.otherwiseCall value other) :=
  (((OpensOther.append (by decide) _).append _).append _).append _

/-- Nothing but a backlink is one, whatever code it holds. -/
theorem kept_linked (s s' : Style) : Kept s s' (LinkedAlike s.target s'.target) where
  nothing := (isBacklink_nothing s.target).trans (isBacklink_nothing s'.target).symm
  literal := linkedAlike_literal s.target s'.target
  enclosed _ := .of_other (opensOther_enclosed _) (opensOther_enclosed _) _ _
  query _ _ _ _ := .of_other (opensOther_queryCall _ _ _) (opensOther_queryCall _ _ _) _ _
  stop _ := .of_other (opensOther_stopCall _ _) (opensOther_stopCall _ _) _ _
  log _ _ := .of_other (opensOther_logCall _ _ _) (opensOther_logCall _ _ _) _ _
  otherwise _ _ := .of_other (opensOther_otherwiseCall _ _ _) (opensOther_otherwiseCall _ _ _) _ _
  backlink _ := by rw [LinkedAlike, isBacklink_backlinkCall, isBacklink_backlinkCall]
  list _ := .of_other (opensOther_listCode s _) (opensOther_listCode s' _) _ _

/-! ## Statements -/

variable {s s' : Style} {R : String → String → Prop}

theorem render_ne_empty (t : Target) {step : Step} (told : Told step) : step.render t ≠ "" := by
  cases step with
  | comment text =>
    obtain ⟨line, rest, lines⟩ := List.exists_cons_of_ne_nil (List.splitOn_ne_nil '\n' text.toList)
    rw [Step.render, ← String.toList_inj.ne, CommentLines.comment_joined, lines]
    simp [CommentLines.joined]
  | setId code =>
    rw [Step.render, Target.setId, told code rfl]
    exact EmptyCode.ne_empty_of_shows (EmptyCode.shows_append_right _ (by decide))
  | setSkip condition => exact EmptyCode.ne_empty_of_shows (EmptyCode.shows_append_right _ (by decide))
  | add key value => exact EmptyCode.ne_empty_of_shows (DroppedAttributes.shows_addAttribute t key value)

/-- Steps have no text exactly if there are none. -/
theorem renderSteps_eq_empty_iff (t : Target) {own : List Step} (told : ∀ step ∈ calls own, Told step) :
    renderSteps t own = "" ↔ own = [] := by
  have toldAll : ∀ step ∈ own, Told step := by
    rintro _ inside code rfl
    exact told _ (List.mem_filter.mpr ⟨inside, rfl⟩) code rfl
  rw [DroppedAttributes.renderSteps_eq_empty_iff, List.eq_nil_iff_forall_not_mem]
  exact forall_congr' fun step => ⟨fun empty inside => render_ne_empty t (toldAll step inside) (empty inside),
    fun outside inside => absurd inside outside⟩

/-- The calls of steps do not depend on the comments among them. -/
theorem filterMap_calls (t : Target) (own : List Step) : (calls own).filterMap (callOf t) = own.filterMap (callOf t) := by
  rw [calls, List.filterMap_filter]
  refine List.filterMap_congr fun step _ => ?_
  cases step <;> rfl

theorem chain_design (t : Target) {heading : List Step} (comments : calls heading = []) (own : List Step) :
    chain t (.design heading own) = own.filterMap (callOf t) := by
  rw [chain, stepsOf, List.filterMap_append, ← filterMap_calls t heading, comments]
  rfl

theorem callOf_eq {a b : Step} (alike : AlikeCall (LinkedAlike s.target s'.target) a b) :
    callOf s.target a = callOf s'.target b := by
  cases alike with
  | setId _ told told' => simp [callOf, told, told']
  | setSkip => rfl
  | add _ value => rw [callOf, callOf, value]

theorem filterMap_of_alike {cs cs' : List Step}
    (each : List.Forall₂ (AlikeCall (LinkedAlike s.target s'.target)) cs cs') :
    cs.filterMap (callOf s.target) = cs'.filterMap (callOf s'.target) := by
  induction each with
  | nil => rfl
  | cons first _ ih => rw [List.filterMap_cons, List.filterMap_cons, callOf_eq first, ih]

theorem chain_eq {own own' : List Step} (alike : AlikeSteps (LinkedAlike s.target s'.target) own own') :
    own.filterMap (callOf s.target) = own'.filterMap (callOf s'.target) := by
  rw [← filterMap_calls _ own, ← filterMap_calls _ own', filterMap_of_alike alike.calls]

theorem text_iff {own own' : List Step} (alike : AlikeSteps R own own') :
    renderSteps s.target own = "" ↔ renderSteps s'.target own' = "" := by
  have told := told_of_alike alike.calls
  rw [renderSteps_eq_empty_iff _ told.1, renderSteps_eq_empty_iff _ told.2, alike.none]

theorem design_ne_empty (s : Style) (heading own : List Step) : (Statement.design heading own).render s ≠ "" :=
  EmptyCode.ne_empty_of_shows (EmptyCode.shows_append_right _ (by cases s.target <;> decide))

/-! ## The same design -/

/-- What a block comes to in two styles is the same but for the code in it. -/
inductive SameDesign (s s' : Style) : Fragment → Fragment → Prop
  | statement {st st' : Statement} (text : st.render s = "" ↔ st'.render s' = "") (design : builds st = builds st')
    (calls : chain s.target st = chain s'.target st') : SameDesign s s' (.statement st) (.statement st')
  | expression (order : Order) {code code' : String} (text : code = "" ↔ code' = "") :
    SameDesign s s' (.expression code order) (.expression code' order)

theorem sameDesign_of_alike {b : Block} {f f' : Fragment} (came : fragment s b = .ok f) (came' : fragment s' b = .ok f')
    (alike : AlikeFragment (LinkedAlike s.target s'.target) f f') : SameDesign s s' f f' := by
  cases alike with
  | steps own => exact .statement (text_iff own) rfl (chain_eq own)
  | design comments comments' own =>
    refine .statement (iff_of_false (design_ne_empty s _ _) (design_ne_empty s' _ _)) rfl ?_
    rw [chain_design _ comments, chain_design _ comments', chain_eq own]
  | expression order =>
    refine .expression order ?_
    rw [← String.isEmpty_iff, ← String.isEmpty_iff, isEmpty_of_fragment came came']

theorem both_sameDesign (s s' : Style) (b : Block) : Both (SameDesign s s') (fragment s b) (fragment s' b) := by
  have both := both_fragment (kept_linked s s') b
  generalize came : fragment s b = result at both ⊢
  generalize came' : fragment s' b = result' at both ⊢
  cases both with
  | error e => exact .error e
  | ok alike => exact .ok (sameDesign_of_alike came came' alike)

theorem sameDesign_of_came {b : Block} {f f' : Fragment} (came : fragment s b = .ok f) (came' : fragment s' b = .ok f') :
    SameDesign s s' f f' := by
  have both := both_sameDesign s s' b
  rw [came, came'] at both
  cases both with
  | ok same => exact same

/-- At the top level, too, there is text in both styles or in neither. -/
theorem topCode_eq_empty_iff {f f' : Fragment} (same : SameDesign s s' f f') : topCode s f = "" ↔ topCode s' f' = "" := by
  have shown (t : Target) (code : String) : t.nakedValue code ≠ "" := by
    cases t <;> simp [Target.nakedValue]
  cases same with
  | statement text => exact text
  | expression order text =>
    rw [topCode, topCode]
    split
    · next empty => simp [text.mp (String.isEmpty_iff.mp empty)]
    · next told =>
      have told' := told
      rw [String.isEmpty_iff, text, ← String.isEmpty_iff] at told'
      rw [if_neg told']
      exact iff_of_false (shown _ _) (shown _ _)

/-- In any two styles, and so in both languages, a block is refused with the same error or comes to the same
design, and a graph is refused with the same error or has a program. -/
theorem same_design (s s' : Style) :
    (∀ t step, Writes t step (callOf t step)) ∧
      (∀ b : Block, Both (SameDesign s s') (fragment s b) (fragment s' b)) ∧
      ∀ (g : Graph) (e : GraphError), generate s g = .error e ↔ generate s' g = .error e := by
  refine ⟨writes_callOf, both_sameDesign s s', fun g e => ?_⟩
  have chains : Both (List.Forall₂ fun _ _ => True) (g.chains.mapM (chainCode s)) (g.chains.mapM (chainCode s')) :=
    both_chains (kept_linked s s') trivial (fun _ _ => trivial) (fun _ _ _ => trivial) g
  have code : Both (fun _ _ => True) (graphCode s g) (graphCode s' g) := chains.bind fun _ => .ok trivial
  have both : Both (fun _ _ => True) (generate s g) (generate s' g) := code.bind fun _ => .ok trivial
  generalize generate s g = result at both
  generalize generate s' g = result' at both
  cases both with
  | error e => rfl
  | ok => exact iff_of_false nofun nofun

end RecordMapper.Proofs.TwoLanguages
