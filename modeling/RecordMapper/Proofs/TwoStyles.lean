import RecordMapper.Proofs.Noninterference

/-!
# One block in two styles

A block that comes to something in one style comes to the same in any other, as far as a relation between
code goes that is kept wherever code is put into other code. Main statement: `both_fragment`. Both styles
refuse a block with the same error, or it comes to calls of the same kinds in the same order, or to an
expression of the same order, with related code throughout. Nothing has to be said of the relation about what
is left out: that is decided by what the slots hold, in every style alike (`EmptyCode.reads_slot`).
-/

namespace RecordMapper.Proofs.TwoStyles
open RecordMapper.Program RecordMapper.Block RecordMapper.Proofs.EmptyCode
open RecordMapper.Proofs.Noninterference (Both)

/-! ## Calls -/

/-- Whether a step is a call; it is a comment otherwise. -/
def isCall : Step → Bool
  | .comment _ => false
  | .setId _ => true
  | .setSkip _ => true
  | .add _ _ => true

/-- The calls among steps. -/
def calls (steps : List Step) : List Step := steps.filter isCall

theorem calls_append (own more : List Step) : calls (own ++ more) = calls own ++ calls more :=
  List.filter_append own more

theorem calls_comment (s : Style) (text : String) : calls (s.comment text) = [] := by
  rw [Style.comment]
  split <;> rfl

variable {s s' : Style} {R : String → String → Prop}

/-- Calls of one kind that are given related code; an id is set to something. -/
inductive AlikeCall (R : String → String → Prop) : Step → Step → Prop
  | setId {x y : String} (id : R x y) (told : isEmptyLiteral x = false) (told' : isEmptyLiteral y = false) :
    AlikeCall R (.setId x) (.setId y)
  | setSkip {x y : String} (condition : R x y) : AlikeCall R (.setSkip x) (.setSkip y)
  | add {x y x' y' : String} (key : R x y) (value : R x' y') : AlikeCall R (.add x x') (.add y y')

/-- A step that sets an id sets it to something. -/
def Told (step : Step) : Prop := ∀ code, step = .setId code → isEmptyLiteral code = false

theorem told_of_alikeCall {a b : Step} (alike : AlikeCall R a b) : Told a ∧ Told b := by
  cases alike with
  | setId _ told told' =>
    constructor
    · rintro _ ⟨⟩
      exact told
    · rintro _ ⟨⟩
      exact told'
  | setSkip => exact ⟨nofun, nofun⟩
  | add => exact ⟨nofun, nofun⟩

theorem told_of_alike {cs cs' : List Step} (each : List.Forall₂ (AlikeCall R) cs cs') :
    (∀ step ∈ cs, Told step) ∧ ∀ step ∈ cs', Told step := by
  induction each with
  | nil => exact ⟨List.forall_mem_nil _, List.forall_mem_nil _⟩
  | cons first _ ih =>
    have own := told_of_alikeCall first
    exact ⟨List.forall_mem_cons.mpr ⟨own.1, ih.1⟩, List.forall_mem_cons.mpr ⟨own.2, ih.2⟩⟩

/-- Steps with alike calls; there are none in one list exactly if there are none in the other. -/
structure AlikeSteps (R : String → String → Prop) (own own' : List Step) : Prop where
  calls : List.Forall₂ (AlikeCall R) (calls own) (calls own')
  none : own = [] ↔ own' = []

namespace AlikeSteps

theorem nil : AlikeSteps R [] [] := ⟨.nil, Iff.rfl⟩

theorem append {own own' more more' : List Step} (first : AlikeSteps R own own') (second : AlikeSteps R more more') :
    AlikeSteps R (own ++ more) (own' ++ more') where
  calls := by
    rw [calls_append, calls_append]
    exact List.rel_append first.calls second.calls
  none := by rw [List.append_eq_nil_iff, List.append_eq_nil_iff, first.none, second.none]

/-- A call behind comments. -/
theorem led {lead lead' : List Step} (comments : TwoStyles.calls lead = []) (comments' : TwoStyles.calls lead' = [])
    {key value key' value' : String} (keys : R key key') (values : R value value') :
    AlikeSteps R (lead ++ [.add key value]) (lead' ++ [.add key' value']) where
  calls := by
    rw [calls_append, calls_append, comments, comments']
    exact .cons (.add keys values) .nil
  none := by simp

end AlikeSteps

/-- What a block comes to in two styles. -/
inductive AlikeFragment (R : String → String → Prop) : Fragment → Fragment → Prop
  | steps {own own' : List Step} (alike : AlikeSteps R own own') :
    AlikeFragment R (.statement (.steps own)) (.statement (.steps own'))
  | design {heading heading' own own' : List Step} (comments : calls heading = []) (comments' : calls heading' = [])
    (alike : AlikeSteps R own own') : AlikeFragment R (.statement (.design heading own)) (.statement (.design heading' own'))
  | expression (order : Order) {x y : String} (code : R x y) : AlikeFragment R (.expression x order) (.expression y order)

/-! ## Relations between code -/

/-- Code of one slot in two styles: it is related, and says nothing in one exactly if it does in the other. -/
structure Matched (R : String → String → Prop) (x y : String) : Prop where
  code : R x y
  literal : isEmptyLiteral x = isEmptyLiteral y
  text : x.isEmpty = y.isEmpty
  blank : Text.isBlankText x = Text.isBlankText y

/-- A relation between code in two styles that holds of the literals, and of what related code is put into. -/
structure Kept (s s' : Style) (R : String → String → Prop) : Prop where
  nothing : R "" ""
  literal (value : Literal) : R (literalCode s.target value) (literalCode s'.target value)
  enclosed {x y : String} : R x y → R ("(" ++ x ++ ")") ("(" ++ y ++ ")")
  query (language : QueryLanguage) {x y : String} :
    R x y → R (queryCall s.target language x) (queryCall s'.target language y)
  stop {x y : String} : R x y → R (s.target.stopCall x) (s'.target.stopCall y)
  log {x y x' y' : String} : R x y → R x' y' → R (s.target.logCall x x') (s'.target.logCall y y')
  otherwise {x y x' y' : String} : R x y → R x' y' → R (s.target.otherwiseCall x x') (s'.target.otherwiseCall y y')
  backlink {x y : String} : R x y → R (s.target.backlinkCall x) (s'.target.backlinkCall y)
  list {xs ys : List String} : List.Forall₂ R xs ys → R (listCode s xs) (listCode s' ys)

namespace Kept

theorem quote (kept : Kept s s' R) (text : String) : R (s.target.quote text) (s'.target.quote text) :=
  kept.literal (.text text)

theorem orNull (kept : Kept s s' R) {x y : String} (matched : Matched R x y) :
    R (orNull s.target x) (orNull s'.target y) := by
  rw [Program.orNull, Program.orNull, matched.text]
  split
  · exact kept.literal .null
  · exact matched.code

end Kept

/-- How code in a slot reads is the same in every style. -/
theorem matched_slot {slot : Option Block} (both : Both R (slotCode s slot) (slotCode s' slot)) :
    Both (Matched R) (slotCode s slot) (slotCode s' slot) := by
  generalize came : slotCode s slot = result at both ⊢
  generalize came' : slotCode s' slot = result' at both ⊢
  cases both with
  | error e => exact .error e
  | ok code =>
    have reads := reads_slot s slot came
    have reads' := reads_slot s' slot came'
    exact .ok ⟨code, reads.literal.trans reads'.literal.symm, reads.text.trans reads'.text.symm,
      reads.blank.trans reads'.blank.symm⟩

/-- Whether a value comes to no code is the same in every style. -/
theorem isEmpty_of_fragment {b : Block} {x y : String} {order order' : Order}
    (came : fragment s b = .ok (.expression x order)) (came' : fragment s' b = .ok (.expression y order')) :
    x.isEmpty = y.isEmpty := by
  obtain ⟨_, reads, _⟩ := fits_fragment s b came
  obtain ⟨_, reads', _⟩ := fits_fragment s' b came'
  exact reads.text.trans reads'.text.symm

/-! ## Steps -/

theorem alikeSteps_own {x y x' y' : String} (id : Matched R x y) (skip : Matched R x' y') :
    AlikeSteps R (ownSteps x x') (ownSteps y y') := by
  rw [ownSteps, ownSteps, id.literal, skip.blank]
  refine .append ?_ ?_
  · split
    · exact .nil
    · next told =>
      rw [Bool.not_eq_true] at told
      exact ⟨.cons (.setId id.code (id.literal.trans told) told) .nil, by simp⟩
  · split
    · exact .nil
    · exact ⟨.cons (.setSkip skip.code) .nil, by simp⟩

theorem alikeSteps_attribute {x y x' y' : String} (key : Matched R x y) (value : Matched R x' y') :
    AlikeSteps R (attributeSteps s x x') (attributeSteps s' y y') := by
  rw [attributeSteps, attributeSteps, key.literal, value.literal]
  split
  · exact .nil
  · exact .led (calls_comment _ _) (calls_comment _ _) key.code value.code

theorem alikeSteps_selfReference (kept : Kept s s' R) (d : Descriptor) (key : String) :
    AlikeSteps R (selfReferenceSteps s d key) (selfReferenceSteps s' d key) := by
  refine .led ?_ ?_ (kept.quote key) (kept.quote d.identifier) <;>
    rw [calls_append, calls_comment, calls_comment, List.append_nil]

theorem alikeSteps_input (kept : Kept s s' R) (name pid : String) {x y : String} (value : Matched R x y) :
    AlikeSteps R (inputSteps s name pid x) (inputSteps s' name pid y) := by
  rw [inputSteps, inputSteps, value.literal]
  split
  · exact .nil
  · exact .led (calls_comment _ _) (calls_comment _ _) (kept.quote pid) value.code

/-! ## Blocks -/

theorem both_valueCode (kept : Kept s s' R) (b : Block) {f f' : Fragment} (came : fragment s b = .ok f)
    (came' : fragment s' b = .ok f') (alike : AlikeFragment R f f') : Both R (valueCode b f) (valueCode b f') := by
  cases alike with
  | steps => exact .error _
  | design => exact .error _
  | expression order code =>
    rw [valueCode, valueCode, isEmpty_of_fragment came came']
    refine .ok ?_
    split
    · exact code
    · exact kept.enclosed code

private theorem inputsSteps_cons (s : Style) (d : Descriptor) (name pid : String) (b : Block)
    (rest : List (String × Block)) (found : d.pidFor? name = some pid) :
    inputsSteps s d ((name, b) :: rest) = (do
      let value ← slotCode s (some b)
      let more ← inputsSteps s d rest
      .ok (inputSteps s name pid value ++ more)) := by
  rw [inputsSteps, slotCode, found]
  simp only [bind_assoc]

mutual

-- Both styles go the same way through a block; where they look at code, the slot that it is from decides.
theorem both_fragment (kept : Kept s s' R) : ∀ b : Block, Both (AlikeFragment R) (fragment s b) (fragment s' b)
  | .record outer localId skip body => by
    rw [fragment, fragment]
    split
    · exact .error _
    · exact (matched_slot (both_slot kept localId)).bind fun own => (both_skip kept skip).bind fun condition =>
        (both_body kept outer body).bind fun steps =>
          .ok (.design (calls_comment _ _) (calls_comment _ _) ((alikeSteps_own own condition).append steps))
  | .attr _ key value => by
    rw [fragment, fragment]
    exact (matched_slot (both_slot kept key)).bind fun key => (matched_slot (both_slot kept value)).bind fun value =>
      .ok (.steps (alikeSteps_attribute key value))
  | .profile _ descriptor inputs => by
    rw [fragment, fragment]
    cases contract descriptor with
    | error gap => exact .error _
    | ok complete =>
      exact (both_inputs kept complete.1 inputs).bind fun steps =>
        .ok (.steps ((alikeSteps_selfReference kept _ _).append steps))
  | .fieldQuery _ _ query => by
    rw [fragment, fragment]
    exact .ok (.expression _ (kept.query .pointer (kept.quote query)))
  | .slotQuery _ form query => by
    rw [fragment, fragment]
    refine (matched_slot (both_slot kept query)).bind fun code => .ok (.expression _ ?_)
    rw [code.text]
    split
    · exact kept.nothing
    · exact kept.query _ code.code
  | .stop _ message => by
    rw [fragment, fragment]
    refine (matched_slot (both_slot kept message)).bind fun code => .ok (.expression _ (kept.stop ?_))
    rw [code.blank]
    split
    · exact kept.quote _
    · exact code.code
  | .log _ description value => by
    rw [fragment, fragment]
    exact (matched_slot (both_slot kept value)).bind fun code =>
      .ok (.expression _ (kept.log (kept.orNull code) (kept.quote description)))
  | .otherwise _ value other => by
    rw [fragment, fragment]
    exact (matched_slot (both_slot kept value)).bind fun value => (matched_slot (both_slot kept other)).bind fun other =>
      .ok (.expression _ (kept.otherwise (kept.orNull value) (kept.orNull other)))
  | .backlink _ key => by
    rw [fragment, fragment]
    refine (matched_slot (both_slot kept key)).bind fun code => .ok (.expression _ ?_)
    rw [code.literal]
    split
    · exact kept.nothing
    · exact kept.backlink code.code
  | .reference _ pid => by
    rw [fragment, fragment]
    refine .ok (.expression _ ?_)
    split
    · exact kept.nothing
    · exact kept.quote pid
  | .literal _ value => by
    rw [fragment, fragment]
    exact .ok (.expression _ (kept.literal value))
  | .list _ items => by
    rw [fragment, fragment]
    exact (both_items kept items).bind fun codes => .ok (.expression _ (kept.list codes))

theorem both_slot (kept : Kept s s' R) : ∀ slot : Option Block, Both R (slotCode s slot) (slotCode s' slot)
  | none => by
    rw [slotCode, slotCode]
    exact .ok kept.nothing
  | some b => by
    have both := both_fragment kept b
    rw [slotCode, slotCode]
    generalize came : fragment s b = result at both ⊢
    generalize came' : fragment s' b = result' at both ⊢
    cases both with
    | error e => exact .error e
    | ok alike => exact both_valueCode kept b came came' alike

theorem both_skip (kept : Kept s s' R) : ∀ skip : Option (Option Block),
    Both (Matched R) (skipCode s skip) (skipCode s' skip)
  | none => by
    rw [skipCode, skipCode]
    exact .ok ⟨kept.nothing, rfl, rfl, rfl⟩
  | some slot => by
    rw [skipCode, skipCode]
    exact matched_slot (both_slot kept slot)

theorem both_body (kept : Kept s s' R) (outer : String) : ∀ body : List Block,
    Both (AlikeSteps R) (bodySteps s outer body) (bodySteps s' outer body)
  | [] => by
    rw [bodySteps, bodySteps]
    exact .ok .nil
  | b :: rest => by
    rw [bodySteps, bodySteps]
    refine (both_fragment kept b).bind fun alike => ?_
    cases alike with
    | steps own => exact (both_body kept outer rest).bind fun more => .ok (own.append more)
    | design => exact .error _
    | expression => exact .error _

theorem both_inputs (kept : Kept s s' R) (d : Descriptor) : ∀ inputs : List (String × Block),
    Both (AlikeSteps R) (inputsSteps s d inputs) (inputsSteps s' d inputs)
  | [] => by
    rw [inputsSteps, inputsSteps]
    exact .ok .nil
  | (name, b) :: rest => by
    cases found : d.pidFor? name with
    | none =>
      rw [inputsSteps, inputsSteps, found]
      exact both_inputs kept d rest
    | some pid =>
      rw [inputsSteps_cons s d name pid b rest found, inputsSteps_cons s' d name pid b rest found]
      exact (matched_slot (both_slot kept (some b))).bind fun value => (both_inputs kept d rest).bind fun more =>
        .ok ((alikeSteps_input kept name pid value).append more)

theorem both_items (kept : Kept s s' R) : ∀ items : List Block,
    Both (List.Forall₂ R) (itemCodes s items) (itemCodes s' items)
  | [] => by
    rw [itemCodes, itemCodes]
    exact .ok .nil
  | b :: rest => by
    have both := both_fragment kept b
    rw [itemCodes, itemCodes]
    generalize came : fragment s b = result at both ⊢
    generalize came' : fragment s' b = result' at both ⊢
    cases both with
    | error e => exact .error e
    | ok alike =>
      cases alike with
      | steps => exact .error _
      | design => exact .error _
      | expression _ code =>
        refine (both_items kept rest).bind fun more => .ok ?_
        rw [isEmpty_of_fragment came came']
        split
        · exact more
        · exact .cons code more

end

/-! ## Chains -/

section

variable {S : String → String → Prop} (kept : Kept s s' R) (nothing : S "" "")
  (append : ∀ {x y x' y'}, S x y → S x' y' → S (x ++ x') (y ++ y'))
  (top : ∀ {b f f'}, fragment s b = .ok f → fragment s' b = .ok f' → AlikeFragment R f f' → S (topCode s f) (topCode s' f'))

include kept nothing append top

/-- The code of a chain is related if that of its blocks is. -/
theorem both_chainCode (chain : List Block) : Both S (chainCode s chain) (chainCode s' chain) := by
  induction chain with
  | nil =>
    rw [chainCode, chainCode]
    exact .ok nothing
  | cons b rest ih =>
    have both := both_fragment kept b
    rw [chainCode, chainCode]
    generalize came : fragment s b = result at both ⊢
    generalize came' : fragment s' b = result' at both ⊢
    cases both with
    | error e => exact .error e
    | ok alike => exact ih.bind fun more => .ok (append (top came came' alike) more)

theorem both_chains (g : Graph) :
    Both (List.Forall₂ S) (g.chains.mapM (chainCode s)) (g.chains.mapM (chainCode s')) :=
  .mapM (List.forall₂_same.mpr fun chain _ => both_chainCode kept nothing append top chain)

end

end RecordMapper.Proofs.TwoStyles
