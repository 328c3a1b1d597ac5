import RecordMapper.Proofs.MaskedLiterals

/-!
# Texts and the structure of programs

What the texts of a graph say has no influence on the structure of its program. The outline of a graph
keeps of each text that a user writes only whether there is one, and of the identifier of a profile also
whether it is blank. A graph and its outline fail alike or come to programs that are alike, so two graphs
with one outline have programs with one mask (`mask_of_outline`).
-/

namespace RecordMapper

/-! ## Outlines -/

/-- A text of which only is kept whether it is empty. -/
def blot (text : String) : String := if text.isEmpty then "" else "x"

theorem isEmpty_blot (text : String) : (blot text).isEmpty = text.isEmpty := by
  rw [blot]
  split
  · next empty => rw [empty]; rfl
  · next other => rw [Bool.not_eq_true] at other; rw [other]; rfl

namespace Descriptor

/-- An identifier of a profile of which only is kept whether it is empty and whether it is blank. -/
def blotIdentifier (identifier : String) : String :=
  if !identifier.isEmpty && Text.isBlankText identifier then " " else blot identifier

theorem isEmpty_blotIdentifier (identifier : String) :
    (blotIdentifier identifier).isEmpty = identifier.isEmpty := by
  rw [blotIdentifier]
  split
  · next blank => rw [Bool.and_eq_true, Bool.not_eq_true'] at blank; rw [blank.1]; rfl
  · exact isEmpty_blot identifier

theorem isBlankText_blotIdentifier (identifier : String) :
    Text.isBlankText (blotIdentifier identifier) = Text.isBlankText identifier := by
  rw [blotIdentifier, blot]
  by_cases empty : identifier = ""
  · subst empty; rfl
  · have some : identifier.isEmpty = false := by simpa using empty
    cases blank : Text.isBlankText identifier <;> simp [some] <;> decide

/-- The descriptor without what its texts say; the names of its properties stay. -/
def outline (d : Descriptor) : Descriptor where
  identifier := blotIdentifier d.identifier
  name := d.name
  attributeKey := d.attributeKey.map blot
  properties := d.properties.map fun p => ⟨p.name, blot p.identifier⟩

end Descriptor

namespace Block

/-- A literal without what its text says. -/
def literalOutline : Literal → Literal
  | .text text => .text (blot text)
  | .number n => .number n
  | .truth b => .truth b
  | .null => .null

mutual

/-- A block and all that is connected to it without what its texts say. -/
def outline : Block → Block
  | .record id localId skip body => .record id (outlineSlot localId) (outlineSkip skip) (outlineAll body)
  | .attr id key value => .attr id (outlineSlot key) (outlineSlot value)
  | .profile id descriptor inputs => .profile id (descriptor.map Descriptor.outline) (outlineInputs inputs)
  | .fieldQuery id form query => .fieldQuery id form (blot query)
  | .slotQuery id form query => .slotQuery id form (outlineSlot query)
  | .stop id message => .stop id (outlineSlot message)
  | .log id description value => .log id (blot description) (outlineSlot value)
  | .otherwise id value other => .otherwise id (outlineSlot value) (outlineSlot other)
  | .backlink id key => .backlink id (outlineSlot key)
  | .reference id pid => .reference id (blot pid)
  | .literal id value => .literal id (literalOutline value)
  | .list id items => .list id (outlineAll items)

/-- What a slot holds without what its texts say. -/
def outlineSlot : Option Block → Option Block
  | none => none
  | some b => some (outline b)

/-- The slot of a skip condition without what its texts say. -/
def outlineSkip : Option (Option Block) → Option (Option Block)
  | none => none
  | some slot => some (outlineSlot slot)

/-- Blocks without what their texts say. -/
def outlineAll : List Block → List Block
  | [] => []
  | b :: rest => outline b :: outlineAll rest

/-- The inputs of a profile without what their texts say; their names stay. -/
def outlineInputs : List (String × Block) → List (String × Block)
  | [] => []
  | (name, b) :: rest => (name, outline b) :: outlineInputs rest

end

end Block

/-- A graph without what its texts say. -/
def Graph.outline (g : Graph) : Graph := ⟨g.chains.map Block.outlineAll⟩

namespace Descriptor

theorem nonEmpty_blot (text : String) : nonEmpty (blot text) = (nonEmpty text).map blot := by
  rw [nonEmpty, nonEmpty, isEmpty_blot]
  split <;> rfl

private theorem referenceKey_outline (d : Descriptor) : d.outline.referenceKey? = d.referenceKey?.map blot := by
  have given : d.outline.attributeKey.bind nonEmpty = (d.attributeKey.bind nonEmpty).map blot := by
    cases key : d.attributeKey with
    | none => simp [outline, key]
    | some key => simp [outline, key, nonEmpty_blot]
  rw [referenceKey?, referenceKey?, given]
  cases d.attributeKey.bind nonEmpty with
  | some key => rfl
  | none =>
    have named : (mentionsProfile ∘ fun p : Property => (⟨p.name, blot p.identifier⟩ : Property)) = mentionsProfile := rfl
    simp only [Option.map_none, outline, List.find?_map, named]
    cases d.properties.find? mentionsProfile with
    | none => rfl
    | some p => exact nonEmpty_blot p.identifier

private theorem longest_map (ps : List Property) :
    longest (ps.map fun p => ⟨p.name, blot p.identifier⟩) = (longest ps).map fun p => ⟨p.name, blot p.identifier⟩ := by
  induction ps with
  | nil => rfl
  | cons p rest ih =>
    rw [List.map_cons, longest, longest, ih]
    cases longest rest with
    | none => rfl
    | some q =>
      simp only [Option.map_some]
      split <;> rfl

theorem pidFor_outline (d : Descriptor) (input : String) : d.outline.pidFor? input = (d.pidFor? input).map blot := by
  have property : propertyFor? input d.outline =
      (propertyFor? input d).map fun p => ⟨p.name, blot p.identifier⟩ := by
    have exact_ : ((·.name == input) ∘ fun p : Property => (⟨p.name, blot p.identifier⟩ : Property)) = (·.name == input) :=
      rfl
    have starts : (startsWith input ∘ fun p : Property => (⟨p.name, blot p.identifier⟩ : Property)) = startsWith input :=
      rfl
    simp only [propertyFor?, outline, List.find?_map, exact_, List.filter_map, starts, longest_map]
    cases d.properties.find? (·.name == input) <;> rfl
  rw [pidFor?, pidFor?, property]
  cases propertyFor? input d with
  | none => rfl
  | some p => exact nonEmpty_blot p.identifier

end Descriptor

namespace Block

theorem id_outline (b : Block) : b.outline.id = b.id := by
  cases b <;> rw [outline] <;> rfl

theorem type_outline (b : Block) : b.outline.type = b.type := by
  cases b with
  | record _ _ skip _ => cases skip <;> rw [outline, outlineSkip] <;> rfl
  | fieldQuery _ form _ => rw [outline]; cases form <;> rfl
  | slotQuery _ form _ => rw [outline]; cases form <;> rfl
  | literal _ value => rw [outline]; cases value <;> rfl
  | _ => rw [outline]; rfl

theorem nestedRecord_outline (id : String) (body : List Block) : nestedRecord? id (outlineAll body) = nestedRecord? id body := by
  induction body with
  | nil => rfl
  | cons b rest ih =>
    have sort : b.outline.isRecord = b.isRecord := by cases b <;> rw [outline] <;> rfl
    rw [nestedRecord?, nestedRecord?] at ih
    rw [outlineAll, nestedRecord?, nestedRecord?, List.find?_cons, List.find?_cons, sort]
    cases b.isRecord with
    | true => simp [id_outline]
    | false => exact ih

theorem contract_outline (descriptor : Option Descriptor) :
    contract (descriptor.map Descriptor.outline) = (contract descriptor).map fun (d, key) => (d.outline, blot key) := by
  cases descriptor with
  | none => rfl
  | some d =>
    have blank : Text.isBlankText d.outline.identifier = Text.isBlankText d.identifier :=
      Descriptor.isBlankText_blotIdentifier d.identifier
    simp only [Option.map_some, contract, blank, Descriptor.referenceKey_outline]
    cases Text.isBlankText d.identifier with
    | true => rfl
    | false => cases d.referenceKey? <;> rfl

end Block

end RecordMapper

namespace RecordMapper.Proofs.Noninterference
open RecordMapper.Program RecordMapper.Block RecordMapper.Proofs.MaskedLiterals

/-! ## Results of two runs -/

/-- Both fail with one error, or both succeed with related values. -/
inductive Both {α : Type} (R : α → α → Prop) : GraphResult α → GraphResult α → Prop
  | error (e : GraphError) : Both R (.error e) (.error e)
  | ok {a b : α} (related : R a b) : Both R (.ok a) (.ok b)

theorem Both.bind {α β : Type} {R : α → α → Prop} {S : β → β → Prop} {x y : GraphResult α} {f g : α → GraphResult β}
    (first : Both R x y) (next : ∀ {a b}, R a b → Both S (f a) (g b)) : Both S (x >>= f) (y >>= g) := by
  cases first with
  | error e => exact .error e
  | ok related => exact next related

/-- Related items one by one. -/
theorem Both.mapM {α β : Type} {R : β → β → Prop} {f f' : α → GraphResult β} {as as' : List α}
    (each : List.Forall₂ (fun a a' => Both R (f a) (f' a')) as as') :
    Both (List.Forall₂ R) (as.mapM f) (as'.mapM f') := by
  induction each with
  | nil => exact .ok .nil
  | cons first _ ih =>
    rw [List.mapM_cons, List.mapM_cons]
    exact first.bind fun related => ih.bind fun more => .ok (.cons related more)

/-! ## Alike steps and fragments -/

variable {s : Style} {t : Target}

/-- Steps of one kind with alike code; none of them is a comment. -/
inductive AlikeStep (t : Target) : Step → Step → Prop
  | setId {x y : String} (id : AlikeCode t x y) : AlikeStep t (.setId x) (.setId y)
  | setSkip {x y : String} (condition : AlikeCode t x y) : AlikeStep t (.setSkip x) (.setSkip y)
  | add {x y x' y' : String} (key : AlikeCode t x y) (value : AlikeCode t x' y') : AlikeStep t (.add x x') (.add y y')

/-- Steps that are alike one by one. -/
abbrev AlikeSteps (t : Target) : List Step → List Step → Prop := List.Forall₂ (AlikeStep t)

/-- Fragments of one kind with alike code. -/
inductive AlikeFragment (t : Target) : Fragment → Fragment → Prop
  | steps {own own' : List Step} (alike : AlikeSteps t own own') :
    AlikeFragment t (.statement (.steps own)) (.statement (.steps own'))
  | design {own own' : List Step} (alike : AlikeSteps t own own') :
    AlikeFragment t (.statement (.design [] own)) (.statement (.design [] own'))
  | expression (order : Order) {x y : String} (alike : AlikeCode t x y) :
    AlikeFragment t (.expression x order) (.expression y order)

theorem alikeSteps_own {x y x' y' : String} (id : AlikeCode t x y) (skip : AlikeCode t x' y') :
    AlikeSteps t (ownSteps x x') (ownSteps y y') := by
  rw [ownSteps, ownSteps, id.isEmptyLiteral_eq, skip.isBlankText_eq]
  refine List.rel_append ?_ ?_
  · split
    · exact .nil
    · exact .cons (.setId id) .nil
  · split
    · exact .nil
    · exact .cons (.setSkip skip) .nil

private theorem comment_off (off : s.comments = false) (text : String) : s.comment text = [] := by
  rw [Style.comment, off]
  rfl

theorem alikeSteps_attribute (off : s.comments = false) {x y x' y' : String} (key : AlikeCode s.target x y)
    (value : AlikeCode s.target x' y') : AlikeSteps s.target (attributeSteps s x x') (attributeSteps s y y') := by
  rw [attributeSteps, attributeSteps, key.isEmptyLiteral_eq, value.isEmptyLiteral_eq, comment_off off]
  split
  · exact .nil
  · exact .cons (.add key value) .nil

theorem alikeSteps_selfReference (off : s.comments = false) (d : Descriptor) (key : String) :
    AlikeSteps s.target (selfReferenceSteps s d key) (selfReferenceSteps s d.outline (blot key)) := by
  rw [selfReferenceSteps, selfReferenceSteps, comment_off off, comment_off off]
  exact .cons (.add (.quote (isEmpty_blot key).symm) (.quote (Descriptor.isEmpty_blotIdentifier d.identifier).symm)) .nil

theorem alikeSteps_input (off : s.comments = false) (name pid : String) {x y : String} (value : AlikeCode s.target x y) :
    AlikeSteps s.target (inputSteps s name pid x) (inputSteps s name (blot pid) y) := by
  rw [inputSteps, inputSteps, value.isEmptyLiteral_eq, comment_off off]
  split
  · exact .nil
  · exact .cons (.add (.quote (isEmpty_blot pid).symm) value) .nil

/-! ## Code of blocks -/

/-- An expression in a slot; a statement is refused with what identifies the block. -/
theorem both_valueCode (b : Block) {f f' : Fragment} (alike : AlikeFragment t f f') :
    Both (AlikeCode t) (valueCode b f) (valueCode b.outline f') := by
  cases alike with
  | steps => rw [valueCode, valueCode, id_outline, type_outline]; exact .error _
  | design => rw [valueCode, valueCode, id_outline, type_outline]; exact .error _
  | expression order alike =>
    rw [valueCode, valueCode, alike.isEmpty_eq]
    refine .ok ?_
    split
    · exact alike
    · exact AlikeCode.between (by decide) alike (by decide)

theorem alike_literalCode (t : Target) (value : Literal) :
    AlikeCode t (literalCode t value) (literalCode t (literalOutline value)) := by
  cases value with
  | text text => exact .quote (isEmpty_blot text).symm
  | number n => exact .of_plain (plain_number n)
  | truth b => exact .of_plain (by cases t <;> cases b <;> decide)
  | null => exact .of_plain (by cases t <;> decide)

private theorem plain_level (s : Style) : Plain s.level.toList := by
  intro c inside
  rw [Style.eq_of_mem_level inside]
  rfl

theorem alike_listCode (s : Style) {items items' : List String} (alike : List.Forall₂ (AlikeCode s.target) items items') :
    AlikeCode s.target (listCode s items) (listCode s items') := by
  cases alike with
  | nil => exact AlikeCode.of_plain (x := "[]") (by decide)
  | cons first rest =>
    have comma : Plain ", ".toList := by decide
    have lines := (AlikeCode.intercalate comma (.cons first rest)).indent (plain_level s)
    exact .between (by decide) lines (by decide)

mutual

-- A text goes into code through a literal only, and what is left out of the code or turned around in it
-- is decided on code that is alike.
theorem both_fragment (off : s.comments = false) : ∀ b : Block,
    Both (AlikeFragment s.target) (fragment s b) (fragment s b.outline)
  | .record _ localId skip body => by
    rw [outline, fragment, fragment, nestedRecord_outline, comment_off off, comment_off off]
    split
    · exact .error _
    · exact (both_slot off localId).bind fun own => (both_skip off skip).bind fun condition =>
        (both_body off _ body).bind fun steps => .ok (.design (List.rel_append (alikeSteps_own own condition) steps))
  | .attr _ key value => by
    rw [outline, fragment, fragment]
    exact (both_slot off key).bind fun key => (both_slot off value).bind fun value =>
      .ok (.steps (alikeSteps_attribute off key value))
  | .profile _ descriptor inputs => by
    rw [outline, fragment, fragment, contract_outline]
    cases contract descriptor with
    | error gap => exact .error _
    | ok complete =>
      exact (both_inputs off complete.1 inputs).bind fun steps =>
        .ok (.steps (List.rel_append (alikeSteps_selfReference off _ _) steps))
  | .fieldQuery _ _ query => by
    rw [outline, fragment, fragment]
    exact .ok (.expression _ (AlikeCode.queryCall .pointer (.quote (isEmpty_blot query).symm)))
  | .slotQuery _ form query => by
    rw [outline, fragment, fragment]
    refine (both_slot off query).bind fun code => .ok (.expression _ ?_)
    rw [code.isEmpty_eq]
    split
    · exact .of_plain (by decide)
    · exact code.queryCall _
  | .stop _ message => by
    rw [outline, fragment, fragment]
    refine (both_slot off message).bind fun code => .ok (.expression _ (AlikeCode.stopCall ?_))
    rw [code.isBlankText_eq]
    split
    · exact .quote rfl
    · exact code
  | .log _ description value => by
    rw [outline, fragment, fragment]
    exact (both_slot off value).bind fun code =>
      .ok (.expression _ (code.orNull.logCall (.quote (isEmpty_blot description).symm)))
  | .otherwise _ value other => by
    rw [outline, fragment, fragment]
    exact (both_slot off value).bind fun value => (both_slot off other).bind fun other =>
      .ok (.expression _ (value.orNull.otherwiseCall other.orNull))
  | .backlink _ key => by
    rw [outline, fragment, fragment]
    refine (both_slot off key).bind fun code => .ok (.expression _ ?_)
    rw [code.isEmptyLiteral_eq]
    split
    · exact .of_plain (by decide)
    · exact code.backlinkCall
  | .reference _ pid => by
    rw [outline, fragment, fragment, isEmpty_blot]
    refine .ok (.expression _ ?_)
    split
    · exact .of_plain (by decide)
    · exact .quote (isEmpty_blot pid).symm
  | .literal _ value => by
    rw [outline, fragment, fragment]
    exact .ok (.expression _ (alike_literalCode s.target value))
  | .list _ items => by
    rw [outline, fragment, fragment]
    exact (both_items off items).bind fun codes => .ok (.expression _ (alike_listCode s codes))

theorem both_slot (off : s.comments = false) : ∀ slot : Option Block,
    Both (AlikeCode s.target) (slotCode s slot) (slotCode s (outlineSlot slot))
  | none => by
    rw [outlineSlot, slotCode]
    exact .ok (.of_plain (by decide))
  | some b => by
    rw [outlineSlot, slotCode, slotCode]
    exact (both_fragment off b).bind fun alike => both_valueCode b alike

theorem both_skip (off : s.comments = false) : ∀ skip : Option (Option Block),
    Both (AlikeCode s.target) (skipCode s skip) (skipCode s (outlineSkip skip))
  | none => by
    rw [outlineSkip, skipCode]
    exact .ok (.of_plain (by decide))
  | some slot => by
    rw [outlineSkip, skipCode, skipCode]
    exact both_slot off slot

theorem both_body (off : s.comments = false) (outer : String) : ∀ body : List Block,
    Both (AlikeSteps s.target) (bodySteps s outer body) (bodySteps s outer (outlineAll body))
  | [] => by
    rw [outlineAll, bodySteps]
    exact .ok .nil
  | b :: rest => by
    rw [outlineAll, bodySteps, bodySteps, id_outline, type_outline]
    refine (both_fragment off b).bind fun alike => ?_
    cases alike with
    | steps own => exact (both_body off outer rest).bind fun more => .ok (List.rel_append own more)
    | design => exact .error _
    | expression => exact .error _

theorem both_inputs (off : s.comments = false) (d : Descriptor) : ∀ inputs : List (String × Block),
    Both (AlikeSteps s.target) (inputsSteps s d inputs) (inputsSteps s d.outline (outlineInputs inputs))
  | [] => by
    rw [outlineInputs, inputsSteps, inputsSteps]
    exact .ok .nil
  | (name, b) :: rest => by
    rw [outlineInputs, inputsSteps, inputsSteps, Descriptor.pidFor_outline]
    cases d.pidFor? name with
    | none => exact both_inputs off d rest
    | some pid =>
      exact (both_fragment off b).bind fun alike => (both_valueCode b alike).bind fun value =>
        (both_inputs off d rest).bind fun more => .ok (List.rel_append (alikeSteps_input off name pid value) more)

theorem both_items (off : s.comments = false) : ∀ items : List Block,
    Both (List.Forall₂ (AlikeCode s.target)) (itemCodes s items) (itemCodes s (outlineAll items))
  | [] => by
    rw [outlineAll, itemCodes]
    exact .ok .nil
  | b :: rest => by
    rw [outlineAll, itemCodes, itemCodes, id_outline, type_outline]
    refine (both_fragment off b).bind fun alike => ?_
    cases alike with
    | steps => exact .error _
    | design => exact .error _
    | expression _ code =>
      refine (both_items off rest).bind fun more => .ok ?_
      rw [code.isEmpty_eq]
      split
      · exact more
      · exact .cons code more

end

/-! ## Whole programs -/

theorem alike_step {a b : Step} (alike : AlikeStep t a b) : AlikeCode t (a.render t) (b.render t) := by
  cases alike with
  | setId id => exact id.setId
  | setSkip condition => exact condition.setSkip
  | add key value => exact key.addAttribute value

/-- Texts made of alike steps one by one, put behind each other. -/
private theorem alike_joined {own own' : List Step} (alike : AlikeSteps t own own') {place : String → String}
    (placed : ∀ {x y}, AlikeCode t x y → AlikeCode t (place x) (place y)) :
    AlikeCode t (String.join (own.map fun step => place (step.render t)))
      (String.join (own'.map fun step => place (step.render t))) := by
  refine .join ?_
  rw [List.forall₂_map_left_iff, List.forall₂_map_right_iff]
  exact alike.imp fun _ _ step => placed (alike_step step)

theorem alike_topCode {f f' : Fragment} (alike : AlikeFragment s.target f f') :
    AlikeCode s.target (topCode s f) (topCode s f') := by
  cases alike with
  | steps own => exact alike_joined own fun code => code
  | design own =>
    have inside := alike_joined own (AlikeCode.indent (plain_level s))
    have opened : AlikeCode s.target s.target.designOpen s.target.designOpen := .of_plain (by cases s.target <;> decide)
    have closed : AlikeCode s.target s.target.designClose s.target.designClose := .of_plain (by cases s.target <;> decide)
    exact (((AlikeCode.join .nil).append opened).append inside).append closed
  | expression order code =>
    rw [topCode, topCode, code.isEmpty_eq]
    split
    · exact .of_plain (by decide)
    · exact code.nakedValue

theorem both_chainCode (off : s.comments = false) (chain : List Block) :
    Both (AlikeCode s.target) (chainCode s chain) (chainCode s (outlineAll chain)) := by
  induction chain with
  | nil =>
    rw [outlineAll, chainCode]
    exact .ok (.of_plain (by decide))
  | cons b rest ih =>
    rw [outlineAll, chainCode, chainCode]
    exact (both_fragment off b).bind fun code => ih.bind fun more => .ok ((alike_topCode code).append more)

theorem both_graphCode (off : s.comments = false) (g : Graph) :
    Both (AlikeCode s.target) (graphCode s g) (graphCode s g.outline) := by
  have chains : List.Forall₂ (fun c c' => Both (AlikeCode s.target) (chainCode s c) (chainCode s c'))
      g.chains g.outline.chains := by
    rw [Graph.outline, List.forall₂_map_right_iff, List.forall₂_same]
    exact fun chain _ => both_chainCode off chain
  refine (Both.mapM chains).bind fun codes => .ok (.intercalate (by decide) (List.rel_filter ?_ codes))
  intro x y alike
  simp only [alike.isEmpty_eq]

private theorem plain_preamble (t : Target) : Plain (t.preambleText t.preamble).toList := by
  cases t <;> simp only [Target.preambleText, String.toList_append, String.toList_ofList, String.toList_intercalate] <;>
    decide +kernel

private theorem preamble_begins (t : Target) :
    ∃ c start, (t.preambleText t.preamble).toList = c :: start ∧ Text.isBlank c = false := by
  have first : ∃ c, (t.preambleText t.preamble).toList.head? = some c ∧ Text.isBlank c = false := by
    cases t <;> simp only [Target.preambleText, String.toList_append, String.toList_ofList, String.toList_intercalate]
    · exact ⟨'i', by decide +kernel, by decide⟩
    · exact ⟨'c', by decide +kernel, by decide⟩
  obtain ⟨c, head, shown⟩ := first
  obtain ⟨start, begins⟩ := List.head?_eq_some_iff.mp head
  exact ⟨c, start, begins, shown⟩

/-- There is nothing to tidy at the ends of a program. -/
theorem dropLeadingLines_finish (t : Target) (code : String) :
    dropLeadingLines (t.finish code t.preamble).toList = (t.finish code t.preamble).toList := by
  obtain ⟨c, start, begins, shown⟩ := preamble_begins t
  simp [dropLeadingLines, Target.finish, begins, shown]

theorem dropTrailingLines_finish (t : Target) (code : String) :
    dropTrailingLines (t.finish code t.preamble).toList = (t.finish code t.preamble).toList := by
  obtain ⟨line, d, ends, shown⟩ : ∃ line d, t.runLine.toList = line ++ [d, '\n'] ∧ Text.isBlank d = false := by
    cases t
    · exact ⟨"\nEXECUTOR.execute(".toList, ')', by decide, by decide⟩
    · exact ⟨"\nEXECUTOR.execute()".toList, ';', by decide, by decide⟩
  have feed : Text.isBlank '\n' = true := by decide
  simp [dropTrailingLines, Target.finish, ends, shown, feed]

theorem tidy_finish (t : Target) (code : String) :
    tidy (t.finish code t.preamble) = String.ofList (dropLineEndBlanks (t.finish code t.preamble).toList) := by
  rw [tidy, dropLeadingLines_finish, dropTrailingLines_finish]

/-- A graph and its outline fail alike, or come to programs that are alike. -/
theorem both_generate (off : s.comments = false) (g : Graph) :
    Both (AlikeCode s.target) (generate s g) (generate s g.outline) := by
  rw [generate, generate]
  refine (both_graphCode off g).bind fun code => .ok ?_
  have run : AlikeCode s.target s.target.runLine s.target.runLine := .of_plain (by cases s.target <;> decide)
  have whole := ((AlikeCode.of_plain (plain_preamble s.target)).append code).append run
  rw [AlikeCode, tidy_finish, tidy_finish, String.toList_ofList, String.toList_ofList]
  exact Alike.dropLineEndBlanks whole

/-- Without comments, two graphs that differ only in what is said in their texts fail alike, or come to
programs with one mask: all that is outside the string literals is the same, and so is the number and place
of the literals. -/
theorem mask_of_outline (s : Style) (g g' : Graph) (off : s.comments = false) (same : g.outline = g'.outline) :
    (∃ e, generate s g = .error e ∧ generate s g' = .error e) ∨
      ∃ program program' mask, generate s g = .ok program ∧ generate s g' = .ok program' ∧
        masked? program = some mask ∧ masked? program' = some mask := by
  have first := both_generate off g
  have second := both_generate off g'
  rw [← same] at second
  generalize generate s g = result at first
  generalize generate s g' = result' at second
  generalize generate s g.outline = outlined at first second
  cases first with
  | error e =>
    cases second
    exact .inl ⟨e, rfl, rfl⟩
  | ok alike =>
    cases second with
    | ok alike' =>
      obtain ⟨mask, whole, plan⟩ := masked_of_alike alike
      obtain ⟨mask', whole', plan'⟩ := masked_of_alike alike'
      rw [plan] at plan'
      cases plan'
      exact .inr ⟨_, _, mask, rfl, rfl, whole, whole'⟩

/-- A record with an attribute and a profile, and a list that is logged; all their texts but names are open. -/
def survey (own key value query label profile kind license reference : String) : Graph :=
  ⟨[[.record "r" (some (.literal "own" (.text own))) none
      [.attr "a" (some (.literal "k" (.text key)))
        (some (.otherwise "o" (some (.fieldQuery "q" .pointer query)) (some (.literal "v" (.text value))))),
      .profile "p" (some ⟨profile, some "Survey", some kind, [⟨"license", license⟩]⟩)
        [("license", .reference "ref" reference)]]],
    [.log "l" label (some (.list "items" [.literal "x" (.text value), .literal "y" (.number (.int 3))]))]]⟩

/-- A survey with plain texts. -/
def plainSurvey : Graph := survey "u1" "title" "none" "/title" "seen" "21.T1/s" "profile" "21.T1/l" "21.T1/r"

/-- A survey with texts that look like code, end lines or hold quotation marks. -/
def hostileSurvey : Graph :=
  survey "')\nEXECUTOR.execute()" "BackwardLinkFor(" "\x22" "\\" "# " "\n\nx" "''" "new BackwardLinkFor('" "  "

theorem surveys_masked : plainSurvey.outline = hostileSurvey.outline ∧
    ∃ program program' mask, generate ⟨.python, 2, false⟩ plainSurvey = .ok program ∧
      generate ⟨.python, 2, false⟩ hostileSurvey = .ok program' ∧
      masked? program = some mask ∧ masked? program' = some mask := by
  have same : plainSurvey.outline = hostileSurvey.outline := rfl
  have came : (generate ⟨.python, 2, false⟩ plainSurvey).isOk = true := by decide +kernel
  refine ⟨same, ?_⟩
  rcases mask_of_outline ⟨.python, 2, false⟩ _ _ rfl same with ⟨e, failed, _⟩ | made
  · rw [failed] at came
    cases came
  · exact made

end RecordMapper.Proofs.Noninterference
