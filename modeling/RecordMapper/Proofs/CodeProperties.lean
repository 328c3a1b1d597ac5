import RecordMapper.Proofs.TwoLanguages

/-!
# Properties of code

A property of code that is kept wherever code is put into other code holds of the code of every expression and
of all that calls are given (`code_of_fragment`, `given_of_fragment`): it is a relation between the code of one
block in two styles, with one style taken twice. A property of texts that steps with such code have, and that
is kept when texts are put behind each other or into a design, holds of the code of a whole graph
(`Carries.graphCode`).
-/

namespace RecordMapper.Proofs.CodeProperties
open RecordMapper.Program RecordMapper.Block RecordMapper.Proofs.TwoStyles RecordMapper.Proofs.TwoLanguages
open RecordMapper.Proofs.CommentLines (placed)

variable {s : Style} {P Q : String → Prop}

/-- A property of code that holds of the literals, and of what code with the property is put into. -/
abbrev Closed (s : Style) (P : String → Prop) : Prop := Kept s s fun x _ => P x

/-- A step that is given code with a property, and is a comment only if comments are wanted. -/
def Given (s : Style) (P : String → Prop) : Step → Prop
  | .comment _ => s.comments = true
  | .setId own => P own ∧ isEmptyLiteral own = false
  | .setSkip condition => P condition
  | .add key value => P key ∧ P value

/-! ## Blocks -/

theorem alike_of_fragment (closed : Closed s P) {b : Block} {f : Fragment} (came : fragment s b = .ok f) :
    AlikeFragment (fun x _ => P x) f f := by
  have both := both_fragment closed b
  rw [came] at both
  cases both with
  | ok alike => exact alike

theorem code_of_fragment (closed : Closed s P) {b : Block} {code : String} {order : Order}
    (came : fragment s b = .ok (.expression code order)) : P code := by
  cases alike_of_fragment closed came with
  | expression _ code => exact code

theorem given_of_alike {cs cs' : List Step} (each : List.Forall₂ (AlikeCall fun x _ => P x) cs cs') :
    ∀ step ∈ cs, Given s P step := by
  induction each with
  | nil => exact List.forall_mem_nil _
  | cons first _ ih =>
    refine List.forall_mem_cons.mpr ⟨?_, ih⟩
    cases first with
    | setId own told _ => exact ⟨own, told⟩
    | setSkip condition => exact condition
    | add key value => exact ⟨key, value⟩

/-- Without comments, there are only calls. -/
theorem calls_of_fragment (off : s.comments = false) {b : Block} {st : Statement}
    (came : fragment s b = .ok (.statement st)) : ∀ step ∈ stepsOf st, isCall step = true := by
  have each {own own' : List Step} (alike : Noninterference.AlikeSteps s.target own own') : ∀ step ∈ own, isCall step = true := by
    induction alike with
    | nil => exact List.forall_mem_nil _
    | cons first _ ih =>
      refine List.forall_mem_cons.mpr ⟨?_, ih⟩
      cases first <;> rfl
  have both := Noninterference.both_fragment off b
  rw [came] at both
  generalize fragment s b.outline = result at both
  cases both with
  | ok alike =>
    cases alike with
    | steps own => exact each own
    | design own => exact each own

theorem given_of_fragment (closed : Closed s P) {b : Block} {st : Statement} (came : fragment s b = .ok (.statement st)) :
    ∀ step ∈ stepsOf st, Given s P step := by
  have ofCalls : ∀ step ∈ calls (stepsOf st), Given s P step := by
    cases alike_of_fragment closed came with
    | steps own => exact given_of_alike own.calls
    | design comments _ own =>
      rw [stepsOf, calls_append, comments]
      exact given_of_alike own.calls
  intro step inside
  cases called : isCall step with
  | true => exact ofCalls step (List.mem_filter.mpr ⟨inside, called⟩)
  | false =>
    cases step with
    | comment text =>
      cases wanted : s.comments with
      | true => exact wanted
      | false =>
        have call := calls_of_fragment wanted came _ inside
        cases call
    | setId => cases called
    | setSkip => cases called
    | add => cases called

/-! ## Graphs -/

/-- A property of texts that comes from a property of the code in them. -/
structure Carries (s : Style) (P Q : String → Prop) : Prop where
  nothing : Q ""
  append {x y : String} : Q x → Q y → Q (x ++ y)
  feed : Q "\n"
  naked {code : String} : P code → Q (s.target.nakedValue code)
  placed {step : Step} (inRecord : Bool) : Given s P step → Q (placed s inRecord step)
  enclosed {x : String} : Q x → Q (s.target.designOpen ++ x ++ s.target.designClose)

namespace Carries

variable (carries : Carries s P Q)
include carries

theorem steps (inRecord : Bool) {own : List Step} (given : ∀ step ∈ own, Given s P step) :
    Q (String.join (own.map (CommentLines.placed s inRecord))) := by
  induction own with
  | nil => exact carries.nothing
  | cons step own ih =>
    obtain ⟨first, later⟩ := List.forall_mem_cons.mp given
    rw [List.map_cons, String.join_cons]
    exact carries.append (carries.placed inRecord first) (ih later)

theorem statement {st : Statement} (given : ∀ step ∈ stepsOf st, Given s P step) : Q (st.render s) := by
  cases st with
  | steps own => exact carries.steps false given
  | design heading own =>
    obtain ⟨headings, inside⟩ := List.forall_mem_append.mp given
    have design := carries.enclosed (carries.steps true inside)
    have whole := carries.append (carries.steps false headings) design
    rwa [← String.append_assoc, ← String.append_assoc] at whole

theorem topCode (closed : Closed s P) {b : Block} {f : Fragment} (came : fragment s b = .ok f) : Q (topCode s f) := by
  cases f with
  | statement st => exact carries.statement (given_of_fragment closed came)
  | expression code order =>
    rw [Program.topCode]
    split
    · exact carries.nothing
    · exact carries.naked (code_of_fragment closed came)

theorem chainCode (closed : Closed s P) {chain : List Block} {code : String} (came : chainCode s chain = .ok code) :
    Q code := by
  induction chain generalizing code with
  | nil =>
    cases came
    exact carries.nothing
  | cons b rest ih =>
    rw [Program.chainCode] at came
    obtain ⟨f, first, came⟩ := Runs.bind_eq_ok came
    obtain ⟨more, later, came⟩ := Runs.bind_eq_ok came
    cases came
    exact carries.append (carries.topCode closed first) (ih later)

theorem chainCodes (closed : Closed s P) {chains : List (List Block)} {codes : List String}
    (came : chains.mapM (Program.chainCode s) = .ok codes) : ∀ code ∈ codes, Q code := by
  have each := Runs.mapM_eq_ok_iff.mp came
  clear came
  induction each with
  | nil => exact List.forall_mem_nil _
  | cons first _ ih => exact List.forall_mem_cons.mpr ⟨carries.chainCode closed first, ih⟩

/-- The code of a graph has the property if it comes from the code in it. -/
theorem graphCode (closed : Closed s P) {g : Graph} {code : String} (came : graphCode s g = .ok code) : Q code := by
  obtain ⟨codes, chains, came⟩ := Runs.bind_eq_ok came
  cases came
  have shown : List.Forall₂ (fun x _ => Q x) (codes.filter fun code => !code.isEmpty) (codes.filter fun code => !code.isEmpty) :=
    List.forall₂_same.mpr fun own inside => carries.chainCodes closed chains own (List.mem_filter.mp inside).1
  exact MaskedLiterals.related_intercalate carries.nothing carries.append carries.feed shown

end Carries

end RecordMapper.Proofs.CodeProperties
