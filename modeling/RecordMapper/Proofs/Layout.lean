import RecordMapper.Proofs.CodeLines
import RecordMapper.Proofs.TwoLanguages

/-!
# Layout of programs

The width of a level and the comments of blocks are layout only: the programs of a graph have the same lines
of code whatever both are (`same_code_lines`). The width is found in expressions as well, behind the line feed
that opens a list, so code is compared where it stands; comments are steps of their own, whose lines are no
code whatever the names in them hold.
-/

namespace RecordMapper.Proofs.Layout
open RecordMapper.Program RecordMapper.Block RecordMapper.Proofs.CodeLines RecordMapper.Proofs.TwoStyles
open RecordMapper.Proofs.Noninterference (Both)
open RecordMapper.Proofs.CommentLines (isSpace placed)

/-! ## Texts that are laid alike -/

/-- Two texts that are the same but for blanks that lead in their lines, wherever they stand. -/
structure Laid (x y : String) : Prop where
  text (fresh : Bool) : laid fresh x.toList = laid fresh y.toList
  state (fresh : Bool) : begunBehind fresh x.toList = begunBehind fresh y.toList

namespace Laid

variable {x y x' y' : String}

theorem refl (x : String) : Laid x x := ⟨fun _ => rfl, fun _ => rfl⟩

theorem append (first : Laid x y) (second : Laid x' y') : Laid (x ++ x') (y ++ y') where
  text fresh := by
    rw [String.toList_append, String.toList_append, laid_append, laid_append, first.text, first.state, second.text]
  state fresh := by
    rw [String.toList_append, String.toList_append, begunBehind_append, begunBehind_append, first.state, second.state]

/-- Texts between the same two others. -/
theorem between (before : String) (alike : Laid x y) (after : String) : Laid (before ++ x ++ after) (before ++ y ++ after) :=
  ((refl before).append alike).append (refl after)

theorem intercalate (separator : String) {xs ys : List String} (alike : List.Forall₂ Laid xs ys) :
    Laid (separator.intercalate xs) (separator.intercalate ys) :=
  MaskedLiterals.related_intercalate (refl "") append (refl separator) alike

/-- Texts that are indented behind the same text, which ends a line. -/
theorem indent {lead lead' before after : String} (blank : ∀ c ∈ lead.toList, isSpace c = true)
    (blank' : ∀ c ∈ lead'.toList, isSpace c = true) (fed : ∀ fresh, begunBehind fresh before.toList = true)
    (alike : Laid x y) :
    Laid (before ++ Program.indent x lead ++ after) (before ++ Program.indent y lead' ++ after) := by
  obtain ⟨text, state⟩ := laid_indent blank x
  obtain ⟨text', state'⟩ := laid_indent blank' y
  constructor
  · intro fresh
    simp only [String.toList_append, laid_append, begunBehind_append, fed, text, text', state, state', alike.text, alike.state]
  · intro fresh
    simp only [String.toList_append, begunBehind_append, fed, state, state', alike.state]

theorem codeLines_eq (t : Target) (alike : Laid x y) : codeLines t x.toList = codeLines t y.toList := by
  rw [← codeLines_laid, alike.text, codeLines_laid]

theorem isBacklink_eq (t : Target) (alike : Laid x y) : t.isBacklink x = t.isBacklink y := by
  have whole : '\n' ∉ t.backlinkOpen.toList := by cases t <;> decide
  rw [Target.isBacklink, Target.isBacklink, ← isPrefixOf_laid whole, alike.text, isPrefixOf_laid whole]

theorem thunk (t : Target) (alike : Laid x y) : Laid (t.thunk x) (t.thunk y) := by
  cases t <;> exact (refl _).append alike

end Laid

/-! ## Blocks -/

theorem isSpace_level (s : Style) : ∀ c ∈ s.level.toList, isSpace c = true := by
  intro c inside
  rw [Style.eq_of_mem_level inside]
  rfl

theorem laid_listCode (s s' : Style) {xs ys : List String} (alike : List.Forall₂ Laid xs ys) :
    Laid (listCode s xs) (listCode s' ys) := by
  cases alike with
  | nil =>
    have empty (s : Style) : listCode s [] = "[]" := rfl
    rw [empty, empty]
    exact .refl _
  | cons first rest =>
    exact (Laid.intercalate ", " (.cons first rest)).indent (isSpace_level s) (isSpace_level s') fun fresh => rfl

variable {t : Target}

/-- In one language, code is laid alike whatever the width of a level is. -/
theorem kept_laid (t : Target) (w w' : Nat) (c c' : Bool) : Kept ⟨t, w, c⟩ ⟨t, w', c'⟩ Laid where
  nothing := .refl _
  literal _ := .refl _
  enclosed alike := .between _ alike _
  query language _ _ alike := by cases t <;> cases language <;> exact .between _ alike _
  stop alike := by cases t <;> exact .between _ alike _
  log value description := (((Laid.refl _).append value).append (.refl _)).append description |>.append (.refl _)
  otherwise value other :=
    (((Laid.refl _).append (value.thunk t)).append (.refl _)).append (other.thunk t) |>.append (.refl _)
  backlink alike := .between _ alike _
  list alike := laid_listCode _ _ alike

theorem laid_render (t : Target) {a b : Step} (alike : AlikeCall Laid a b) : Laid (a.render t) (b.render t) := by
  cases alike with
  | @setId x y id told told' =>
    have text : Laid (t.textCall x) (t.textCall y) := by cases t <;> exact .between _ id _
    rw [Step.render, Step.render, Target.setId, Target.setId, told, told']
    exact .between _ (text.thunk t) _
  | setSkip condition => exact .between _ (condition.thunk t) _
  | add key value =>
    rw [Step.render, Step.render, Target.addAttribute_eq, Target.addAttribute_eq, value.isBacklink_eq t]
    refine ((((Laid.refl _).append key).append (.refl _)).append ?_).append (.refl _)
    split
    · exact value
    · exact value.thunk t

/-! ## Steps -/

/-- The lines of code of a call. -/
def stepLines (t : Target) (step : Step) : List (List Char) := codeLines t (step.render t).toList.dropLast

theorem render_ends (t : Target) {step : Step} (call : isCall step = true) (told : Told step) :
    (step.render t).toList = (step.render t).toList.dropLast ++ ['\n'] := by
  have ends (text : String) : (text ++ ")\n").toList = (text ++ ")\n").toList.dropLast ++ ['\n'] := by
    have mark : (")\n" : String).toList = [')'] ++ ['\n'] := rfl
    rw [String.toList_append, mark, ← List.append_assoc, List.dropLast_concat]
  cases step with
  | comment text => cases call
  | setId code =>
    rw [Step.render, Target.setId, told code rfl]
    exact ends _
  | setSkip condition => exact ends _
  | add key value => exact ends _

theorem adds_call (s : Style) (inRecord : Bool) {step : Step} (call : isCall step = true) (told : Told step) :
    Adds s.target (placed s inRecord step).toList (stepLines s.target step) := by
  have ends := render_ends s.target call told
  cases inRecord with
  | true => exact .indented s.target ends (isSpace_level s)
  | false =>
    rw [placed, if_neg Bool.false_ne_true, ends]
    exact .ended s.target _

/-- A comment adds nothing, whatever its text is. -/
theorem adds_comment (s : Style) (inRecord : Bool) (text : String) :
    Adds s.target (placed s inRecord (.comment text)).toList [] := by
  obtain ⟨lead, blank, written⟩ := CommentLines.placed_comment s inRecord text
  rw [written]
  refine .joined fun line inside => ?_
  obtain ⟨own, member, rfl⟩ := List.mem_map.mp inside
  exact codeLines_comment s.target blank (PathTexts.not_mem_of_mem_splitOn member)

/-- The text of steps, where they stand, adds the lines of code of their calls. -/
theorem adds_steps (s : Style) (inRecord : Bool) {own : List Step} (told : ∀ step ∈ calls own, Told step) :
    Adds s.target (String.join (own.map (placed s inRecord))).toList ((calls own).flatMap (stepLines s.target)) := by
  rw [String.toList_join, List.flatMap_map]
  induction own with
  | nil => exact .nil _
  | cons step own ih =>
    rw [List.flatMap_cons]
    cases called : isCall step with
    | true =>
      have some : calls (step :: own) = step :: calls own := List.filter_cons_of_pos called
      rw [some] at told ⊢
      obtain ⟨first, later⟩ := List.forall_mem_cons.mp told
      exact (adds_call s inRecord called first).append (ih later)
    | false =>
      have none : calls (step :: own) = calls own := List.filter_cons_of_neg (by simp [called])
      rw [none] at told ⊢
      cases step with
      | comment text => exact (adds_comment s inRecord text).append (ih told)
      | setId => cases called
      | setSkip => cases called
      | add => cases called

theorem stepLines_eq {a b : Step} (alike : AlikeCall Laid a b) : stepLines t a = stepLines t b := by
  have called : isCall a = true ∧ isCall b = true := by cases alike <;> exact ⟨rfl, rfl⟩
  have told := told_of_alikeCall alike
  have same := (laid_render t alike).codeLines_eq t
  rw [render_ends t called.1 told.1, render_ends t called.2 told.2, codeLines_append_feed, codeLines_append_feed] at same
  exact List.append_cancel_right same

theorem flatMap_stepLines {cs cs' : List Step} (each : List.Forall₂ (AlikeCall Laid) cs cs') :
    cs.flatMap (stepLines t) = cs'.flatMap (stepLines t) := by
  induction each with
  | nil => rfl
  | cons first _ ih => rw [List.flatMap_cons, List.flatMap_cons, stepLines_eq first, ih]

/-! ## Programs -/

/-- Two texts that add the same lines of code. -/
def SameCode (t : Target) (x y : String) : Prop := ∃ lines, Adds t x.toList lines ∧ Adds t y.toList lines

namespace SameCode

variable {x y x' y' : String}

theorem nothing (t : Target) : SameCode t "" "" := ⟨[], .nil t, .nil t⟩

theorem append (first : SameCode t x y) (second : SameCode t x' y') : SameCode t (x ++ x') (y ++ y') := by
  obtain ⟨lines, adds, adds'⟩ := first
  obtain ⟨more, addsMore, addsMore'⟩ := second
  exact ⟨lines ++ more, by simpa using adds.append addsMore, by simpa using adds'.append addsMore'⟩

/-- A text that ends a line. -/
theorem of_ends (t : Target) (ends : x.toList.getLast? = some '\n') : SameCode t x x := by
  obtain ⟨body, written⟩ := List.getLast?_eq_some_iff.mp ends
  have adds : Adds t x.toList (codeLines t body) := by
    rw [written]
    exact .ended t body
  exact ⟨_, adds, adds⟩

theorem of_laid (t : Target) (alike : Laid x y) : SameCode t (x ++ "\n") (y ++ "\n") := by
  refine ⟨codeLines t x.toList, ?_, ?_⟩
  · rw [String.toList_append]
    exact .ended t _
  · rw [String.toList_append, alike.codeLines_eq t]
    exact .ended t _

end SameCode

variable (w w' : Nat) (c c' : Bool)

/-- Steps add the same lines of code where they stand. -/
theorem sameCode_steps (inRecord : Bool) {own own' : List Step} (alike : AlikeSteps Laid own own') :
    SameCode t (String.join (own.map (placed ⟨t, w, c⟩ inRecord)))
      (String.join (own'.map (placed ⟨t, w', c'⟩ inRecord))) := by
  have told := told_of_alike alike.calls
  refine ⟨_, adds_steps ⟨t, w, c⟩ inRecord told.1, ?_⟩
  rw [flatMap_stepLines alike.calls]
  exact adds_steps ⟨t, w', c'⟩ inRecord told.2

theorem renderSteps_eq (s : Style) (own : List Step) :
    renderSteps s.target own = String.join (own.map (placed s false)) := by
  have here : placed s false = Step.render s.target := rfl
  rw [renderSteps, here]

theorem render_design (s : Style) (heading own : List Step) :
    (Statement.design heading own).render s = String.join (heading.map (placed s false)) ++ s.target.designOpen ++
      String.join (own.map (placed s true)) ++ s.target.designClose := by
  have inside : placed s true = fun step => indent (step.render s.target) s.level := rfl
  rw [Statement.render, renderSteps_eq, inside]

theorem adds_heading (s : Style) {heading : List Step} (comments : calls heading = []) :
    Adds s.target (String.join (heading.map (placed s false))).toList [] := by
  have none : ∀ step ∈ calls heading, Told step := by
    rw [comments]
    exact List.forall_mem_nil _
  have adds := adds_steps s false none
  rwa [comments] at adds

theorem sameCode_statement {st st' : Statement} (alike : AlikeFragment Laid (.statement st) (.statement st')) :
    SameCode t (st.render ⟨t, w, c⟩) (st'.render ⟨t, w', c'⟩) := by
  cases alike with
  | steps own =>
    rw [Statement.render, Statement.render, renderSteps_eq, renderSteps_eq]
    exact sameCode_steps w w' c c' false own
  | @design heading heading' _ _ comments comments' own =>
    have headings : SameCode t (String.join (heading.map (placed ⟨t, w, c⟩ false)))
        (String.join (heading'.map (placed ⟨t, w', c'⟩ false))) :=
      ⟨[], adds_heading ⟨t, w, c⟩ comments, adds_heading ⟨t, w', c'⟩ comments'⟩
    have opened : SameCode t t.designOpen t.designOpen := .of_ends t (by cases t <;> decide)
    have closed : SameCode t t.designClose t.designClose := .of_ends t (by cases t <;> decide)
    rw [render_design, render_design]
    exact ((headings.append opened).append (sameCode_steps w w' c c' true own)).append closed

theorem sameCode_naked {x y : String} (alike : Laid x y) : SameCode t (t.nakedValue x) (t.nakedValue y) := by
  cases t with
  | python => exact .of_laid _ alike
  | javaScript =>
    have ended (code : String) : Target.javaScript.nakedValue code = code ++ ";" ++ "\n" := by
      rw [String.append_assoc]
      rfl
    rw [ended, ended]
    exact .of_laid _ (alike.append (.refl ";"))

/-- Two texts that add the same lines of code, and are empty both or neither. -/
structure Piece (t : Target) (x y : String) : Prop where
  code : SameCode t x y
  text : x = "" ↔ y = ""

theorem Piece.append {x y x' y' : String} (first : Piece t x y) (second : Piece t x' y') : Piece t (x ++ x') (y ++ y') where
  code := first.code.append second.code
  text := by rw [String.append_eq_empty_iff, String.append_eq_empty_iff, first.text, second.text]

theorem piece_topCode {b : Block} {f f' : Fragment} (came : fragment ⟨t, w, c⟩ b = .ok f)
    (came' : fragment ⟨t, w', c'⟩ b = .ok f') (alike : AlikeFragment Laid f f') :
    Piece t (topCode ⟨t, w, c⟩ f) (topCode ⟨t, w', c'⟩ f') := by
  refine ⟨?_, TwoLanguages.topCode_eq_empty_iff (TwoLanguages.sameDesign_of_came came came')⟩
  cases alike with
  | steps own => exact sameCode_statement w w' c c' (.steps own)
  | design comments comments' own => exact sameCode_statement w w' c c' (.design comments comments' own)
  | expression order code =>
    rw [topCode, topCode, isEmpty_of_fragment came came']
    split
    · exact .nothing t
    · exact sameCode_naked code

theorem both_graphCode (g : Graph) : Both (SameCode t) (graphCode ⟨t, w, c⟩ g) (graphCode ⟨t, w', c'⟩ g) := by
  have chains : Both (List.Forall₂ (Piece t)) (g.chains.mapM (chainCode ⟨t, w, c⟩)) (g.chains.mapM (chainCode ⟨t, w', c'⟩)) :=
    both_chains (kept_laid t w w' c c') ⟨.nothing t, Iff.rfl⟩ .append (piece_topCode w w' c c') g
  have feed : SameCode t "\n" "\n" := .of_ends t (by decide)
  refine chains.bind fun codes => .ok (MaskedLiterals.related_intercalate (.nothing t) .append feed ?_)
  refine (List.rel_filter ?_ codes).imp fun _ _ piece => piece.code
  intro x y piece
  simp [piece.text]

/-- Around the same code, the preamble and the line that runs it make a program with the same lines of code, and
so does what is tidied in it. -/
theorem codeLines_tidy {code code' : String} (same : SameCode t code code') :
    codeLines t (tidy (t.finish code t.preamble)).toList = codeLines t (tidy (t.finish code' t.preamble)).toList := by
  have opened : SameCode t (t.preambleText t.preamble) (t.preambleText t.preamble) :=
    .of_ends t (by cases t <;> simp [Target.preambleText])
  obtain ⟨lines, adds, adds'⟩ := opened.append same
  obtain ⟨run, ends⟩ : ∃ run, t.runLine.toList = run ++ ['\n'] :=
    List.getLast?_eq_some_iff.mp (by cases t <;> decide)
  have tidied {code : String} (adds : Adds t (t.preambleText t.preamble ++ code).toList lines) :
      codeLines t (tidy (t.finish code t.preamble)).toList = (lines ++ codeLines t run).map trimEnd ++ [[]] := by
    rw [Noninterference.tidy_finish, String.toList_ofList, Target.finish, String.toList_append, ends, ← List.append_assoc,
      codeLines_dropLineEndBlanks, adds]
  rw [tidied adds, tidied adds']

/-- Whatever the width of a level is and whether blocks have comments, a graph is refused with the same error,
or has programs with the same lines of code. -/
theorem same_code_lines (t : Target) (w w' : Nat) (c c' : Bool) (g : Graph) :
    (∃ e, generate ⟨t, w, c⟩ g = .error e ∧ generate ⟨t, w', c'⟩ g = .error e) ∨
      ∃ program program', generate ⟨t, w, c⟩ g = .ok program ∧ generate ⟨t, w', c'⟩ g = .ok program' ∧
        codeLines t program.toList = codeLines t program'.toList := by
  have both : Both (fun x y => codeLines t x.toList = codeLines t y.toList)
      (generate ⟨t, w, c⟩ g) (generate ⟨t, w', c'⟩ g) :=
    (both_graphCode w w' c c' g).bind fun same => .ok (codeLines_tidy same)
  generalize generate ⟨t, w, c⟩ g = result at both ⊢
  generalize generate ⟨t, w', c'⟩ g = result' at both ⊢
  cases both with
  | error e => exact .inl ⟨e, rfl, rfl⟩
  | ok same => exact .inr ⟨_, _, rfl, rfl, same⟩

end RecordMapper.Proofs.Layout
