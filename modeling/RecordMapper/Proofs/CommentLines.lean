import RecordMapper.Proofs.SameDrops

/-!
# Lines of comments

A comment is put before each line of its text, and for that a text is cut at line feeds. A language
reads more characters as the end of a line. What stands in the text behind such a character is the start
of a line without a mark, so that a comment stays one exactly if nothing stands there or it is a comment
itself (`contained_comment_iff`). The text can be the name of a profile input, which holds anything
behind the name of a property: so a name can leave its comment (`carriage_return_leaves`).
-/

namespace RecordMapper.Proofs.CommentLines
open RecordMapper.Program RecordMapper.Block RecordMapper.Proofs.EmptyCode RecordMapper.Proofs.SameDrops

/-- The characters at which a language reads the end of a line. -/
def endsLine : Target → Char → Bool
  | .python, c => c == '\n' || c == '\x0d'
  | .javaScript, c => c == '\n' || c == '\x0d' || c == '\u2028' || c == '\u2029'

/-- The lines of a text as a language reads it. -/
def linesOf (t : Target) (cs : List Char) : List (List Char) := cs.splitOnP (endsLine t)

/-- The mark of a comment, without the blank that is written behind it. -/
def mark : Target → List Char
  | .python => ['#']
  | .javaScript => ['/', '/']

/-- The blanks that may stand before the mark of a comment. -/
def isSpace (c : Char) : Bool := c == ' ' || c == '\t'

/-- A line with nothing on it but a comment. -/
def Commented (t : Target) (line : List Char) : Prop := line = [] ∨ mark t <+: line.dropWhile isSpace

/-- A text of which every line is a comment. -/
def Contained (t : Target) (text : String) : Prop := ∀ line ∈ linesOf t text.toList, Commented t line

/-- What stands in a text behind the end of a line that is no line feed, up to the next end. -/
def strays (t : Target) (text : String) : List (List Char) :=
  (text.toList.splitOn '\n').flatMap fun line => (linesOf t line).tail

/-! ## Lines that are put together -/

/-- Lines with a line feed behind each, as one text. -/
def joined (lines : List (List Char)) : List Char := lines.flatMap (· ++ ['\n'])

private theorem joined_eq {lines : List (List Char)} (some : lines ≠ []) :
    joined lines = ['\n'].intercalate lines ++ ['\n'] := by
  induction lines with
  | nil => exact absurd rfl some
  | cons line rest ih =>
    cases rest with
    | nil => simp [joined]
    | cons next rest =>
      rw [joined, List.flatMap_cons, ← joined, ih (by simp), List.intercalate_cons_cons]
      simp

/-- Lines that are indented have the lead before each. -/
theorem indent_joined {lines : List (List Char)} (whole : ∀ line ∈ lines, '\n' ∉ line) (some : lines ≠ [])
    {text : String} (written : text.toList = joined lines) (lead : String) :
    (indent text lead).toList = joined (lines.map (lead.toList ++ ·)) := by
  have led : ∀ lines : List (List Char), lines ≠ [] → (∀ line ∈ lines, '\n' ∉ line) →
      lead.toList ++ afterLineFeeds lead.toList (['\n'].intercalate lines) ++ ['\n'] =
        joined (lines.map (lead.toList ++ ·)) := by
    intro lines some whole
    induction lines with
    | nil => exact absurd rfl some
    | cons line rest ih =>
      obtain ⟨first, later⟩ := List.forall_mem_cons.mp whole
      cases rest with
      | nil => simp [joined, afterLineFeeds_of_whole first]
      | cons next rest =>
        have tail := ih (by simp) later
        have lineEnds : line ++ ['\n'] ++ ['\n'].intercalate (next :: rest) =
            line ++ '\n' :: ['\n'].intercalate (next :: rest) := by simp
        rw [List.intercalate_cons_cons, lineEnds, afterLineFeeds_append, afterLineFeeds_of_whole first, afterLineFeeds,
          if_pos rfl, List.map_cons, joined, List.flatMap_cons, ← joined, ← tail]
        simp
  have split : splitFinal text.toList = (['\n'].intercalate lines, ['\n']) := by
    rw [written, joined_eq some, splitFinal]
    simp
  rw [indent, split, String.toList_ofList]
  exact led lines some whole

/-! ## Lines as they are read -/

private theorem splitOnP_append {p : Char → Bool} {lead : List Char} (whole : ∀ c ∈ lead, p c = false)
    (rest : List Char) : (lead ++ rest).splitOnP p = (rest.splitOnP p).modifyHead (lead ++ ·) := by
  induction lead with
  | nil => exact (congrFun List.modifyHead_id _).symm
  | cons c lead ih =>
    obtain ⟨first, later⟩ := List.forall_mem_cons.mp whole
    rw [List.cons_append, List.splitOnP_cons_eq_if_modifyHead, first, ih later, if_neg Bool.false_ne_true,
      List.modifyHead_modifyHead]
    rfl

private theorem whole_of_all {t : Target} {cs : List Char} (all : (cs.all fun c => !endsLine t c) = true) :
    ∀ c ∈ cs, endsLine t c = false := by
  intro c inside
  simpa using List.all_eq_true.mp all c inside

private theorem endsLine_feed (t : Target) : endsLine t '\n' = true := by
  cases t <;> rfl

private theorem linesOf_joined (t : Target) (lines : List (List Char)) :
    linesOf t (joined lines) = lines.flatMap (linesOf t) ++ [[]] := by
  induction lines with
  | nil => simp [joined, linesOf]
  | cons line rest ih =>
    rw [linesOf] at ih ⊢
    rw [joined, List.flatMap_cons, ← joined, List.append_assoc, List.singleton_append,
      List.splitOnP_append_cons _ _ (endsLine_feed t), ih, List.flatMap_cons, List.append_assoc]
    rfl

private theorem commented_joined_iff {t : Target} {lead : List Char} (whole : ∀ c ∈ lead, endsLine t c = false)
    (marked : ∀ rest, Commented t (lead ++ rest)) (lines : List (List Char)) :
    (∀ line ∈ linesOf t (joined (lines.map (lead ++ ·))), Commented t line) ↔
      ∀ piece ∈ lines.flatMap fun line => (linesOf t line).tail, Commented t piece := by
  -- the lead makes the first line of each a comment, whatever is behind it
  have one (line : List Char) :
      (∀ piece ∈ linesOf t (lead ++ line), Commented t piece) ↔ ∀ piece ∈ (linesOf t line).tail, Commented t piece := by
    obtain ⟨first, later, split⟩ := List.exists_cons_of_ne_nil (List.splitOnP_ne_nil (endsLine t) line)
    rw [linesOf, splitOnP_append whole, linesOf, split, List.modifyHead_cons, List.forall_mem_cons, List.tail_cons]
    exact and_iff_right (marked first)
  rw [linesOf_joined, List.forall_mem_append, and_iff_left (by simp [Commented]), List.flatMap_map]
  simp only [List.forall_mem_flatMap, one]

/-! ## Comments -/

/-- The text of a step where it stands: one level in if it is a step of a record. -/
def placed (s : Style) (inRecord : Bool) (step : Step) : String :=
  if inRecord then indent (step.render s.target) s.level else step.render s.target

theorem comment_joined (t : Target) (text : String) :
    (t.comment text).toList = joined ((text.toList.splitOn '\n').map (t.commentMark.toList ++ ·)) := by
  refine indent_joined (fun line inside => PathTexts.not_mem_of_mem_splitOn inside) (List.splitOn_ne_nil _ _) ?_ _
  rw [joined_eq (List.splitOn_ne_nil _ _), List.intercalate_splitOn, String.toList_append]
  rfl

/-- Where a comment stands, each of its lines is led in by its mark, in a record behind blanks. -/
theorem placed_comment (s : Style) (inRecord : Bool) (text : String) :
    ∃ lead : List Char, (∀ c ∈ lead, c = ' ') ∧ (placed s inRecord (.comment text)).toList =
      joined ((text.toList.splitOn '\n').map (lead ++ s.target.commentMark.toList ++ ·)) := by
  cases inRecord with
  | false => exact ⟨[], by simp, comment_joined s.target text⟩
  | true =>
    refine ⟨s.level.toList, fun c => Style.eq_of_mem_level, ?_⟩
    have written := comment_joined s.target text
    rw [placed, if_pos rfl, Step.render, indent_joined _ _ written, List.map_map]
    · simp [Function.comp_def]
    · intro line inside
      obtain ⟨own, member, rfl⟩ := List.mem_map.mp inside
      have plain : '\n' ∉ s.target.commentMark.toList := by cases s.target <;> decide
      rw [List.mem_append, not_or]
      exact ⟨plain, PathTexts.not_mem_of_mem_splitOn member⟩
    · simp

/-- A comment stays a comment exactly if each of its strays is one. -/
theorem contained_comment_iff (s : Style) (inRecord : Bool) (text : String) :
    Contained s.target (placed s inRecord (.comment text)) ↔
      ∀ piece ∈ strays s.target text, Commented s.target piece := by
  obtain ⟨lead, blank, written⟩ := placed_comment s inRecord text
  rw [Contained, written]
  refine commented_joined_iff ?_ ?_ _
  · have marked : ∀ c ∈ s.target.commentMark.toList, endsLine s.target c = false :=
      whole_of_all (by cases s.target <;> rfl)
    have led : ∀ c ∈ lead, endsLine s.target c = false := by
      intro c inside
      rw [blank c inside]
      cases s.target <;> rfl
    exact List.forall_mem_append.mpr ⟨led, marked⟩
  · intro rest
    have dropped : (lead ++ s.target.commentMark.toList ++ rest).dropWhile isSpace =
        s.target.commentMark.toList ++ rest := by
      rw [List.append_assoc, List.dropWhile_append_of_pos (fun c inside => by rw [blank c inside]; rfl)]
      cases s.target <;> rfl
    -- the mark that is written has a blank behind it
    refine .inr ?_
    rw [dropped]
    cases s.target <;> exact ⟨' ' :: rest, rfl⟩

/-- What is put before a text on its first line changes nothing in its strays. -/
theorem strays_append {t : Target} {lead : String} (whole : ∀ c ∈ lead.toList, endsLine t c = false) (text : String) :
    strays t (lead ++ text) = strays t text := by
  have feeds : ∀ c ∈ lead.toList, (c == '\n') = false := by
    intro c inside
    rw [beq_eq_false_iff_ne]
    rintro rfl
    have ended := whole _ inside
    rw [endsLine_feed] at ended
    cases ended
  obtain ⟨first, later, split⟩ := List.exists_cons_of_ne_nil (List.splitOn_ne_nil '\n' text.toList)
  rw [strays, strays, split, String.toList_append, List.splitOn_eq_splitOnP, splitOnP_append feeds,
    ← List.splitOn_eq_splitOnP, split, List.modifyHead_cons, List.flatMap_cons, List.flatMap_cons, linesOf,
    splitOnP_append whole, List.tail_modifyHead]
  rfl

theorem strays_line {t : Target} {text : String} (whole : ∀ c ∈ text.toList, endsLine t c = false) :
    strays t text = [] := by
  rw [← String.append_empty (s := text), strays_append whole]
  cases t <;> rfl

/-! ## Profiles -/

theorem mem_written_iff {s : Style} {parts : List Part} {written : List (List Step)} (each : Written s parts written)
    (step : Step) : step ∈ written.flatten ↔ ∃ part ∈ parts, ∃ own, part.steps s = .ok own ∧ step ∈ own := by
  induction each with
  | nil => simp
  | @cons part own _ _ steps _ ih =>
    rw [List.flatten_cons, List.mem_append, ih, List.exists_mem_cons_iff]
    refine or_congr_left ⟨fun inside => ⟨own, steps, inside⟩, ?_⟩
    rintro ⟨_, steps', inside⟩
    rw [steps] at steps'
    cases steps'
    exact inside

private theorem inputParts_eq (d : Descriptor) (inputs : List (String × Block)) :
    inputParts d inputs = inputs.filterMap fun input => (d.pidFor? input.1).map fun pid => .input input.1 pid input.2 := by
  induction inputs with
  | nil => rfl
  | cons input rest ih =>
    rw [inputParts, List.filterMap_cons, ih]
    cases d.pidFor? input.1 <;> rfl

theorem mem_inputParts_iff {d : Descriptor} {inputs : List (String × Block)} {part : Part} :
    part ∈ inputParts d inputs ↔
      ∃ name b pid, (name, b) ∈ inputs ∧ d.pidFor? name = some pid ∧ part = .input name pid b := by
  rw [inputParts_eq, List.mem_filterMap]
  constructor
  · rintro ⟨⟨name, b⟩, inside, found⟩
    obtain ⟨pid, property, rfl⟩ := Option.map_eq_some_iff.mp found
    exact ⟨name, b, pid, inside, property, rfl⟩
  · rintro ⟨name, b, pid, inside, property, rfl⟩
    exact ⟨(name, b), inside, Option.map_eq_some_iff.mpr ⟨pid, property, rfl⟩⟩

/-- The comments of a profile: two headings, and one for each input with a property and code. -/
theorem mem_profile_iff {s : Style} (comments : s.comments = true) {id : String} {descriptor : Option Descriptor}
    {inputs : List (String × Block)} {d : Descriptor} {key : String} (complete : contract descriptor = .ok (d, key))
    {steps : List Step} (came : fragment s (.profile id descriptor inputs) = .ok (.statement (.steps steps)))
    (text : String) :
    .comment text ∈ steps ↔ text = "## profile_hmc ##" ∨ text = "attribute: Self-Reference" ∨
      ∃ name b pid code, (name, b) ∈ inputs ∧ d.pidFor? name = some pid ∧ slotCode s (some b) = .ok code ∧
        isEmptyLiteral code = false ∧ text = "attribute: " ++ name := by
  obtain ⟨written, each, rfl⟩ := written_of_statement came
  rw [mem_written_iff each, statementParts, complete]
  simp only [List.exists_mem_cons_iff]
  rw [← or_assoc]
  refine or_congr ?_ ⟨?_, ?_⟩
  · constructor
    · rintro ⟨own, ownSteps, inside⟩
      cases ownSteps
      simpa [selfReferenceSteps, Style.comment, comments] using inside
    · intro heading
      refine ⟨_, rfl, ?_⟩
      simpa [selfReferenceSteps, Style.comment, comments] using heading
  · rintro ⟨part, inside, own, ownSteps, commented⟩
    obtain ⟨name, b, pid, input, found, rfl⟩ := mem_inputParts_iff.mp inside
    obtain ⟨code, coded, ownSteps⟩ := Runs.bind_eq_ok ownSteps
    cases ownSteps
    cases empty : isEmptyLiteral code with
    | true => simp [inputSteps, empty] at commented
    | false =>
      have named : text = "attribute: " ++ name := by
        simpa [inputSteps, empty, Style.comment, comments] using commented
      exact ⟨name, b, pid, code, input, found, coded, empty, named⟩
  · rintro ⟨name, b, pid, code, input, found, coded, empty, rfl⟩
    refine ⟨.input name pid b, mem_inputParts_iff.mpr ⟨name, b, pid, input, found, rfl⟩,
      inputSteps s name pid code, ?_, ?_⟩
    · rw [Part.steps, coded]
      rfl
    · simp [inputSteps, empty, Style.comment, comments]

private theorem strays_attribute (t : Target) (name : String) : strays t ("attribute: " ++ name) = strays t name :=
  strays_append (whole_of_all (by cases t <;> rfl)) name

/-- The comment that an input of a profile has stays one, wherever it stands, exactly if each stray of the
name of the input is a comment; the headings of a profile always stay comments. So the comments of a profile
all stay comments exactly if this holds of the name of each input that has one. -/
theorem input_comments_contained_iff (s : Style) (inRecord : Bool) :
    (∀ name, Contained s.target (placed s inRecord (.comment ("attribute: " ++ name))) ↔
      ∀ piece ∈ strays s.target name, Commented s.target piece) ∧
    ∀ id descriptor inputs d key f, s.comments = true → contract descriptor = .ok (d, key) →
      fragment s (.profile id descriptor inputs) = .ok f → ∃ steps, f = .statement (.steps steps) ∧
        ((∀ text, .comment text ∈ steps → Contained s.target (placed s inRecord (.comment text))) ↔
          ∀ name b pid code, (name, b) ∈ inputs → d.pidFor? name = some pid → slotCode s (some b) = .ok code →
            isEmptyLiteral code = false → ∀ piece ∈ strays s.target name, Commented s.target piece) := by
  have named (name : String) : Contained s.target (placed s inRecord (.comment ("attribute: " ++ name))) ↔
      ∀ piece ∈ strays s.target name, Commented s.target piece := by
    rw [contained_comment_iff, strays_attribute]
  refine ⟨named, ?_⟩
  intro id descriptor inputs d key f comments complete came
  obtain ⟨steps, rfl⟩ : ∃ steps, f = .statement (.steps steps) := by
    rw [fragment, complete] at came
    obtain ⟨more, _, came⟩ := Runs.bind_eq_ok came
    cases came
    exact ⟨_, rfl⟩
  refine ⟨steps, rfl, ?_⟩
  have within := mem_profile_iff comments complete came
  constructor
  · intro contained name b pid code input found coded told
    exact (named name).mp (contained _ ((within _).mpr (.inr (.inr ⟨name, b, pid, code, input, found, coded, told, rfl⟩))))
  · intro plain text inside
    rcases (within text).mp inside with rfl | rfl | ⟨name, b, pid, code, input, found, coded, told, rfl⟩
    · rw [contained_comment_iff, strays_line (whole_of_all (by cases s.target <;> rfl))]
      exact List.forall_mem_nil _
    · rw [contained_comment_iff, strays_line (whole_of_all (by cases s.target <;> rfl))]
      exact List.forall_mem_nil _
    · exact (named name).mpr (plain name b pid code input found coded told)

/-- A profile with one property. -/
def licensed : Descriptor := ⟨"21.T1/profile", none, some "profile", [⟨"license", "21.T1/license"⟩]⟩

theorem line_feed_contained :
    ∃ steps, fragment ⟨.python, 2, true⟩ (.profile "p" (some licensed)
        [("license\nimport os", .literal "v" (.text "MIT"))]) = .ok (.statement (.steps steps)) ∧
      ∀ text, .comment text ∈ steps → Contained .python (placed ⟨.python, 2, true⟩ true (.comment text)) := by
  have complete : contract (some licensed) = .ok (licensed, "profile") := rfl
  have came : fragment ⟨.python, 2, true⟩ (.profile "p" (some licensed)
      [("license\nimport os", .literal "v" (.text "MIT"))]) = .ok _ := rfl
  obtain ⟨steps, same, contained⟩ := (input_comments_contained_iff ⟨.python, 2, true⟩ true).2 _ _ _ _ _ _ rfl complete came
  cases same
  refine ⟨_, came, contained.mpr ?_⟩
  intro name b pid code inside found coded told piece stray
  cases List.mem_singleton.mp inside
  have none_stray : strays .python "license\nimport os" = [] := by decide +kernel
  rw [none_stray] at stray
  cases stray

/-- What stands in the name of an input behind a carriage return is a line of the program. -/
theorem carriage_return_leaves :
    ¬ ∀ (s : Style) (inRecord : Bool) (descriptor : Option Descriptor) (d : Descriptor) (key name pid : String),
      contract descriptor = .ok (d, key) → d.pidFor? name = some pid →
        Contained s.target (placed s inRecord (.comment ("attribute: " ++ name))) := by
  intro claimed
  have complete : contract (some licensed) = .ok (licensed, "profile") := rfl
  have found : licensed.pidFor? "license\x0dimport os" = some "21.T1/license" := by decide +kernel
  have contained := claimed ⟨.python, 2, true⟩ true _ _ _ _ _ complete found
  rw [contained_comment_iff, strays_attribute] at contained
  have stray : "import os".toList ∈ strays .python "license\x0dimport os" := by decide +kernel
  rcases contained _ stray with empty | marked
  · cases empty
  · revert marked
    decide

end RecordMapper.Proofs.CommentLines
