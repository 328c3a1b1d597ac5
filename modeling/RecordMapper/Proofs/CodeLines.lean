import Mathlib.Data.List.DropRight
import RecordMapper.Program.Lines
import RecordMapper.Proofs.CommentLines

/-!
# Lines of code

The lines of code of a text are its lines without comment lines, each without the blanks that lead it in.
What a text adds to the lines of code of a program is found line by line (`codeLines_append_feed`). For the
pieces of a line, `laid` leaves out the blanks that lead in lines; it knows of what came before only whether
a line has just begun. The lines of code do not depend on these blanks (`codeLines_laid`), so a text that is
indented adds what it would add anyway (`Adds.indented`).
-/

namespace RecordMapper.Proofs.CodeLines
open RecordMapper.Program
open RecordMapper.Proofs.CommentLines (isSpace mark joined)

/-- Whether a line, blanks that lead it in apart, is not a comment. -/
def isCode (t : Target) (line : List Char) : Bool := !(mark t).isPrefixOf (line.dropWhile isSpace)

/-- The lines of a text that are not comments, without the blanks that lead them in. -/
def codeLines (t : Target) (cs : List Char) : List (List Char) :=
  ((cs.splitOn '\n').filter (isCode t)).map (·.dropWhile isSpace)

example : codeLines .python "a = [\n    1]\n  # b\nb".toList = ["a = [".toList, "1]".toList, "b".toList] := by
  decide

/-! ## Lines -/

theorem codeLines_append_feed (t : Target) (a b : List Char) :
    codeLines t (a ++ '\n' :: b) = codeLines t a ++ codeLines t b := by
  rw [codeLines, List.splitOn_append_cons_self, List.filter_append, List.map_append]
  rfl

theorem codeLines_line (t : Target) {line : List Char} (whole : '\n' ∉ line) :
    codeLines t line = if isCode t line then [line.dropWhile isSpace] else [] := by
  rw [codeLines, List.splitOn_eq_singleton whole, List.filter_singleton]
  cases isCode t line <;> rfl

/-- A text is its last line, or a line and more behind a line feed. -/
@[elab_as_elim]
theorem line_induction {P : List Char → Prop} (last : ∀ line, '\n' ∉ line → P line)
    (feed : ∀ line rest, '\n' ∉ line → P rest → P (line ++ '\n' :: rest)) (cs : List Char) : P cs := by
  have each : ∀ lines : List (List Char), lines ≠ [] → (∀ line ∈ lines, '\n' ∉ line) → P (['\n'].intercalate lines) := by
    intro lines some whole
    induction lines with
    | nil => exact absurd rfl some
    | cons line rest ih =>
      obtain ⟨first, later⟩ := List.forall_mem_cons.mp whole
      cases rest with
      | nil => simpa using last line first
      | cons next rest =>
        rw [List.intercalate_cons_cons, List.append_assoc]
        exact feed line _ first (ih (by simp) later)
  have whole : ['\n'].intercalate (cs.splitOn '\n') = cs := List.intercalate_splitOn '\n'
  rw [← whole]
  exact each _ (List.splitOn_ne_nil _ _) fun line inside => PathTexts.not_mem_of_mem_splitOn inside

/-- A line that is led in by blanks and the mark of a comment is no code. -/
theorem isCode_comment (t : Target) {lead : List Char} (blank : ∀ c ∈ lead, c = ' ') (text : List Char) :
    isCode t (lead ++ t.commentMark.toList ++ text) = false := by
  have dropped : (lead ++ t.commentMark.toList ++ text).dropWhile isSpace = t.commentMark.toList ++ text := by
    rw [List.append_assoc, List.dropWhile_append_of_pos fun c inside => by rw [blank c inside]; rfl]
    cases t <;> rfl
  rw [isCode, dropped]
  cases t <;> rfl

theorem comment_whole (t : Target) {lead : List Char} (blank : ∀ c ∈ lead, c = ' ') {text : List Char}
    (whole : '\n' ∉ text) : '\n' ∉ lead ++ t.commentMark.toList ++ text := by
  have plain : '\n' ∉ t.commentMark.toList := by cases t <;> decide
  have led : '\n' ∉ lead := fun inside => absurd (blank _ inside) (by decide)
  simp [plain, led, whole]

theorem codeLines_comment (t : Target) {lead : List Char} (blank : ∀ c ∈ lead, c = ' ') {text : List Char}
    (whole : '\n' ∉ text) : codeLines t (lead ++ t.commentMark.toList ++ text) = [] := by
  rw [codeLines_line t (comment_whole t blank whole), isCode_comment t blank]
  rfl

/-! ## Blanks that lead in lines -/

/-- Whether a line has just begun behind a character, blanks not counting. -/
def begun (fresh : Bool) (c : Char) : Bool := c == '\n' || (fresh && isSpace c)

/-- Whether a line has just begun behind a text. -/
def begunBehind (fresh : Bool) (cs : List Char) : Bool := cs.foldl begun fresh

/-- The text without the blanks that lead in its lines; the first line counts if it has just begun. -/
def laid (fresh : Bool) : List Char → List Char
  | [] => []
  | c :: cs => if fresh && isSpace c then laid true cs else c :: laid (c == '\n') cs

theorem laid_append (fresh : Bool) (a b : List Char) :
    laid fresh (a ++ b) = laid fresh a ++ laid (begunBehind fresh a) b := by
  induction a generalizing fresh with
  | nil => rfl
  | cons c a ih =>
    rw [List.cons_append, laid, laid, begunBehind, List.foldl_cons, ← begunBehind]
    split
    · next blank => rw [ih, begun, blank, Bool.or_true]
    · next other => rw [ih, begun, Bool.not_eq_true _ |>.mp other, Bool.or_false, List.cons_append]

theorem begunBehind_append (fresh : Bool) (a b : List Char) :
    begunBehind fresh (a ++ b) = begunBehind (begunBehind fresh a) b := List.foldl_append

theorem laid_feed (fresh : Bool) (cs : List Char) : laid fresh ('\n' :: cs) = '\n' :: laid true cs := by
  cases fresh <;> rfl

theorem laid_blanks {lead : List Char} (blank : ∀ c ∈ lead, isSpace c = true) :
    laid true lead = [] ∧ begunBehind true lead = true := by
  induction lead with
  | nil => exact ⟨rfl, rfl⟩
  | cons c lead ih =>
    obtain ⟨first, later⟩ := List.forall_mem_cons.mp blank
    simpa [laid, begunBehind, begun, first] using ih later

theorem laid_line {line : List Char} (whole : '\n' ∉ line) :
    laid false line = line ∧ laid true line = line.dropWhile isSpace := by
  induction line with
  | nil => exact ⟨rfl, rfl⟩
  | cons c line ih =>
    rw [List.mem_cons, not_or] at whole
    have inner : (c == '\n') = false := beq_eq_false_iff_ne.mpr (Ne.symm whole.1)
    obtain ⟨plain, led⟩ := ih whole.2
    cases blank : isSpace c <;> simp [laid, blank, inner, plain, led]

theorem codeLines_dropWhile (t : Target) {line : List Char} (whole : '\n' ∉ line) :
    codeLines t (line.dropWhile isSpace) = codeLines t line := by
  have inner : '\n' ∉ line.dropWhile isSpace := fun inside => whole ((List.dropWhile_suffix _).subset inside)
  rw [codeLines_line t whole, codeLines_line t inner, isCode, isCode, List.dropWhile_idempotent]

/-- The lines of code do not depend on the blanks that lead in lines. -/
theorem codeLines_laid (t : Target) (cs : List Char) : codeLines t (laid true cs) = codeLines t cs := by
  induction cs using line_induction with
  | last line whole => rw [(laid_line whole).2, codeLines_dropWhile t whole]
  | feed line rest whole ih =>
    rw [laid_append, laid_feed, codeLines_append_feed, codeLines_append_feed, ih, (laid_line whole).2,
      codeLines_dropWhile t whole]

theorem laid_afterLineFeeds {lead : List Char} (blank : ∀ c ∈ lead, isSpace c = true) (fresh : Bool) (cs : List Char) :
    laid fresh (afterLineFeeds lead cs) = laid fresh cs ∧
      begunBehind fresh (afterLineFeeds lead cs) = begunBehind fresh cs := by
  induction cs generalizing fresh with
  | nil => exact ⟨rfl, rfl⟩
  | cons c cs ih =>
    rw [afterLineFeeds]
    split
    · next feed =>
      subst feed
      obtain ⟨text, state⟩ := laid_blanks blank
      have fed : begun fresh '\n' = true := rfl
      rw [List.cons_append, laid_feed, laid_feed, laid_append, text, state, (ih true).1]
      refine ⟨rfl, ?_⟩
      rw [begunBehind, List.foldl_cons, fed, ← begunBehind, begunBehind_append, state, (ih true).2]
      rfl
    · rw [laid, laid, (ih true).1, (ih _).1]
      exact ⟨rfl, (ih _).2⟩

/-- A text that is indented behind a line feed is laid as it was. -/
theorem laid_indent {lead : String} (blank : ∀ c ∈ lead.toList, isSpace c = true) (text : String) :
    laid true (indent text lead).toList = laid true text.toList ∧
      begunBehind true (indent text lead).toList = begunBehind true text.toList := by
  obtain ⟨body, final, split, whole⟩ : ∃ body final, splitFinal text.toList = (body, final) ∧ body ++ final = text.toList :=
    ⟨_, _, rfl, splitFinal_append _⟩
  obtain ⟨led, begins⟩ := laid_blanks blank
  obtain ⟨inner, state⟩ := laid_afterLineFeeds blank true body
  rw [indent, split, String.toList_ofList, ← whole, List.append_assoc, laid_append, laid_append, laid_append, led, begins,
    inner, state, begunBehind_append, begunBehind_append, begunBehind_append, begins, state]
  exact ⟨rfl, rfl⟩

theorem isPrefixOf_laid {start : List Char} (whole : '\n' ∉ start) (cs : List Char) :
    start.isPrefixOf (laid false cs) = start.isPrefixOf cs := by
  induction start generalizing cs with
  | nil => rfl
  | cons c start ih =>
    rw [List.mem_cons, not_or] at whole
    cases cs with
    | nil => rfl
    | cons d cs =>
      rw [laid, Bool.false_and, if_neg Bool.false_ne_true, List.isPrefixOf, List.isPrefixOf]
      cases same : c == d with
      | false => rfl
      | true =>
        have inner : (d == '\n') = false := by
          rw [← eq_of_beq same]
          exact beq_eq_false_iff_ne.mpr (Ne.symm whole.1)
        rw [inner, ih whole.2]

/-! ## What a text adds -/

/-- What stands behind a text keeps its lines of code, and the text adds some of its own. -/
def Adds (t : Target) (cs : List Char) (lines : List (List Char)) : Prop :=
  ∀ rest, codeLines t (cs ++ rest) = lines ++ codeLines t rest

namespace Adds

variable {t : Target} {a b : List Char} {lines more : List (List Char)}

theorem nil (t : Target) : Adds t [] [] := fun _ => rfl

theorem append (first : Adds t a lines) (second : Adds t b more) : Adds t (a ++ b) (lines ++ more) := by
  intro rest
  rw [List.append_assoc, first, second, List.append_assoc]

/-- A text that ends a line adds its own lines of code. -/
theorem ended (t : Target) (cs : List Char) : Adds t (cs ++ ['\n']) (codeLines t cs) := by
  intro rest
  rw [List.append_assoc, List.singleton_append, codeLines_append_feed]

/-- Indented, a text that ends a line adds the same lines of code. -/
theorem indented (t : Target) {text lead : String} {cs : List Char} (ends : text.toList = cs ++ ['\n'])
    (blank : ∀ c ∈ lead.toList, isSpace c = true) : Adds t (indent text lead).toList (codeLines t cs) := by
  have split : splitFinal text.toList = (cs, ['\n']) := by simp [splitFinal, ends]
  have same : codeLines t (lead.toList ++ afterLineFeeds lead.toList cs) = codeLines t cs := by
    obtain ⟨led, begins⟩ := laid_blanks blank
    rw [← codeLines_laid, laid_append, led, begins, (laid_afterLineFeeds blank true cs).1, List.nil_append, codeLines_laid]
  rw [indent, split, String.toList_ofList, ← same]
  exact ended t _

/-- Lines without code add nothing. -/
theorem joined {lines : List (List Char)} (comments : ∀ line ∈ lines, codeLines t line = []) :
    Adds t (joined lines) [] := by
  induction lines with
  | nil => exact nil t
  | cons line rest ih =>
    obtain ⟨first, later⟩ := List.forall_mem_cons.mp comments
    rw [CommentLines.joined, List.flatMap_cons]
    have own := ended t line
    rw [first] at own
    exact own.append (ih later)

end Adds

/-! ## Blanks at the ends of lines -/

/-- A line without the blanks at its end. -/
def trimEnd : List Char → List Char
  | [] => []
  | c :: cs => if isSpace c && (trimEnd cs).isEmpty then [] else c :: trimEnd cs

theorem trimEnd_subset {line : List Char} {c : Char} (inside : c ∈ trimEnd line) : c ∈ line := by
  induction line with
  | nil => cases inside
  | cons d line ih =>
    rw [trimEnd] at inside
    split at inside
    · cases inside
    · exact (List.mem_cons.mp inside).elim (fun same => same ▸ List.mem_cons_self) fun later => List.mem_cons_of_mem _ (ih later)

theorem dropLineEndBlanks_line {line : List Char} (whole : '\n' ∉ line) (rest : List Char) :
    dropLineEndBlanks (line ++ '\n' :: rest) = trimEnd line ++ '\n' :: dropLineEndBlanks rest := by
  induction line with
  | nil => rfl
  | cons c line ih =>
    rw [List.mem_cons, not_or] at whole
    have ends : ((trimEnd line ++ '\n' :: dropLineEndBlanks rest).head? == some '\n') = (trimEnd line).isEmpty := by
      cases trimmed : trimEnd line with
      | nil => rfl
      | cons d more =>
        have other : d ≠ '\n' := by
          rintro rfl
          exact whole.2 (trimEnd_subset (by rw [trimmed]; exact List.mem_cons_self))
        simpa using other
    rw [List.cons_append, dropLineEndBlanks, ih whole.2, ends, trimEnd, isSpace]
    split
    · next blank => rw [Bool.and_eq_true, List.isEmpty_iff] at blank; rw [blank.2]
    · rfl

theorem trimEnd_dropWhile (line : List Char) :
    (trimEnd line).dropWhile isSpace = trimEnd (line.dropWhile isSpace) := by
  induction line with
  | nil => rfl
  | cons c line ih =>
    cases blank : isSpace c with
    | true =>
      rw [trimEnd, blank, List.dropWhile_cons_of_pos blank, ← ih]
      cases trimEnd line with
      | nil => rfl
      | cons d more => simp [blank]
    | false => simp [trimEnd, blank]

theorem isPrefixOf_trimEnd {start : List Char} (shown : ∀ c ∈ start, isSpace c = false) (line : List Char) :
    start.isPrefixOf (trimEnd line) = start.isPrefixOf line := by
  induction start generalizing line with
  | nil => simp [List.isPrefixOf]
  | cons c start ih =>
    obtain ⟨first, later⟩ := List.forall_mem_cons.mp shown
    cases line with
    | nil => rfl
    | cons d line =>
      cases same : c == d with
      | false =>
        rw [trimEnd]
        split <;> simp [List.isPrefixOf, same]
      | true =>
        obtain rfl := eq_of_beq same
        simp [trimEnd, first, List.isPrefixOf, ih later]

theorem trimEnd_shown {c : Char} (shown : isSpace c = false) (start : List Char) : trimEnd (start ++ [c]) = start ++ [c] := by
  induction start with
  | nil => simp [trimEnd, shown]
  | cons d start ih => simp [trimEnd, ih]

theorem trimEnd_blanks (line : List Char) : ∃ blanks, (∀ c ∈ blanks, c = ' ' ∨ c = '\t') ∧ line = trimEnd line ++ blanks := by
  induction line with
  | nil => exact ⟨[], List.forall_mem_nil _, rfl⟩
  | cons c line ih =>
    obtain ⟨blanks, blank, whole⟩ := ih
    rw [trimEnd]
    split
    · next final =>
      rw [Bool.and_eq_true, List.isEmpty_iff, isSpace, Bool.or_eq_true, beq_iff_eq, beq_iff_eq] at final
      rw [final.2, List.nil_append] at whole
      exact ⟨c :: line, List.forall_mem_cons.mpr ⟨final.1, whole ▸ blank⟩, rfl⟩
    · exact ⟨blanks, blank, congrArg (c :: ·) whole⟩

theorem isCode_trimEnd (t : Target) (line : List Char) : isCode t (trimEnd line) = isCode t line := by
  have shown : ∀ c ∈ mark t, isSpace c = false := by cases t <;> simp [mark, isSpace]
  rw [isCode, isCode, trimEnd_dropWhile, isPrefixOf_trimEnd shown]

/-- The lines of a tidied text are its lines without the blanks at their ends. -/
theorem splitOn_dropLineEndBlanks (cs : List Char) :
    (dropLineEndBlanks (cs ++ ['\n'])).splitOn '\n' = ((cs ++ ['\n']).splitOn '\n').map trimEnd := by
  have whole {line : List Char} (inner : '\n' ∉ line) : (trimEnd line).splitOn '\n' = [trimEnd line] :=
    List.splitOn_eq_singleton fun inside => inner (trimEnd_subset inside)
  induction cs using line_induction with
  | last line inner =>
    rw [dropLineEndBlanks_line inner, List.splitOn_append_cons_self, List.splitOn_append_cons_self, whole inner,
      List.splitOn_eq_singleton inner]
    rfl
  | feed line rest inner ih =>
    rw [List.append_assoc, List.cons_append, dropLineEndBlanks_line inner, List.splitOn_append_cons_self,
      List.splitOn_append_cons_self, whole inner, List.splitOn_eq_singleton inner, ih]
    rfl

/-- Without the blanks at the ends of its lines, a text has the same lines of code without these blanks. -/
theorem codeLines_dropLineEndBlanks (t : Target) (cs : List Char) :
    codeLines t (dropLineEndBlanks (cs ++ ['\n'])) = (codeLines t cs).map trimEnd ++ [[]] := by
  have kept : isCode t ∘ trimEnd = isCode t := funext (isCode_trimEnd t)
  have led : (fun line => trimEnd line |>.dropWhile isSpace) = fun line => trimEnd (line.dropWhile isSpace) :=
    funext trimEnd_dropWhile
  have tidied : codeLines t (dropLineEndBlanks (cs ++ ['\n'])) = (codeLines t (cs ++ ['\n'])).map trimEnd := by
    rw [codeLines, splitOn_dropLineEndBlanks, List.filter_map, List.map_map, kept, codeLines, List.map_map]
    exact congrArg (List.map · _) led
  rw [tidied, codeLines_append_feed, List.map_append]
  cases t <;> rfl

end RecordMapper.Proofs.CodeLines
