import Mathlib.Data.List.Chain
import RecordMapper.Proofs.CodeProperties
import RecordMapper.Proofs.Layout

/-!
# Ends of lines

A line of code ends with a character that shows, wherever the code in it comes from, since a text stands in code
only as a literal on one line. So what is done to a program at last finds no blanks in code that it could take
away: without comments it changes nothing (`finish_of_generate`), and with comments only lines that are comments
lose blanks at their ends (`shortened_comments`).
-/

namespace RecordMapper.Proofs.LineEnds
open RecordMapper.Program RecordMapper.Block RecordMapper.Proofs.CodeLines RecordMapper.Proofs.CodeProperties
open RecordMapper.Proofs.CommentLines (isSpace joined placed)

/-! ## Ends of lines in code -/

/-- A character that shows at the end of a line. -/
def Shown (c : Char) : Prop := c ≠ '\n' ∧ isSpace c = false

instance (c : Char) : Decidable (Shown c) := inferInstanceAs (Decidable (_ ∧ _))

/-- A text that goes on behind a line feed, where lines end only behind a character that shows. -/
def Filled (cs : List Char) : Prop := ('\n' :: cs).IsChain fun c d => d = '\n' → Shown c

instance (cs : List Char) : Decidable (Filled cs) := inferInstanceAs (Decidable (List.IsChain _ _))

namespace Filled

variable {a b cs : List Char} {x before after : String}

theorem append (first : Filled a) (second : Filled b) : Filled (a ++ b) := by
  obtain ⟨begins, later⟩ := List.isChain_cons.mp second
  rw [Filled, ← List.cons_append, List.isChain_append]
  refine ⟨first, later, fun c _ d inside feed => ?_⟩
  exact absurd rfl (begins d inside feed).1

theorem of_feedless (whole : ∀ c ∈ cs, c ≠ '\n') : Filled cs := by
  refine (List.pairwise_cons.mpr ⟨fun d inside feed => absurd feed (whole d inside), ?_⟩).isChain
  exact List.pairwise_of_forall_mem_list fun c _ d inside feed => absurd feed (whole d inside)

theorem of_blank (blank : ∀ c ∈ cs, c = ' ') : Filled cs := by
  refine of_feedless fun c inside => ?_
  rw [blank c inside]
  decide

theorem between (opening : Filled before.toList) (inner : Filled x.toList) (closing : Filled after.toList) :
    Filled (before ++ x ++ after).toList := by
  rw [String.toList_append, String.toList_append]
  exact (opening.append inner).append closing

/-- Blanks behind line feeds are before no line's end, since there are no empty lines. -/
theorem afterLineFeeds {lead : List Char} (blank : ∀ c ∈ lead, c = ' ') (filled : Filled cs) :
    Filled (Program.afterLineFeeds lead cs) := by
  have each (cs : List Char) : ∀ c, (c :: cs).IsChain (fun c d => d = '\n' → Shown c) →
      (c :: Program.afterLineFeeds lead cs).IsChain fun c d => d = '\n' → Shown c := by
    induction cs with
    | nil => exact fun _ chain => chain
    | cons d cs ih =>
      intro c chain
      obtain ⟨own, rest⟩ := List.isChain_cons_cons.mp chain
      rw [Program.afterLineFeeds]
      split
      · next feed =>
        subst feed
        exact List.isChain_cons_cons.mpr ⟨own, (of_blank blank).append (ih '\n' rest)⟩
      · exact List.isChain_cons_cons.mpr ⟨own, ih d rest⟩
  exact each cs '\n' filled

theorem indent {lead : String} (blank : ∀ c ∈ lead.toList, c = ' ') (filled : Filled x.toList) :
    Filled (Program.indent x lead).toList := by
  have whole := splitFinal_append x.toList
  have led := (of_blank blank).append (filled.afterLineFeeds blank)
  rw [← whole, afterLineFeeds_append, ← List.append_assoc] at led
  rw [Program.indent, String.toList_ofList]
  rcases splitFinal_final x.toList with none | feed
  · rw [none, List.append_nil]
    exact List.IsChain.left_of_append led
  · rw [feed] at led ⊢
    rw [Program.afterLineFeeds, if_pos rfl, List.cons_append, ← List.singleton_append, ← List.append_assoc] at led
    exact List.IsChain.left_of_append led

theorem trimEnd_line {line : List Char} (filled : Filled (line ++ ['\n'])) : trimEnd line = line := by
  rcases List.eq_nil_or_concat line with rfl | ⟨start, c, rfl⟩
  · rfl
  · rw [Filled, List.concat_eq_append, List.append_assoc, List.singleton_append, ← List.cons_append] at filled
    have shown := (List.isChain_append_cons_cons.mp filled).2.1 rfl
    rw [List.concat_eq_append]
    exact trimEnd_shown shown.2 start

/-- What ends with a line feed is lines without blanks at their ends. -/
theorem trimEnd_lines (filled : Filled (cs ++ ['\n'])) : ∀ line ∈ cs.splitOn '\n', trimEnd line = line := by
  induction cs using line_induction with
  | last line whole =>
    rw [List.splitOn_eq_singleton whole]
    exact List.forall_mem_singleton.mpr filled.trimEnd_line
  | feed line rest whole ih =>
    rw [List.splitOn_append_cons_self, List.splitOn_eq_singleton whole]
    have first : '\n' :: (line ++ '\n' :: rest ++ ['\n']) = '\n' :: (line ++ ['\n']) ++ (rest ++ ['\n']) := by simp
    have second : '\n' :: (line ++ '\n' :: rest ++ ['\n']) = '\n' :: line ++ '\n' :: (rest ++ ['\n']) := by simp
    refine List.forall_mem_cons.mpr ⟨?_, ih ?_⟩
    · rw [Filled, first] at filled
      exact trimEnd_line filled.left_of_append
    · rw [Filled, second] at filled
      exact filled.right_of_append

end Filled

/-! ## Code -/

/-- Code with lines that end well, the last one too. -/
structure Compact (x : String) : Prop where
  filled : Filled x.toList
  ends : ∀ c ∈ x.toList.getLast?, Shown c

instance (x : String) : Decidable (Compact x) :=
  decidable_of_iff (Filled x.toList ∧ x.toList.getLast?.all (fun c => decide (Shown c)) = true)
    ⟨fun both => ⟨both.1, by simpa [Option.all_eq_true] using both.2⟩,
      fun compact => ⟨compact.filled, by simpa [Option.all_eq_true] using compact.ends⟩⟩

namespace Compact

variable {x before after : String}

theorem of_shown (shown : ∀ c ∈ x.toList, Shown c) : Compact x where
  filled := .of_feedless fun c inside => (shown c inside).1
  ends c last := shown c (List.mem_of_getLast? last)

theorem between (opening : Filled before.toList) (inner : Filled x.toList) (closing : Compact after) (some : after ≠ "") :
    Compact (before ++ x ++ after) where
  filled := opening.between inner closing.filled
  ends := by
    rw [String.toList_append, List.getLast?_append_of_ne_nil _ (String.toList_eq_nil_iff.not.mpr some)]
    exact closing.ends

end Compact

theorem compact_quote (t : Target) (text : String) : Compact (t.quote text) where
  filled := .of_feedless (MaskedLiterals.quote_feedless t text)
  ends c last := by
    obtain ⟨mark, body, spelled, marked, _⟩ := MaskedLiterals.quote_ends t text
    rw [spelled, List.getLast?_append_of_ne_nil _ (by simp)] at last
    obtain rfl := Option.some.inj last
    obtain rfl | rfl : mark = '\x27' ∨ mark = '\x22' := by simpa [MaskedLiterals.isMark] using marked
    all_goals decide

theorem compact_number (n : Number) : Compact n.render := by
  refine .of_shown fun c inside => ?_
  have numeric := NumberTexts.numeric_render n c inside
  by_contra hidden
  obtain rfl | rfl | rfl : c = '\n' ∨ c = ' ' ∨ c = '\t' := by
    by_contra other
    simp only [not_or] at other
    exact hidden ⟨other.1, by simp [isSpace, other.2]⟩
  all_goals cases numeric

theorem compact_literal (t : Target) (value : Literal) : Compact (literalCode t value) := by
  cases value with
  | text text => exact compact_quote t text
  | number n => exact compact_number n
  | truth b => cases t <;> cases b <;> decide
  | null => cases t <;> decide

theorem filled_thunk (t : Target) {x : String} (inner : Filled x.toList) : Filled (t.thunk x).toList := by
  cases t with
  | python => exact String.toList_append ▸ Filled.append (by decide) inner
  | javaScript => exact String.toList_append ▸ Filled.append (by decide) inner

theorem compact_listCode (s : Style) {xs ys : List String} (each : List.Forall₂ (fun x _ => Compact x) xs ys) :
    Compact (listCode s xs) := by
  rw [listCode]
  split
  · decide
  · have texts : List.Forall₂ (fun x _ => Filled x.toList) xs ys := each.imp fun _ _ code => code.filled
    have items : Filled (", ".intercalate xs).toList :=
      MaskedLiterals.related_intercalate (R := fun x _ => Filled x.toList) (by decide)
        (fun first second => String.toList_append ▸ first.append second) (by decide) texts
    exact .between (by decide) (items.indent fun c => Style.eq_of_mem_level) (by decide) (by decide)

theorem closed_compact (s : Style) : Closed s Compact where
  nothing := by decide
  literal := compact_literal s.target
  enclosed inner := .between (by decide) inner.filled (by decide) (by decide)
  query language _ _ inner := by
    cases s.target <;> cases language <;> exact .between (by decide) inner.filled (by decide) (by decide)
  stop inner := by cases s.target <;> exact .between (by decide) inner.filled (by decide) (by decide)
  log value description :=
    .between (.between (by decide) value.filled (by decide)) description.filled (by decide) (by decide)
  otherwise value other :=
    .between (.between (by decide) (filled_thunk s.target value.filled) (by decide)) (filled_thunk s.target other.filled)
      (by decide) (by decide)
  backlink inner := by cases s.target <;> exact .between (by decide) inner.filled (by decide) (by decide)
  list each := compact_listCode s each

/-! ## Lines of a program -/

/-- A line without blanks at its end, or a comment that is wanted. -/
def Neat (s : Style) (line : List Char) : Prop := trimEnd line = line ∨ s.comments = true ∧ isCode s.target line = false

/-- A text of neat lines. -/
def NeatLines (s : Style) (cs : List Char) : Prop := ∀ line ∈ cs.splitOn '\n', Neat s line

/-- A text that can be put before neat lines. -/
def Leads (s : Style) (x : String) : Prop := ∀ rest, NeatLines s rest → NeatLines s (x.toList ++ rest)

variable {s : Style}

theorem neatLines_nil : NeatLines s [] := List.forall_mem_singleton.mpr (.inl rfl)

theorem neatLines_append_feed (a b : List Char) : NeatLines s (a ++ '\n' :: b) ↔ NeatLines s a ∧ NeatLines s b := by
  rw [NeatLines, List.splitOn_append_cons_self, List.forall_mem_append]
  rfl

namespace Leads

variable {x y : String}

theorem append (first : Leads s x) (second : Leads s y) : Leads s (x ++ y) := by
  intro rest neat
  rw [String.toList_append, List.append_assoc]
  exact first _ (second _ neat)

theorem of_lines {cs : List Char} (ends : x.toList = cs ++ ['\n']) (own : NeatLines s cs) : Leads s x := by
  intro rest neat
  rw [ends, List.append_assoc, List.singleton_append, neatLines_append_feed]
  exact ⟨own, neat⟩

theorem feed : Leads s "\n" := of_lines (List.nil_append _).symm neatLines_nil

theorem of_joined {lines : List (List Char)} (written : x.toList = joined lines) (whole : ∀ line ∈ lines, '\n' ∉ line)
    (own : ∀ line ∈ lines, Neat s line) : Leads s x := by
  intro rest neat
  rw [written]
  clear written
  induction lines with
  | nil => exact neat
  | cons line lines ih =>
    obtain ⟨inner, inners⟩ := List.forall_mem_cons.mp whole
    obtain ⟨first, later⟩ := List.forall_mem_cons.mp own
    rw [joined, List.flatMap_cons, ← joined, List.append_assoc, List.append_assoc, List.singleton_append,
      neatLines_append_feed]
    refine ⟨?_, ih inners later⟩
    rw [NeatLines, List.splitOn_eq_singleton inner]
    exact List.forall_mem_singleton.mpr first

end Leads

/-- Code that ends its last line. -/
structure Ended (x : String) : Prop where
  filled : Filled x.toList
  ends : x.toList.getLast? = some '\n'

namespace Ended

variable {x before after : String}

theorem leads (ended : Ended x) : Leads s x := by
  have whole := List.dropLast_append_getLast? _ ended.ends
  have filled := ended.filled
  rw [← whole] at filled
  exact .of_lines whole.symm fun line inside => .inl (filled.trimEnd_lines line inside)

theorem append (inner : Filled x.toList) (closing : Ended after) : Ended (x ++ after) where
  filled := String.toList_append ▸ inner.append closing.filled
  ends := by rw [String.toList_append, List.getLast?_append, closing.ends]; rfl

theorem between (opening : Filled before.toList) (inner : Filled x.toList) (closing : Ended after) :
    Ended (before ++ x ++ after) :=
  append (String.toList_append ▸ opening.append inner) closing

theorem indent {lead : String} (blank : ∀ c ∈ lead.toList, c = ' ') (ended : Ended x) : Ended (Program.indent x lead) where
  filled := ended.filled.indent blank
  ends := by
    rw [Program.indent, splitFinal, if_pos ended.ends, String.toList_ofList, List.getLast?_append]
    rfl

end Ended

theorem ended_call {step : Step} (called : TwoStyles.isCall step = true) (given : Given s Compact step) :
    Ended (step.render s.target) := by
  cases step with
  | comment => cases called
  | setId own =>
    rw [Step.render, Target.setId, if_neg (Bool.not_eq_true _ |>.mpr given.2)]
    have text : Filled (s.target.textCall own).toList := by
      cases s.target <;> exact .between (by decide) given.1.filled (by decide)
    exact .between (by decide) (filled_thunk s.target text) ⟨by decide, by decide⟩
  | setSkip condition => exact .between (by decide) (filled_thunk s.target given.filled) ⟨by decide, by decide⟩
  | add key value =>
    have handed : Filled (if s.target.isBacklink value then value else s.target.thunk value).toList := by
      split
      · exact given.2.filled
      · exact filled_thunk s.target given.2.filled
    exact .between (.between (by decide) given.1.filled (by decide)) handed ⟨by decide, by decide⟩

theorem leads_comment (wanted : s.comments = true) (inRecord : Bool) (text : String) :
    Leads s (placed s inRecord (.comment text)) := by
  obtain ⟨lead, blank, written⟩ := CommentLines.placed_comment s inRecord text
  refine .of_joined written ?_ ?_
  all_goals
    intro line inside
    obtain ⟨own, member, rfl⟩ := List.mem_map.mp inside
  · exact comment_whole s.target blank (PathTexts.not_mem_of_mem_splitOn member)
  · exact .inr ⟨wanted, isCode_comment s.target blank own⟩

theorem leads_naked {code : String} (compact : Compact code) : Leads s (s.target.nakedValue code) := by
  cases s.target with
  | javaScript => exact (Ended.append compact.filled ⟨by decide, by decide⟩).leads
  | python =>
    rw [Target.nakedValue]
    by_cases none : code = ""
    · subst none
      exact Leads.feed
    · have some := String.toList_eq_nil_iff.not.mpr none
      refine Ended.leads ⟨?_, by rw [String.toList_append, List.getLast?_append]; rfl⟩
      rw [String.toList_append, Filled, ← List.cons_append, List.isChain_append]
      refine ⟨compact.filled, List.isChain_singleton _, fun c last _ _ _ => compact.ends c ?_⟩
      rwa [← List.singleton_append, List.getLast?_append_of_ne_nil _ some] at last

theorem carries_leads (s : Style) : Carries s Compact (Leads s) where
  nothing := fun _ neat => neat
  append := Leads.append
  feed := Leads.feed
  naked := leads_naked
  placed {step} inRecord given := by
    cases called : TwoStyles.isCall step with
    | true =>
      have ended := ended_call called given
      cases inRecord with
      | false => exact ended.leads
      | true => exact (ended.indent fun c => Style.eq_of_mem_level).leads
    | false =>
      cases step with
      | comment text => exact leads_comment given inRecord text
      | setId => cases called
      | setSkip => cases called
      | add => cases called
  enclosed inner := by
    have opening : Ended s.target.designOpen := by cases s.target <;> exact ⟨by decide, by decide⟩
    have closing : Ended s.target.designClose := by cases s.target <;> exact ⟨by decide, by decide⟩
    exact (opening.leads.append inner).append closing.leads

theorem leads_preamble (s : Style) : Leads s (s.target.preambleText s.target.preamble) := by
  have ends : (s.target.preambleText s.target.preamble).toList.getLast? = some '\n' := by
    cases s.target <;> simp only [Target.preambleText, String.toList_append, String.toList_ofList, String.toList_intercalate] <;>
      decide +kernel
  have lines : ∀ line ∈ (s.target.preambleText s.target.preamble).toList.dropLast.splitOn '\n', trimEnd line = line := by
    cases s.target <;> simp only [Target.preambleText, String.toList_append, String.toList_ofList, String.toList_intercalate] <;>
      decide +kernel
  exact .of_lines (List.dropLast_append_getLast? _ ends).symm fun line inside => .inl (lines line inside)

theorem ends_runLine (t : Target) : t.runLine.toList.getLast? = some '\n' := by
  cases t <;> decide

theorem leads_finish {g : Graph} {code : String} (came : graphCode s g = .ok code) :
    Leads s (s.target.finish code s.target.preamble) := by
  have run : Leads s s.target.runLine := by
    have lines : ∀ line ∈ s.target.runLine.toList.dropLast.splitOn '\n', trimEnd line = line := by
      cases s.target <;> decide
    have whole := List.dropLast_append_getLast? _ (ends_runLine s.target)
    exact .of_lines whole.symm fun line inside => .inl (lines line inside)
  exact ((leads_preamble s).append ((carries_leads s).graphCode (closed_compact s) came)).append run

/-! ## Tidied programs -/

/-- A text that comes from another one by deleting spaces and tabs at the ends of lines that are comments. -/
def Shortened (t : Target) (text text' : List Char) : Prop :=
  List.Forall₂ (fun line line' => line' = line ∨
    isCode t line = false ∧ ∃ blanks, (∀ c ∈ blanks, c = ' ' ∨ c = '\t') ∧ line = line' ++ blanks)
    (text.splitOn '\n') (text'.splitOn '\n')

theorem dropLineEndBlanks_append {b : List Char} (other : (dropLineEndBlanks b).head? ≠ some '\n') (a : List Char) :
    dropLineEndBlanks (a ++ b) = dropLineEndBlanks a ++ dropLineEndBlanks b := by
  induction a with
  | nil => rfl
  | cons c a ih =>
    have same : ((dropLineEndBlanks a ++ dropLineEndBlanks b).head? == some '\n') =
        ((dropLineEndBlanks a).head? == some '\n') := by
      cases dropLineEndBlanks a with
      | nil => simpa using other
      | cons => rfl
    rw [List.cons_append, dropLineEndBlanks, dropLineEndBlanks, ih, same]
    split <;> rfl

/-- A literal is passed as it is, whatever is tidied around it. -/
theorem dropLineEndBlanks_around (t : Target) (text : String) (before after : List Char) :
    dropLineEndBlanks (before ++ (t.quote text).toList ++ after) =
      dropLineEndBlanks before ++ (t.quote text).toList ++ dropLineEndBlanks after := by
  obtain ⟨mark, body, spelled, marked, _⟩ := MaskedLiterals.quote_ends t text
  have literal := MaskedLiterals.Alike.dropLineEndBlanks_quote t text after
  rw [List.append_assoc, dropLineEndBlanks_append, literal, List.append_assoc]
  rw [literal, spelled, List.append_assoc, List.cons_append]
  rintro ⟨⟩
  cases marked

theorem splitOn_finish (t : Target) (code : String) :
    (dropLineEndBlanks (t.finish code t.preamble).toList).splitOn '\n' =
      ((t.finish code t.preamble).toList.splitOn '\n').map trimEnd := by
  have whole : (t.preambleText t.preamble ++ code).toList ++ t.runLine.toList.dropLast ++ ['\n'] =
      (t.finish code t.preamble).toList := by
    rw [List.append_assoc, List.dropLast_append_getLast? _ (ends_runLine t), Target.finish, ← String.toList_append]
  rw [← whole, splitOn_dropLineEndBlanks]

variable {g : Graph} {code program : String}

theorem shortened_finish (came : graphCode s g = .ok code) :
    Shortened s.target (s.target.finish code s.target.preamble).toList
      (dropLineEndBlanks (s.target.finish code s.target.preamble).toList) := by
  have neat := leads_finish came [] neatLines_nil
  rw [List.append_nil] at neat
  rw [Shortened, splitOn_finish, List.forall₂_map_right_iff, List.forall₂_same]
  intro line inside
  rcases neat line inside with same | comment
  · exact .inl same
  · exact .inr ⟨comment.2, trimEnd_blanks line⟩

theorem dropLineEndBlanks_finish (off : s.comments = false) (came : graphCode s g = .ok code) :
    dropLineEndBlanks (s.target.finish code s.target.preamble).toList = (s.target.finish code s.target.preamble).toList := by
  have neat := leads_finish came [] neatLines_nil
  rw [List.append_nil] at neat
  have same : (dropLineEndBlanks (s.target.finish code s.target.preamble).toList).splitOn '\n' =
      (s.target.finish code s.target.preamble).toList.splitOn '\n' := by
    rw [splitOn_finish]
    refine (List.map_congr_left fun line inside => ?_).trans (List.map_id _)
    refine (neat line inside).resolve_right fun comment => ?_
    rw [off] at comment
    cases comment.1
  have joined := congrArg (['\n'].intercalate ·) same
  simpa only [List.intercalate_splitOn] using joined

theorem code_of_generate (came : generate s g = .ok program) :
    ∃ code, graphCode s g = .ok code ∧
      program = String.ofList (dropLineEndBlanks (s.target.finish code s.target.preamble).toList) := by
  obtain ⟨code, graph, came⟩ := Runs.bind_eq_ok came
  refine ⟨code, graph, ?_⟩
  rw [← Except.ok.inj came, Noninterference.tidy_finish]

/-- Without comments, a program is its code between the preamble and the line that runs it. -/
theorem finish_of_generate (off : s.comments = false) (came : generate s g = .ok program) :
    ∃ code, graphCode s g = .ok code ∧ program = s.target.finish code s.target.preamble := by
  obtain ⟨code, graph, rfl⟩ := code_of_generate came
  exact ⟨code, graph, by rw [dropLineEndBlanks_finish off graph, String.ofList_toList]⟩

/-- What is done to a program at last takes nothing away at its ends. It deletes spaces and tabs at the ends of
comments only, so nothing at all if there are none, and every literal stays as it was written. -/
theorem shortened_comments (came : generate s g = .ok program) :
    ∃ code text, graphCode s g = .ok code ∧ text = (s.target.finish code s.target.preamble).toList ∧
      dropLeadingLines text = text ∧ dropTrailingLines text = text ∧ program.toList = dropLineEndBlanks text ∧
      Shortened s.target text program.toList ∧
      (s.comments = false → dropLineEndBlanks text = text ∧ program = s.target.finish code s.target.preamble) ∧
      ∀ before after own, text = before ++ (s.target.quote own).toList ++ after →
        program.toList = dropLineEndBlanks before ++ (s.target.quote own).toList ++ dropLineEndBlanks after := by
  obtain ⟨code, graph, rfl⟩ := code_of_generate came
  refine ⟨code, _, graph, rfl, Noninterference.dropLeadingLines_finish s.target code,
    Noninterference.dropTrailingLines_finish s.target code, String.toList_ofList, ?_, fun off => ?_, ?_⟩
  · rw [String.toList_ofList]
    exact shortened_finish graph
  · have same := dropLineEndBlanks_finish off graph
    exact ⟨same, by rw [same, String.ofList_toList]⟩
  · intro before after own written
    rw [String.toList_ofList, written, dropLineEndBlanks_around]

/-- A profile with an input whose name and value end with blanks. -/
def blankEnds : Graph :=
  ⟨[[.profile "p" (some ⟨"p", none, some "k", [⟨"n", "i"⟩]⟩) [("n ", .literal "v" (.text " \n "))]]]⟩

theorem blankEnds_shortened : ∃ program code text, generate ⟨.python, 2, true⟩ blankEnds = .ok program ∧
    graphCode ⟨.python, 2, true⟩ blankEnds = .ok code ∧ text = (Target.python.finish code Target.python.preamble).toList ∧
    Shortened .python text program.toList ∧ dropLineEndBlanks code.toList ≠ code.toList := by
  have shorter : (graphCode ⟨.python, 2, true⟩ blankEnds).toOption.all (fun code =>
      dropLineEndBlanks code.toList != code.toList) = true := by decide +kernel
  cases came : generate ⟨.python, 2, true⟩ blankEnds with
  | error e =>
    have made : (generate ⟨.python, 2, true⟩ blankEnds).isOk = true := by decide +kernel
    rw [came] at made
    cases made
  | ok program =>
    obtain ⟨code, text, graph, written, _, _, _, short, _, _⟩ := shortened_comments came
    rw [graph, Except.toOption, Option.all_some, bne_iff_ne] at shorter
    exact ⟨program, code, text, rfl, graph, written, short, shorter⟩

end RecordMapper.Proofs.LineEnds
