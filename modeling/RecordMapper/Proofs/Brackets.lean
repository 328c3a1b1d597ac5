import RecordMapper.Proofs.LineEnds

/-!
# Balanced brackets

A reader of a program keeps the brackets that are open, the last one first, and passes string literals. It
stops at a closing bracket that does not answer the last open one, and at a line feed in a literal; a text is
balanced if the reader comes to its end outside of literals and with nothing open. What is balanced stays so
behind other text, between brackets and with its lines indented. Main statement: `program_balanced`. Without
comments every program is balanced, whatever brackets and quotation marks its texts hold, and so is the code of
every expression in it.
-/

namespace RecordMapper.Proofs.Brackets
open RecordMapper.Program RecordMapper.Block RecordMapper.Proofs.MaskedLiterals RecordMapper.Proofs.CodeProperties
open RecordMapper.Proofs.CommentLines (placed)

/-! ## The reader -/

deriving instance DecidableEq for Place

/-- The place of a reader, and the brackets that are open there, the last one first. -/
abbrev Reader := Place × List Char

/-- Whether a character opens a bracket. -/
def opens (c : Char) : Bool := c == '(' || c == '['

/-- The bracket that a closing one answers. -/
def answered? (c : Char) : Option Char := if c = ')' then some '(' else if c = ']' then some '[' else none

/-- The reader behind one more character. -/
def read : Reader → Char → Option Reader
  | (.code, opened), c =>
    if isMark c then some (.inside c, opened)
    else if opens c then some (.code, c :: opened)
    else
      match answered? c with
      | none => some (.code, opened)
      | some bracket => if opened.head? = some bracket then some (.code, opened.tail) else none
  | (.inside mark, opened), c =>
    if c = '\n' then none
    else if c = '\\' then some (.escaped mark, opened)
    else if c = mark then some (.code, opened)
    else some (.inside mark, opened)
  | (.escaped mark, opened), c => if c = '\n' then none else some (.inside mark, opened)

/-- The reader behind a text. -/
def readAll (r : Reader) (cs : List Char) : Option Reader := cs.foldlM read r

/-- A text that begins and ends outside of literals, with other brackets open at its end than at its start. -/
def Takes (text : String) (opened opened' : List Char) : Prop := readAll (.code, opened) text.toList = some (.code, opened')

instance (text : String) (opened opened' : List Char) : Decidable (Takes text opened opened') :=
  inferInstanceAs (Decidable (_ = _))

/-- Literals that end on their line, and brackets that are all answered, the last open one first. -/
def Balanced (text : String) : Prop := Takes text [] []

instance (text : String) : Decidable (Balanced text) := inferInstanceAs (Decidable (Takes _ _ _))

example : Balanced "f(['(\\'', \x22]\x22])" ∧ ¬ Balanced "f([)]" ∧ ¬ Balanced "f('a)" ∧ ¬ Balanced "f('a\n')" := by decide

theorem readAll_append (r : Reader) (a b : List Char) : readAll r (a ++ b) = (readAll r a).bind fun r => readAll r b :=
  List.foldlM_append

theorem readAll_cons (r : Reader) (c : Char) (cs : List Char) :
    readAll r (c :: cs) = (read r c).bind fun r => readAll r cs :=
  List.foldlM_cons

/-! ## What is open does not matter -/

theorem read_more {place place' : Place} {opened opened' : List Char} {c : Char}
    (went : read (place, opened) c = some (place', opened')) (more : List Char) :
    read (place, opened ++ more) c = some (place', opened' ++ more) := by
  cases place with
  | code =>
    simp only [read] at went ⊢
    split at went
    · next mark => cases went; rw [if_pos mark]
    · next plain =>
      rw [if_neg plain]
      split at went
      · next bracket => cases went; rw [if_pos bracket, List.cons_append]
      · next inner =>
        rw [if_neg inner]
        cases closing : answered? c with
        | none =>
          rw [closing] at went
          cases went
          rfl
        | some bracket =>
          rw [closing] at went
          simp only at went ⊢
          split at went
          · next last =>
            cases went
            -- the bracket that is answered is the last open one, so there is one
            obtain ⟨rest, rfl⟩ := List.head?_eq_some_iff.mp last
            simp
          · cases went
  | inside mark =>
    simp only [read] at went ⊢
    split_ifs at went ⊢ <;> cases went <;> rfl
  | escaped mark =>
    simp only [read] at went ⊢
    split_ifs at went ⊢
    cases went
    rfl

theorem readAll_more {place place' : Place} {opened opened' cs : List Char}
    (went : readAll (place, opened) cs = some (place', opened')) (more : List Char) :
    readAll (place, opened ++ more) cs = some (place', opened' ++ more) := by
  induction cs generalizing place opened with
  | nil =>
    cases went
    rfl
  | cons c cs ih =>
    rw [readAll_cons, Option.bind_eq_some_iff] at went
    obtain ⟨⟨between, kept⟩, first, later⟩ := went
    rw [readAll_cons, read_more first more, Option.bind_some]
    exact ih later

/-- Behind balanced text the reader is where it was. -/
theorem Balanced.passed {text : String} (balanced : Balanced text) (opened : List Char) : Takes text opened opened :=
  readAll_more balanced opened

theorem Takes.append {x y : String} {opened opened' opened'' : List Char} (first : Takes x opened opened')
    (second : Takes y opened' opened'') : Takes (x ++ y) opened opened'' := by
  rw [Takes, String.toList_append, readAll_append, first, Option.bind_some, second]

/-! ## Literals and plain text -/

/-- Neither a quotation mark nor a bracket. -/
def Passed (c : Char) : Prop := isMark c = false ∧ opens c = false ∧ answered? c = none

instance (c : Char) : Decidable (Passed c) := inferInstanceAs (Decidable (_ ∧ _))

theorem read_passed {c : Char} (passed : Passed c) (opened : List Char) :
    read (.code, opened) c = some (.code, opened) := by
  obtain ⟨mark, bracket, closing⟩ := passed
  simp [read, mark, bracket, closing]

theorem readAll_passed {cs : List Char} (passed : ∀ c ∈ cs, Passed c) (opened : List Char) :
    readAll (.code, opened) cs = some (.code, opened) := by
  induction cs with
  | nil => rfl
  | cons c cs ih =>
    obtain ⟨first, later⟩ := List.forall_mem_cons.mp passed
    rw [readAll_cons, read_passed first, Option.bind_some, ih later]

/-- On one line, a text without brackets outside of its literals is passed, if its literals have an end. -/
theorem readAll_of_masked {place : Place} {cs mask : List Char} (line : ∀ c ∈ cs, c ≠ '\n')
    (plain : ∀ c ∈ mask, opens c = false ∧ answered? c = none) (masked : maskedFrom? place cs = some mask)
    (opened : List Char) : readAll (place, opened) cs = some (.code, opened) := by
  induction cs generalizing place mask with
  | nil =>
    cases place with
    | code => rfl
    | inside mark => cases masked
    | escaped mark => cases masked
  | cons c cs ih =>
    obtain ⟨first, later⟩ := List.forall_mem_cons.mp line
    rw [readAll_cons]
    cases place with
    | code =>
      rw [maskedFrom?] at masked
      split at masked
      · next mark =>
        rw [read, if_pos mark, Option.bind_some]
        exact ih later plain masked
      · next other =>
        obtain ⟨rest, found, rfl⟩ := Option.map_eq_some_iff.mp masked
        obtain ⟨own, others⟩ := List.forall_mem_cons.mp plain
        rw [read_passed ⟨Bool.not_eq_true _ |>.mp other, own⟩, Option.bind_some]
        exact ih later others found
    | inside mark =>
      rw [maskedFrom?] at masked
      rw [read, if_neg first]
      split at masked
      · next backslash =>
        rw [if_pos backslash, Option.bind_some]
        exact ih later plain masked
      · next plainly =>
        rw [if_neg plainly]
        split at masked
        · next ends =>
          obtain ⟨rest, found, rfl⟩ := Option.map_eq_some_iff.mp masked
          rw [if_pos ends, Option.bind_some]
          exact ih later (List.forall_mem_cons.mp plain).2 found
        · next other =>
          rw [if_neg other, Option.bind_some]
          exact ih later plain masked
    | escaped mark =>
      rw [maskedFrom?] at masked
      rw [read, if_neg first, Option.bind_some]
      exact ih later plain masked

theorem readAll_afterLineFeeds {lead : List Char} (blank : ∀ c ∈ lead, c = ' ') (r : Reader) (cs : List Char) :
    readAll r (afterLineFeeds lead cs) = readAll r cs := by
  have led (opened : List Char) : readAll (.code, opened) lead = some (.code, opened) := by
    refine readAll_passed (fun c inside => ?_) opened
    rw [blank c inside]
    decide
  induction cs generalizing r with
  | nil => rfl
  | cons c cs ih =>
    rw [afterLineFeeds]
    split
    · next feed =>
      subst feed
      obtain ⟨place, opened⟩ := r
      rw [List.cons_append, readAll_cons, readAll_cons]
      -- a line feed that is passed stands outside of literals
      cases place with
      | code =>
        rw [read_passed (by decide), Option.bind_some, Option.bind_some, readAll_append, led, Option.bind_some, ih]
      | inside mark => rfl
      | escaped mark => rfl
    · rw [readAll_cons, readAll_cons]
      exact congrArg _ (funext fun r => ih r)

/-! ## Balanced text in other text -/

namespace Balanced

variable {x y before after : String} {o : List Char}

theorem append (first : Balanced x) (second : Balanced y) : Balanced (x ++ y) := Takes.append first second

/-- Between two texts of which the second one closes what the first one opens. -/
theorem between (opening : Takes before [] o) (inner : Balanced x) (closing : Takes after o []) :
    Balanced (before ++ x ++ after) := (opening.append (inner.passed o)).append closing

theorem indent {lead : String} (blank : ∀ c ∈ lead.toList, c = ' ') (inner : Balanced x) :
    Balanced (Program.indent x lead) := by
  have led : Takes lead [] [] := by
    refine readAll_passed (fun c inside => ?_) []
    rw [blank c inside]
    decide
  have whole := splitFinal_append x.toList
  rw [Balanced, Takes, ← whole, readAll_append] at inner
  rw [Balanced, Takes, Program.indent, String.toList_ofList, readAll_append, readAll_append, led, Option.bind_some,
    readAll_afterLineFeeds blank, inner]

theorem intercalate {xs ys : List String} {separator : String} (plain : Balanced separator)
    (each : List.Forall₂ (fun x _ => Balanced x) xs ys) : Balanced (separator.intercalate xs) :=
  related_intercalate (R := fun x _ => Balanced x) (by decide) append plain each

theorem thunk (t : Target) (inner : Balanced x) : Balanced (t.thunk x) := by
  cases t with
  | python => exact append (by decide) inner
  | javaScript => exact append (by decide) inner

theorem textCall (t : Target) (inner : Balanced x) : Balanced (t.textCall x) := by
  cases t <;> exact between (o := ['(']) (by decide) inner (by decide)

end Balanced

theorem balanced_quote (t : Target) (text : String) : Balanced (t.quote text) := by
  have masked := maskedFrom_quote t text []
  rw [List.append_nil] at masked
  exact readAll_of_masked (quote_feedless t text) (List.forall_mem_singleton.mpr (by decide)) masked []

theorem balanced_number (n : Number) : Balanced n.render := by
  refine readAll_passed (fun c inside => ?_) []
  have numeric := NumberTexts.numeric_render n c inside
  refine ⟨plain_number n c inside, ?_, ?_⟩
  · by_contra bracket
    rw [Bool.not_eq_false, opens, Bool.or_eq_true, beq_iff_eq, beq_iff_eq] at bracket
    obtain rfl | rfl := bracket
    all_goals cases numeric
  · by_contra bracket
    obtain rfl | rfl : c = ')' ∨ c = ']' := by
      rw [answered?] at bracket
      split_ifs at bracket with first second
      · exact .inl first
      · exact .inr second
      · exact absurd rfl bracket
    all_goals cases numeric

theorem balanced_literal (t : Target) (value : Literal) : Balanced (literalCode t value) := by
  cases value with
  | text text => exact balanced_quote t text
  | number n => exact balanced_number n
  | truth b => cases t <;> cases b <;> decide
  | null => cases t <;> decide

theorem balanced_listCode (s : Style) {xs ys : List String} (each : List.Forall₂ (fun x _ => Balanced x) xs ys) :
    Balanced (listCode s xs) := by
  rw [listCode]
  split
  · decide
  · have lines : Balanced (indent (", ".intercalate xs) s.level) :=
      (Balanced.intercalate (by decide) each).indent fun c => Style.eq_of_mem_level
    exact .between (o := ['[']) (by decide) lines (by decide)

theorem balanced_logCall (t : Target) {x y : String} (value : Balanced x) (description : Balanced y) :
    Balanced (t.logCall x y) := by
  have opening : Takes "log(" [] ['('] := by decide
  have comma : Takes ", " ['('] ['('] := by decide
  have closing : Takes ")" ['('] [] := by decide
  exact (((opening.append (value.passed _)).append comma).append (description.passed _)).append closing

theorem balanced_otherwiseCall (t : Target) {x y : String} (value : Balanced x) (other : Balanced y) :
    Balanced (t.otherwiseCall x y) := by
  have opening : Takes "otherwise(" [] ['('] := by decide
  have comma : Takes ", " ['('] ['('] := by decide
  have closing : Takes ")" ['('] [] := by decide
  exact (((opening.append ((value.thunk t).passed _)).append comma).append ((other.thunk t).passed _)).append closing

/-! ## Programs -/

/-- Balanced code is kept wherever code is put into other code. -/
theorem closed_balanced (s : Style) : Closed s Balanced where
  nothing := by decide
  literal := balanced_literal s.target
  enclosed inner := .between (o := ['(']) (by decide) inner (by decide)
  query language _ _ inner := by
    cases s.target <;> cases language <;> exact .between (o := ['(']) (by decide) inner (by decide)
  stop inner := by cases s.target <;> exact .between (o := ['(']) (by decide) inner (by decide)
  log value description := balanced_logCall s.target value description
  otherwise value other := balanced_otherwiseCall s.target value other
  backlink inner := by cases s.target <;> exact .between (o := ['(']) (by decide) inner (by decide)
  list each := balanced_listCode s each

theorem balanced_call {s : Style} (off : s.comments = false) {step : Step} (given : Given s Balanced step) :
    Balanced (step.render s.target) := by
  cases step with
  | comment =>
    rw [Given, off] at given
    cases given
  | setId own =>
    rw [Step.render, Target.setId]
    split
    · decide
    · exact .between (o := ['(']) (by decide) ((given.1.textCall s.target).thunk s.target) (by decide)
  | setSkip condition => exact .between (o := ['(']) (by decide) (given.thunk s.target) (by decide)
  | add key value =>
    have handed : Balanced (if s.target.isBacklink value then value else s.target.thunk value) := by
      split
      · exact given.2
      · exact given.2.thunk s.target
    have opening : Takes ".addAttribute(" [] ['('] := by decide
    have comma : Takes ", " ['('] ['('] := by decide
    have closing : Takes ")\n" ['('] [] := by decide
    exact (((opening.append (given.1.passed _)).append comma).append (handed.passed _)).append closing

theorem carries_balanced {s : Style} (off : s.comments = false) : Carries s Balanced Balanced where
  nothing := by decide
  append := Balanced.append
  feed := by decide
  naked inner := by cases s.target <;> exact Balanced.append inner (by decide)
  placed inRecord given := by
    have call := balanced_call off given
    cases inRecord with
    | false => exact call
    | true => exact call.indent fun c => Style.eq_of_mem_level
  enclosed inner := by cases s.target <;> exact .between (o := ['(']) (by decide) inner (by decide)

theorem balanced_preamble (t : Target) : Balanced (t.preambleText t.preamble) := by
  cases t <;> simp only [Balanced, Takes, Target.preambleText, String.toList_append, String.toList_ofList,
    String.toList_intercalate] <;> decide +kernel

/-- Without comments every program is balanced, and the code of every expression is balanced on its own. -/
theorem program_balanced (s : Style) :
    (∀ b code order, fragment s b = .ok (.expression code order) → Balanced code) ∧
      ∀ g program, s.comments = false → generate s g = .ok program → Balanced program := by
  refine ⟨fun b code order came => code_of_fragment (closed_balanced s) came, fun g program off came => ?_⟩
  obtain ⟨code, graph, rfl⟩ := LineEnds.finish_of_generate off came
  have inner := (carries_balanced off).graphCode (closed_balanced s) graph
  have run : Balanced s.target.runLine := by cases s.target <;> decide
  exact ((balanced_preamble s.target).append inner).append run

/-- A list in a list, with texts that hold brackets and marks of both kinds. -/
def closingTexts : Block :=
  .list "outer" [.literal "x" (.text "')\x22]"),
    .list "inner" [.otherwise "o" (some (.fieldQuery "q" .pointer "/(")) (some (.literal "y" (.text "[\n\\'")))]]

theorem closingTexts_balanced :
    (∃ code order, fragment ⟨.python, 4, true⟩ closingTexts = .ok (.expression code order) ∧ Balanced code) ∧
      ∃ program, generate ⟨.javaScript, 4, false⟩
          ⟨[[.record "r" none none [.attr "a" (some (.literal "k" (.text "("))) (some closingTexts)]]]⟩ = .ok program ∧
        Balanced program := by
  obtain ⟨code, order, came⟩ : ∃ code order, fragment ⟨.python, 4, true⟩ closingTexts = .ok (.expression code order) :=
    ⟨_, _, rfl⟩
  refine ⟨⟨code, order, came, (program_balanced _).1 _ code order came⟩, ?_⟩
  cases made : generate ⟨.javaScript, 4, false⟩
      ⟨[[.record "r" none none [.attr "a" (some (.literal "k" (.text "("))) (some closingTexts)]]]⟩ with
  | error e =>
    have succeeds : (generate ⟨.javaScript, 4, false⟩
      ⟨[[.record "r" none none [.attr "a" (some (.literal "k" (.text "("))) (some closingTexts)]]]⟩).isOk = true := by
      decide +kernel
    rw [made] at succeeds
    cases succeeds
  | ok program => exact ⟨program, rfl, (program_balanced _).2 _ program rfl made⟩

end RecordMapper.Proofs.Brackets
