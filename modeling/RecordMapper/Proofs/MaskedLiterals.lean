import RecordMapper.Program.Basic
import RecordMapper.Proofs.EmptyCode
import RecordMapper.Proofs.NumberTexts

/-!
# Masked literals

To mask a program is to put one and the same sign in place of each of its string literals, from the
opening mark to the next mark of the same kind that is not escaped. Two texts are alike if one comes from
the other by changing what is quoted in its literals, empty texts kept apart from the others. Alike texts
have one mask (`masked_of_alike`), and whatever is decided on the text of code when a program is put
together comes out the same for alike texts and leaves them alike.
-/

namespace RecordMapper.Proofs.MaskedLiterals
open RecordMapper.Program

/-! ## The mask -/

/-- Where a reader of a program stands: outside its literals, in one with a certain mark, or there behind a
backslash. -/
inductive Place where
  | code
  | inside (mark : Char)
  | escaped (mark : Char)

/-- Whether a character is a quotation mark. -/
def isMark (c : Char) : Bool := c == '\x27' || c == '\x22'

/-- A text without quotation marks. -/
def Plain (text : List Char) : Prop := ∀ c ∈ text, isMark c = false

instance (text : List Char) : Decidable (Plain text) :=
  decidable_of_iff (text.all (!isMark ·) = true) (by simp [Plain])

theorem Plain.append {a b : List Char} (first : Plain a) (second : Plain b) : Plain (a ++ b) :=
  List.forall_mem_append.mpr ⟨first, second⟩

theorem Plain.cons {c : Char} {cs : List Char} (first : isMark c = false) (later : Plain cs) : Plain (c :: cs) :=
  List.forall_mem_cons.mpr ⟨first, later⟩

/-- The text from a place on with one double mark for each literal, none if a literal has no end. -/
def maskedFrom? : Place → List Char → Option (List Char)
  | .code, [] => some []
  | .inside _, [] => none
  | .escaped _, [] => none
  | .code, c :: cs =>
    if isMark c then maskedFrom? (.inside c) cs else (maskedFrom? .code cs).map (c :: ·)
  | .inside mark, c :: cs =>
    if c = '\\' then maskedFrom? (.escaped mark) cs
    else if c = mark then (maskedFrom? .code cs).map ('\x22' :: ·)
    else maskedFrom? (.inside mark) cs
  | .escaped mark, _ :: cs => maskedFrom? (.inside mark) cs

/-- A program with its literals masked. -/
def masked? (program : String) : Option (List Char) := maskedFrom? .code program.toList

private theorem isMark_of_quotes {mark : Char} (quotes : mark = '\x27' ∨ mark = '\x22') : isMark mark = true := by
  rcases quotes with rfl | rfl <;> rfl

/-- Neither a backslash nor a quotation mark. -/
private def Passed (c : Char) : Prop := c ≠ '\\' ∧ isMark c = false

private instance (c : Char) : Decidable (Passed c) := inferInstanceAs (Decidable (_ ∧ _))

private theorem passed_hexDigit : ∀ d < 16, Passed (Json.hexDigit d) := by decide

private theorem maskedFrom_passed {mark : Char} (quotes : mark = '\x27' ∨ mark = '\x22') {cs : List Char}
    (passed : ∀ c ∈ cs, Passed c) (rest : List Char) :
    maskedFrom? (.inside mark) (cs ++ rest) = maskedFrom? (.inside mark) rest := by
  induction cs with
  | nil => rfl
  | cons c cs ih =>
    obtain ⟨⟨plain, other⟩, later⟩ := List.forall_mem_cons.mp passed
    have differs : c ≠ mark := by
      rintro rfl
      rw [isMark_of_quotes quotes] at other
      cases other
    rw [List.cons_append, maskedFrom?, if_neg plain, if_neg differs, ih later]

/-- A character that is escaped is a backslash, one more character, and characters that a reader passes. -/
private theorem escapeChar_passed {c : Char} (changed : escapeChar c ≠ [c]) :
    ∃ d tail, escapeChar c = '\\' :: d :: tail ∧ ∀ e ∈ tail, Passed e := by
  unfold escapeChar at changed ⊢
  split_ifs at changed ⊢
  · exact ⟨_, _, rfl, List.forall_mem_nil _⟩
  · exact ⟨_, _, rfl, List.forall_mem_nil _⟩
  · exact ⟨_, _, rfl, List.forall_mem_nil _⟩
  · exact ⟨_, _, rfl, List.forall_mem_nil _⟩
  · refine ⟨_, _, rfl, ?_⟩
    simp only [Json.hex4, List.forall_mem_cons]
    exact ⟨passed_hexDigit _ (by omega), passed_hexDigit _ (by omega), passed_hexDigit _ (by omega),
      passed_hexDigit _ (by omega), List.forall_mem_nil _⟩
  · refine ⟨_, _, rfl, ?_⟩
    simp only [List.forall_mem_cons]
    exact ⟨passed_hexDigit _ (by omega), passed_hexDigit _ (by omega), List.forall_mem_nil _⟩
  · exact absurd rfl changed

/-- A written character does not end the literal that it stands in. -/
private theorem maskedFrom_written {mark : Char} (quotes : mark = '\x27' ∨ mark = '\x22') (c : Char)
    (rest : List Char) :
    maskedFrom? (.inside mark) (StringLiterals.written mark c ++ rest) = maskedFrom? (.inside mark) rest := by
  unfold StringLiterals.written
  split_ifs with own
  · rfl
  · by_cases plain : escapeChar c = [c]
    · have notEscape : c ≠ '\\' := by rintro rfl; exact absurd plain (by decide)
      rw [plain, List.singleton_append, maskedFrom?, if_neg notEscape, if_neg own]
    · obtain ⟨d, tail, spelled, passed⟩ := escapeChar_passed plain
      rw [spelled]
      exact maskedFrom_passed quotes passed rest

private theorem maskedFrom_body {mark : Char} (quotes : mark = '\x27' ∨ mark = '\x22') (cs rest : List Char) :
    maskedFrom? (.inside mark) (cs.flatMap (StringLiterals.written mark) ++ rest) = maskedFrom? (.inside mark) rest := by
  induction cs with
  | nil => rfl
  | cons c cs ih => rw [List.flatMap_cons, List.append_assoc, maskedFrom_written quotes, ih]

/-- The literal of a text is masked as a whole. -/
theorem maskedFrom_quote (t : Target) (s : String) (rest : List Char) :
    maskedFrom? .code ((t.quote s).toList ++ rest) = (maskedFrom? .code rest).map ('\x22' :: ·) := by
  obtain ⟨mark, quotes, spelled⟩ := StringLiterals.quote_written t s
  have ended : mark ≠ '\\' := by rcases quotes with rfl | rfl <;> decide
  rw [spelled, List.append_assoc, List.cons_append, maskedFrom?, if_pos (isMark_of_quotes quotes),
    maskedFrom_body quotes, List.singleton_append, maskedFrom?, if_neg ended, if_pos rfl]

/-! ## Alike texts -/

/-- Two texts that are the same but for what is quoted in their literals; a literal of the empty text
stands only for another one. -/
inductive Alike (t : Target) : List Char → List Char → Prop
  | nil : Alike t [] []
  | char (c : Char) {a b : List Char} (plain : isMark c = false) (rest : Alike t a b) : Alike t (c :: a) (c :: b)
  | literal {s s' : String} {a b : List Char} (told : s.isEmpty = s'.isEmpty) (rest : Alike t a b) :
    Alike t ((t.quote s).toList ++ a) ((t.quote s').toList ++ b)

variable {t : Target} {a b a' b' : List Char}

theorem masked_of_alike (alike : Alike t a b) :
    ∃ m, maskedFrom? .code a = some m ∧ maskedFrom? .code b = some m := by
  induction alike with
  | nil => exact ⟨[], rfl, rfl⟩
  | char c plain _ ih =>
    obtain ⟨m, first, second⟩ := ih
    exact ⟨c :: m, by simp [maskedFrom?, plain, first], by simp [maskedFrom?, plain, second]⟩
  | literal _ _ ih =>
    obtain ⟨m, first, second⟩ := ih
    exact ⟨'\x22' :: m, by rw [maskedFrom_quote, first]; rfl, by rw [maskedFrom_quote, second]; rfl⟩

namespace Alike

theorem symm (alike : Alike t a b) : Alike t b a := by
  induction alike with
  | nil => exact nil
  | char c plain _ ih => exact char c plain ih
  | literal told _ ih => exact literal told.symm ih

theorem append (first : Alike t a b) (second : Alike t a' b') : Alike t (a ++ a') (b ++ b') := by
  induction first with
  | nil => exact second
  | char c plain _ ih => exact char c plain ih
  | literal told _ ih => rw [List.append_assoc, List.append_assoc]; exact literal told ih

/-- A text without quotation marks is alike itself. -/
theorem of_plain {cs : List Char} (plain : Plain cs) : Alike t cs cs := by
  induction cs with
  | nil => exact nil
  | cons c cs ih =>
    obtain ⟨first, later⟩ := List.forall_mem_cons.mp plain
    exact char c first (ih later)

theorem quote {s s' : String} (told : s.isEmpty = s'.isEmpty) : Alike t (t.quote s).toList (t.quote s').toList := by
  simpa using literal told nil

end Alike

/-! ## Blanks -/

/-- A literal is a body between two marks, which is empty only for the empty text. -/
theorem quote_ends (t : Target) (s : String) :
    ∃ mark body, (t.quote s).toList = mark :: body ++ [mark] ∧ isMark mark = true ∧ Text.isBlank mark = false ∧
      (body = [] → s.isEmpty = true) := by
  obtain ⟨mark, quotes, spelled⟩ := StringLiterals.quote_written t s
  refine ⟨mark, _, spelled, isMark_of_quotes quotes, by rcases quotes with rfl | rfl <;> decide, fun none => ?_⟩
  rw [List.flatMap_eq_nil_iff] at none
  rw [String.isEmpty_iff, ← String.toList_inj]
  exact List.eq_nil_iff_forall_not_mem.mpr fun c inside => StringLiterals.written_ne_nil mark c (none c inside)

theorem quote_feedless (t : Target) (s : String) : ∀ c ∈ (t.quote s).toList, c ≠ '\n' := by
  obtain ⟨mark, quotes, spelled⟩ := StringLiterals.quote_written t s
  have own : mark ≠ '\n' := by rcases quotes with rfl | rfl <;> decide
  simp only [spelled, List.forall_mem_append, List.forall_mem_cons, List.forall_mem_flatMap]
  exact ⟨⟨own, fun d _ c inside => (StringLiterals.harmless_written mark d quotes c inside).1⟩, own, List.forall_mem_nil _⟩

private theorem dropBlanks_quote (t : Target) (s : String) (rest : List Char) :
    ((t.quote s).toList ++ rest).dropWhile Text.isBlank = (t.quote s).toList ++ rest := by
  obtain ⟨_, _, spelled, _, shown, _⟩ := quote_ends t s
  simp [spelled, shown]

private theorem dropFinalBlanks_quote (t : Target) (s : String) :
    (t.quote s).toList.reverse.dropWhile Text.isBlank = (t.quote s).toList.reverse := by
  obtain ⟨_, _, spelled, _, shown, _⟩ := quote_ends t s
  simp [spelled, shown]

namespace Alike

theorem isEmpty_eq (alike : Alike t a b) : a.isEmpty = b.isEmpty := by
  cases alike with
  | nil => rfl
  | char => rfl
  | @literal s s' =>
    obtain ⟨_, _, spelled, _⟩ := quote_ends t s
    obtain ⟨_, _, spelled', _⟩ := quote_ends t s'
    rw [spelled, spelled']
    rfl

theorem eq_nil_iff (alike : Alike t a b) : a = [] ↔ b = [] := by
  rw [← List.isEmpty_iff, ← List.isEmpty_iff, alike.isEmpty_eq]

theorem all_blank_eq (alike : Alike t a b) : a.all Text.isBlank = b.all Text.isBlank := by
  induction alike with
  | nil => rfl
  | char c _ _ ih => rw [List.all_cons, List.all_cons, ih]
  | @literal s s' =>
    obtain ⟨_, _, spelled, _, shown, _⟩ := quote_ends t s
    obtain ⟨_, _, spelled', _, shown', _⟩ := quote_ends t s'
    simp [spelled, spelled', shown, shown']

theorem dropBlanks (alike : Alike t a b) : Alike t (a.dropWhile Text.isBlank) (b.dropWhile Text.isBlank) := by
  induction alike with
  | nil => exact nil
  | char c plain rest ih =>
    rw [List.dropWhile_cons, List.dropWhile_cons]
    split
    · exact ih
    · exact char c plain rest
  | literal told rest =>
    rw [dropBlanks_quote, dropBlanks_quote]
    exact literal told rest

theorem dropFinalBlanks (alike : Alike t a b) :
    Alike t (a.reverse.dropWhile Text.isBlank).reverse (b.reverse.dropWhile Text.isBlank).reverse := by
  induction alike with
  | nil => exact nil
  | char c plain _ ih =>
    have same := ih.isEmpty_eq
    simp only [List.isEmpty_reverse] at same
    rw [List.reverse_cons, List.reverse_cons, List.dropWhile_append, List.dropWhile_append, same]
    split
    · rw [List.dropWhile_cons]
      split
      · exact nil
      · exact char c plain nil
    · simpa using char c plain ih
  | literal told _ ih =>
    have same := ih.isEmpty_eq
    simp only [List.isEmpty_reverse] at same
    rw [List.reverse_append, List.reverse_append, List.dropWhile_append, List.dropWhile_append, same]
    split
    · rw [dropFinalBlanks_quote, dropFinalBlanks_quote, List.reverse_reverse, List.reverse_reverse]
      exact quote told
    · simpa using literal (t := t) told ih

theorem trimChars (alike : Alike t a b) : Alike t (Text.trimChars a) (Text.trimChars b) :=
  alike.dropBlanks.dropFinalBlanks

/-- Two marks are a literal of the empty text, which only another one is alike. -/
theorem emptyLiteral (alike : Alike t a b) (two : a = ['\x27', '\x27'] ∨ a = ['\x22', '\x22']) :
    b = (t.quote "").toList := by
  cases alike with
  | nil => simp at two
  | char c plain _ => rcases two with two | two <;> cases two <;> cases plain
  | @literal s s' rest rest' told more =>
    obtain ⟨mark, body, spelled, _, _, empty⟩ := quote_ends t s
    have size : ((t.quote s).toList ++ rest).length = 2 := by rcases two with two | two <;> rw [two] <;> rfl
    rw [spelled] at size
    simp only [List.cons_append, List.length_cons, List.length_append, List.length_nil] at size
    have none : body = [] := List.length_eq_zero_iff.mp (by omega)
    have ended : rest = [] := List.length_eq_zero_iff.mp (by omega)
    have ended' : rest' = [] := more.eq_nil_iff.mp ended
    have same : s' = "" := by
      rw [empty none] at told
      exact String.isEmpty_iff.mp told.symm
    rw [ended', same, List.append_nil]

/-- Whether a text starts with one that has no quotation marks. -/
theorem isPrefixOf_eq {word : List Char} (plain : Plain word) (alike : Alike t a b) :
    word.isPrefixOf a = word.isPrefixOf b := by
  induction alike generalizing word with
  | nil => rfl
  | char c _ _ ih =>
    cases word with
    | nil => rfl
    | cons d word => rw [List.isPrefixOf, List.isPrefixOf, ih (List.forall_mem_cons.mp plain).2]
  | @literal s s' =>
    cases word with
    | nil => rw [List.isPrefixOf, List.isPrefixOf]
    | cons d word =>
      have other (mark : Char) (isOne : isMark mark = true) : (d == mark) = false := by
        rw [beq_eq_false_iff_ne]
        rintro rfl
        rw [(List.forall_mem_cons.mp plain).1] at isOne
        cases isOne
      obtain ⟨mark, _, spelled, isOne, _⟩ := quote_ends t s
      obtain ⟨mark', _, spelled', isOne', _⟩ := quote_ends t s'
      simp [spelled, spelled', List.isPrefixOf, other mark isOne, other mark' isOne']

/-! ## Lines -/

/-- Blanks before a character that shows are at no line's end. -/
private theorem dropLineEndBlanks_append {mark : Char} (shown : Text.isBlank mark = false) {cs : List Char}
    (feedless : ∀ c ∈ cs ++ [mark], c ≠ '\n') (rest : List Char) :
    dropLineEndBlanks (cs ++ [mark] ++ rest) = cs ++ [mark] ++ dropLineEndBlanks rest := by
  induction cs with
  | nil =>
    have other : (mark == ' ' || mark == '\t') = false := by
      rw [Bool.or_eq_false_iff, beq_eq_false_iff_ne, beq_eq_false_iff_ne]
      constructor <;> (rintro rfl; cases shown)
    simp [dropLineEndBlanks, other]
  | cons c cs ih =>
    obtain ⟨_, later⟩ := List.forall_mem_cons.mp feedless
    have goesOn : ((cs ++ [mark] ++ dropLineEndBlanks rest).head? == some '\n') = false := by
      cases cs with
      | nil => simpa using later mark List.mem_cons_self
      | cons d cs => simpa using later d List.mem_cons_self
    rw [List.cons_append, List.cons_append, dropLineEndBlanks, ih later, goesOn, Bool.and_false]
    rfl

theorem dropLineEndBlanks_quote (t : Target) (s : String) (rest : List Char) :
    dropLineEndBlanks ((t.quote s).toList ++ rest) = (t.quote s).toList ++ dropLineEndBlanks rest := by
  obtain ⟨mark, body, spelled, _, shown, _⟩ := quote_ends t s
  have feedless := quote_feedless t s
  rw [spelled] at feedless ⊢
  exact dropLineEndBlanks_append shown feedless rest

theorem afterLineFeeds {lead : List Char} (plain : Plain lead) (alike : Alike t a b) :
    Alike t (afterLineFeeds lead a) (afterLineFeeds lead b) := by
  induction alike with
  | nil => exact nil
  | char c own _ ih =>
    rw [Program.afterLineFeeds, Program.afterLineFeeds]
    split
    · exact char c own ((of_plain plain).append ih)
    · exact char c own ih
  | literal told _ ih =>
    have whole (s : String) : '\n' ∉ (t.quote s).toList := fun inside => quote_feedless t s _ inside rfl
    rw [afterLineFeeds_append, afterLineFeeds_append, afterLineFeeds_of_whole (whole _), afterLineFeeds_of_whole (whole _)]
    exact literal told ih

/-- A final line feed stands at the end of both or of neither, and without it they are alike. -/
private def EndAlike (t : Target) (a b : List Char) : Prop :=
  (a.getLast? = some '\n' ↔ b.getLast? = some '\n') ∧ (a.getLast? = some '\n' → Alike t a.dropLast b.dropLast)

private theorem endAlike_append {lead lead' : List Char} (leads : Alike t lead lead') (alone : EndAlike t lead lead')
    (alike : Alike t a b) (ends : EndAlike t a b) : EndAlike t (lead ++ a) (lead' ++ b) := by
  by_cases none : a = []
  · rw [none, alike.eq_nil_iff.mp none, List.append_nil, List.append_nil]
    exact alone
  · have some' : b ≠ [] := fun none' => none (alike.eq_nil_iff.mpr none')
    rw [EndAlike, List.getLast?_append_of_ne_nil _ none, List.getLast?_append_of_ne_nil _ some',
      List.dropLast_append_of_ne_nil none, List.dropLast_append_of_ne_nil some']
    exact ⟨ends.1, fun feed => leads.append (ends.2 feed)⟩

private theorem endAlike_quote (t : Target) (s s' : String) : EndAlike t (t.quote s).toList (t.quote s').toList := by
  have feedless (s : String) : (t.quote s).toList.getLast? ≠ some '\n' := fun feed =>
    quote_feedless t s _ (List.mem_of_getLast? feed) rfl
  exact ⟨iff_of_false (feedless s) (feedless s'), fun feed => absurd feed (feedless s)⟩

private theorem endAlike (alike : Alike t a b) : EndAlike t a b := by
  induction alike with
  | nil => exact ⟨Iff.rfl, fun _ => nil⟩
  | char c plain rest ih => exact endAlike_append (char c plain nil) ⟨Iff.rfl, fun _ => nil⟩ rest ih
  | literal told rest ih => exact endAlike_append (quote told) (endAlike_quote t _ _) rest ih

theorem splitFinal (alike : Alike t a b) :
    Alike t (splitFinal a).1 (splitFinal b).1 ∧ (Program.splitFinal a).2 = (Program.splitFinal b).2 := by
  obtain ⟨together, without⟩ := alike.endAlike
  rw [Program.splitFinal, Program.splitFinal]
  by_cases feed : a.getLast? = some '\n'
  · rw [if_pos feed, if_pos (together.mp feed)]
    exact ⟨without feed, rfl⟩
  · rw [if_neg feed, if_neg fun other => feed (together.mpr other)]
    exact ⟨alike, rfl⟩

private theorem startsLine_eq (alike : Alike t a b) : (a.head? == some '\n') = (b.head? == some '\n') := by
  cases alike with
  | nil => rfl
  | char => rfl
  | @literal s s' =>
    have other (s : String) (rest : List Char) : (((t.quote s).toList ++ rest).head? == some '\n') = false := by
      obtain ⟨mark, body, spelled, _⟩ := quote_ends t s
      have feedless := quote_feedless t s mark (by simp [spelled])
      simp [spelled, feedless]
    rw [other, other]

theorem dropLineEndBlanks (alike : Alike t a b) : Alike t (dropLineEndBlanks a) (dropLineEndBlanks b) := by
  induction alike with
  | nil => exact nil
  | char c plain _ ih =>
    rw [Program.dropLineEndBlanks, Program.dropLineEndBlanks, ih.startsLine_eq]
    split
    · exact ih
    · exact char c plain ih
  | literal told _ ih =>
    rw [dropLineEndBlanks_quote, dropLineEndBlanks_quote]
    exact literal told ih

end Alike

/-! ## Numbers -/

/-- The text of a number has no quotation marks. -/
theorem plain_number (n : Number) : Plain n.render.toList := fun c inside => by
  cases marked : isMark c with
  | false => rfl
  | true =>
    have numeric := NumberTexts.numeric_render n c inside
    obtain rfl | rfl : c = '\x27' ∨ c = '\x22' := by simpa [isMark] using marked
    all_goals cases numeric

/-! ## Code -/

/-- A relation between texts that is kept when they are put behind each other holds of lists of texts as it
holds of their items. -/
theorem related_intercalate {R : String → String → Prop} (nothing : R "" "")
    (append : ∀ {x y x' y'}, R x y → R x' y' → R (x ++ x') (y ++ y')) {separator : String} (same : R separator separator)
    {xs ys : List String} (related : List.Forall₂ R xs ys) : R (separator.intercalate xs) (separator.intercalate ys) := by
  induction related with
  | nil => exact nothing
  | cons first rest ih =>
    cases rest with
    | nil => rwa [String.intercalate_singleton, String.intercalate_singleton]
    | cons =>
      rw [String.intercalate_cons_cons, String.intercalate_cons_cons]
      exact append (append first same) ih

/-- Two pieces of code that are alike as texts. -/
def AlikeCode (t : Target) (x y : String) : Prop := Alike t x.toList y.toList

namespace AlikeCode

variable {x y x' y' : String}

theorem append (first : AlikeCode t x y) (second : AlikeCode t x' y') : AlikeCode t (x ++ x') (y ++ y') := by
  rw [AlikeCode, String.toList_append, String.toList_append]
  exact Alike.append first second

theorem of_plain {x : String} (plain : Plain x.toList) : AlikeCode t x x := Alike.of_plain plain

theorem quote {text text' : String} (told : text.isEmpty = text'.isEmpty) : AlikeCode t (t.quote text) (t.quote text') :=
  Alike.quote told

/-- Code between two texts without quotation marks. -/
theorem between {before after : String} (open_ : Plain before.toList) (alike : AlikeCode t x y)
    (close : Plain after.toList) : AlikeCode t (before ++ x ++ after) (before ++ y ++ after) :=
  ((of_plain open_).append alike).append (of_plain close)

theorem join {xs ys : List String} (alike : List.Forall₂ (AlikeCode t) xs ys) :
    AlikeCode t (String.join xs) (String.join ys) := by
  rw [AlikeCode, String.toList_join, String.toList_join]
  induction alike with
  | nil => exact .nil
  | cons first _ ih => rw [List.flatMap_cons, List.flatMap_cons]; exact Alike.append first ih

theorem intercalate {separator : String} (plain : Plain separator.toList) {xs ys : List String}
    (alike : List.Forall₂ (AlikeCode t) xs ys) :
    AlikeCode t (separator.intercalate xs) (separator.intercalate ys) :=
  related_intercalate .nil append (of_plain plain) alike

theorem indent {lead : String} (plain : Plain lead.toList) (alike : AlikeCode t x y) :
    AlikeCode t (Program.indent x lead) (Program.indent y lead) := by
  obtain ⟨body, final⟩ := Alike.splitFinal alike
  rw [AlikeCode, Program.indent, Program.indent, String.toList_ofList, String.toList_ofList, final]
  have feed : Plain (splitFinal y.toList).2 := by
    rcases splitFinal_final y.toList with none | feed
    · rw [none]
      exact List.forall_mem_nil _
    · rw [feed]
      exact .cons rfl (List.forall_mem_nil _)
  exact ((Alike.of_plain plain).append (body.afterLineFeeds plain)).append (Alike.of_plain feed)

/-! ### What is read off code -/

theorem isEmpty_eq (alike : AlikeCode t x y) : x.isEmpty = y.isEmpty := by
  have same := Alike.isEmpty_eq alike
  rw [Bool.eq_iff_iff] at same ⊢
  simpa using same

theorem isBlankText_eq (alike : AlikeCode t x y) : Text.isBlankText x = Text.isBlankText y :=
  Alike.all_blank_eq alike

private theorem isEmptyLiteral_iff (x : String) : isEmptyLiteral x = true ↔
    Text.trimChars x.toList = [] ∨ Text.trimChars x.toList = ['\x27', '\x27'] ∨
      Text.trimChars x.toList = ['\x22', '\x22'] := by
  simp only [isEmptyLiteral, Bool.or_eq_true, beq_iff_eq, ← String.toList_inj, Text.trim_toList, or_assoc]
  rfl

private theorem isEmptyLiteral_of (alike : AlikeCode t x y) (empty : isEmptyLiteral x = true) :
    isEmptyLiteral y = true := by
  have trimmed := Alike.trimChars alike
  rw [isEmptyLiteral_iff] at empty ⊢
  rcases empty with none | two
  · have same := trimmed.isEmpty_eq
    rw [none] at same
    exact .inl (List.isEmpty_iff.mp same.symm)
  · rw [trimmed.emptyLiteral two]
    cases t <;> decide

theorem isEmptyLiteral_eq (alike : AlikeCode t x y) : isEmptyLiteral x = isEmptyLiteral y := by
  rw [Bool.eq_iff_iff]
  exact ⟨isEmptyLiteral_of alike, isEmptyLiteral_of alike.symm⟩

theorem isBacklink_eq (alike : AlikeCode t x y) : t.isBacklink x = t.isBacklink y :=
  Alike.isPrefixOf_eq (by cases t <;> decide) alike

/-! ### Calls -/

theorem nakedValue (alike : AlikeCode t x y) : AlikeCode t (t.nakedValue x) (t.nakedValue y) := by
  cases t <;> exact alike.append (of_plain (by decide))

theorem thunk (alike : AlikeCode t x y) : AlikeCode t (t.thunk x) (t.thunk y) := by
  cases t <;> exact (of_plain (by decide)).append alike

theorem setId (alike : AlikeCode t x y) : AlikeCode t (t.setId x) (t.setId y) := by
  have called : AlikeCode t (t.textCall x) (t.textCall y) := by
    cases t <;> exact between (by decide) alike (by decide)
  rw [Target.setId, Target.setId, alike.isEmptyLiteral_eq]
  split
  · exact of_plain (by decide)
  · exact between (by decide) called.thunk (by decide)

theorem setSkip (alike : AlikeCode t x y) : AlikeCode t (t.setSkip x) (t.setSkip y) :=
  between (by decide) alike.thunk (by decide)

theorem addAttribute (key : AlikeCode t x y) (value : AlikeCode t x' y') :
    AlikeCode t (t.addAttribute x x') (t.addAttribute y y') := by
  have handed : AlikeCode t (if t.isBacklink x' then x' else t.thunk x') (if t.isBacklink y' then y' else t.thunk y') := by
    rw [value.isBacklink_eq]
    split
    · exact value
    · exact value.thunk
  exact ((between (by decide) key (by decide)).append handed).append (of_plain (by decide))

theorem backlinkCall (alike : AlikeCode t x y) : AlikeCode t (t.backlinkCall x) (t.backlinkCall y) :=
  between (by cases t <;> decide) alike (by decide)

theorem queryCall (language : QueryLanguage) (alike : AlikeCode t x y) :
    AlikeCode t (queryCall t language x) (queryCall t language y) := by
  cases t <;> cases language <;> exact between (by decide) alike (by decide)

theorem stopCall (alike : AlikeCode t x y) : AlikeCode t (t.stopCall x) (t.stopCall y) := by
  cases t <;> exact between (by decide) alike (by decide)

theorem logCall (value : AlikeCode t x y) (description : AlikeCode t x' y') :
    AlikeCode t (t.logCall x x') (t.logCall y y') :=
  ((between (by decide) value (by decide)).append description).append (of_plain (by decide))

theorem otherwiseCall (value : AlikeCode t x y) (other : AlikeCode t x' y') :
    AlikeCode t (t.otherwiseCall x x') (t.otherwiseCall y y') :=
  ((between (by decide) value.thunk (by decide)).append other.thunk).append (of_plain (by decide))

theorem orNull (alike : AlikeCode t x y) : AlikeCode t (orNull t x) (orNull t y) := by
  rw [Program.orNull, Program.orNull, alike.isEmpty_eq]
  split
  · exact of_plain (by cases t <;> decide)
  · exact alike

end AlikeCode

end RecordMapper.Proofs.MaskedLiterals
