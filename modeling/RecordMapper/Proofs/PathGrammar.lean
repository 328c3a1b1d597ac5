import Mathlib.Data.List.TakeWhile
import RecordMapper.Path.JsonPath

/-!
# The grammar of path texts

Which texts are paths, and what they denote, by rules that say nothing of how a text is read. A text has at
most one reading by these rules, and the reader gives its steps exactly if there is one. Main statement:
`tokenize_grammar`. The reader and the rules meet in one step: a text starts with a step of the grammar
exactly if the reader takes that step (`firstStep_of_denotes`, `denotes_of_firstStep`), provided that no name
goes on behind it.
-/

namespace RecordMapper.Proofs.PathGrammar
open RecordMapper.JsonPath

/-! ## Rules -/

/-- What stands between two quotation marks, and the name that it spells. -/
inductive Spells (mark : Char) : List Char → List Char → Prop
  | nil : Spells mark [] []
  | plain {c : Char} {cs name : List Char} (unescaped : c ≠ '\\') (unmarked : c ≠ mark) (later : Spells mark cs name) :
    Spells mark (c :: cs) (c :: name)
  | escaped (c : Char) {cs name : List Char} (later : Spells mark cs name) : Spells mark ('\\' :: c :: cs) (c :: name)

/-- A step as it is written, and what it denotes. -/
inductive Denotes : List Char → Token → Prop
  | everyMember : Denotes ['.', '*'] .wildcard
  | everyItem : Denotes ['[', '*', ']'] .wildcard
  | name {name : List Char} (nonempty : name ≠ []) (starless : name.head? ≠ some '*')
    (whole : ∀ c ∈ name, c ≠ '.' ∧ c ≠ '[') : Denotes ('.' :: name) (.key (String.ofList name))
  | index {digits : List Char} (read : Text.isDigits digits = true) :
    Denotes ('[' :: digits ++ [']']) (.index (String.ofList digits))
  | quoted {mark : Char} (quotes : mark = '\x27' ∨ mark = '\x22') {body name : List Char} (spells : Spells mark body name) :
    Denotes ('[' :: mark :: body ++ [mark, ']']) (.key (String.ofList name))

/-- A reading of a text as a dollar sign and steps, each as it is written and with what it denotes. -/
@[ext]
structure Reading (text : List Char) where
  steps : List (List Char × Token)
  denotes : ∀ step ∈ steps, Denotes step.1 step.2
  written : text = '$' :: steps.flatMap (·.1)

/-- What the steps of a reading denote, in order. -/
def Reading.tokens {text : List Char} (r : Reading text) : List Token := r.steps.map (·.2)

/-- Texts at which a name after a point ends. -/
def EndsName (cs : List Char) : Prop := ∀ c ∈ cs.head?, inName c = false

theorem endsName_of_denotes {w : List Char} {t : Token} (step : Denotes w t) (rest : List Char) :
    EndsName (w ++ rest) := by
  cases step <;> simp [EndsName, inName]

theorem endsName_flatMap {r : List (List Char × Token)} (denotes : ∀ step ∈ r, Denotes step.1 step.2) :
    EndsName (r.flatMap (·.1)) := by
  cases r with
  | nil => simp [EndsName]
  | cons step rest => exact endsName_of_denotes (denotes step List.mem_cons_self) _

/-! ## Names, digits and quoted names -/

theorem span_append {p : Char → Bool} {cs rest : List Char} (inside : ∀ c ∈ cs, p c = true)
    (stop : ∀ c ∈ rest.head?, p c = false) :
    (cs ++ rest).takeWhile p = cs ∧ (cs ++ rest).dropWhile p = rest := by
  rw [List.takeWhile_append_of_pos inside, List.dropWhile_append_of_pos inside]
  cases rest with
  | nil => simp
  | cons c tail => simp [stop c (by simp)]

theorem isDigits_takeWhile {c : Char} (cs : List Char) (digit : c.isDigit = true) :
    Text.isDigits ((c :: cs).takeWhile Char.isDigit) = true := by
  rw [Text.isDigits, List.takeWhile_cons, if_pos digit, Bool.and_eq_true, List.all_eq_true]
  refine ⟨rfl, fun d member => ?_⟩
  rcases List.mem_cons.mp member with rfl | member
  · exact digit
  · exact List.mem_takeWhile_imp member

theorem isQuote_iff (c : Char) : isQuote c = true ↔ c = '\x27' ∨ c = '\x22' := by
  simp [isQuote]

/-- A quoted name is read up to its closing mark, whatever follows. -/
theorem quoted_of_spells {mark : Char} (quotes : mark = '\x27' ∨ mark = '\x22') {body name : List Char}
    (spells : Spells mark body name) (rest : List Char) : quoted mark (body ++ mark :: rest) = some (name, rest) := by
  have unescaped : mark ≠ '\\' := by rcases quotes with rfl | rfl <;> decide
  induction spells with
  | nil =>
    rw [List.nil_append, quoted, if_pos rfl]
    · simp [unescaped]
    · simp [unescaped]
  | plain plain unmarked _ ih =>
    rw [List.cons_append, quoted, if_neg unmarked, ih]
    · rfl
    · simp [plain]
    · simp [plain]
  | escaped c _ ih =>
    rw [List.cons_append, List.cons_append, quoted, ih]
    rfl

theorem spells_of_quoted {mark : Char} {cs name rest : List Char} (read : quoted mark cs = some (name, rest)) :
    ∃ body, Spells mark body name ∧ cs = body ++ mark :: rest := by
  fun_induction quoted mark cs generalizing name rest with
  | case1 => cases read
  | case2 => cases read
  | case3 c tail ih =>
    obtain ⟨⟨later, left⟩, readLater, same⟩ := Option.map_eq_some_iff.mp read
    obtain ⟨rfl, rfl⟩ := Prod.mk.inj same
    obtain ⟨body, spells, rfl⟩ := ih readLater
    exact ⟨_, .escaped c spells, rfl⟩
  | case4 =>
    cases read
    exact ⟨[], .nil, rfl⟩
  | case5 c tail noEnd noPair unmarked ih =>
    obtain ⟨⟨later, left⟩, readLater, same⟩ := Option.map_eq_some_iff.mp read
    obtain ⟨rfl, rfl⟩ := Prod.mk.inj same
    obtain ⟨body, spells, rfl⟩ := ih readLater
    have unescaped : c ≠ '\\' := by
      rintro rfl
      cases body with
      | nil => exact noPair _ _ rfl rfl
      | cons d body => exact noPair _ _ rfl rfl
    exact ⟨_, .plain unescaped unmarked spells, rfl⟩

/-! ## One step -/

/-- The first step of a text as the reader takes it, and what is left behind it. -/
def firstStep (n : Nat) : List Char → Option (Token × List Char)
  | '.' :: '*' :: rest => some (.wildcard, rest)
  | '.' :: rest =>
    if (rest.takeWhile inName).isEmpty then none
    else some (.key (String.ofList (rest.takeWhile inName)), rest.dropWhile inName)
  | '[' :: rest => (bracket n rest).toOption
  | _ => none

theorem bracket_index (n : Nat) {digits : List Char} (read : Text.isDigits digits = true) (rest : List Char) :
    bracket n (digits ++ ']' :: rest) = .ok (.index (String.ofList digits), rest) := by
  simp only [Text.isDigits, Bool.and_eq_true, Bool.not_eq_true', List.isEmpty_eq_false_iff, List.all_eq_true] at read
  obtain ⟨some, inside⟩ := read
  have closing : ∀ c ∈ (']' :: rest).head?, c.isDigit = false := by simp
  obtain ⟨taken, left⟩ := span_append inside closing
  obtain ⟨c, tail, rfl⟩ := List.exists_cons_of_ne_nil some
  -- a digit is neither a star nor a quote mark, which the reader tries first
  have digit : c.isDigit = true := inside c (by simp)
  have star : c ≠ '*' := by rintro rfl; simp at digit
  have unquoted : ¬ isQuote c = true := by
    rw [isQuote_iff]
    rintro (rfl | rfl) <;> simp at digit
  rw [List.cons_append] at taken left ⊢
  simp [bracket, content, star, unquoted, digit, taken, left]

theorem bracket_quoted (n : Nat) {mark : Char} (quotes : mark = '\x27' ∨ mark = '\x22') {body name : List Char}
    (spells : Spells mark body name) (rest : List Char) :
    bracket n (mark :: (body ++ mark :: ']' :: rest)) = .ok (.key (String.ofList name), rest) := by
  have star : mark ≠ '*' := by rcases quotes with rfl | rfl <;> decide
  simp [bracket, content, star, (isQuote_iff mark).mpr quotes, quoted_of_spells quotes spells]

/-- What is read between brackets is a step of the grammar with brackets around it. -/
theorem denotes_of_content {n : Nat} {cs rest : List Char} {t : Token} (read : content n cs = .ok (t, rest)) :
    ∃ inner, Denotes ('[' :: inner ++ [']']) t ∧ cs = inner ++ rest := by
  unfold content at read
  split at read
  · cases read
  · rename_i c tail
    split_ifs at read with star quote digit
    · cases read
      rw [star]
      exact ⟨['*'], .everyItem, rfl⟩
    · split at read
      · rename_i closed
        cases read
        obtain ⟨body, spells, rfl⟩ := spells_of_quoted closed
        refine ⟨c :: body ++ [c], ?_, by simp⟩
        simpa using Denotes.quoted ((isQuote_iff c).mp quote) spells
      · cases read
    · simp only [Except.ok.injEq, Prod.mk.injEq] at read
      obtain ⟨rfl, rfl⟩ := read
      exact ⟨_, .index (isDigits_takeWhile tail digit), (List.takeWhile_append_dropWhile).symm⟩

theorem denotes_of_bracket {n : Nat} {cs rest : List Char} {t : Token} (read : bracket n cs = .ok (t, rest)) :
    ∃ inner, Denotes ('[' :: inner) t ∧ cs = inner ++ rest := by
  unfold bracket at read
  split at read
  · cases read
  · rename_i inside
    split at read
    · cases read
      obtain ⟨inner, step, rfl⟩ := denotes_of_content inside
      exact ⟨inner ++ [']'], step, by simp⟩
    · cases read
    · cases read

theorem firstStep_of_denotes (n : Nat) {w rest : List Char} {t : Token} (step : Denotes w t) (ends : EndsName rest) :
    firstStep n (w ++ rest) = some (t, rest) := by
  cases step with
  | everyMember => rfl
  | everyItem => rfl
  | @name name nonempty starless whole =>
    have inside : ∀ c ∈ name, inName c = true := fun c member => by simp [inName, whole c member]
    obtain ⟨taken, left⟩ := span_append inside ends
    obtain ⟨c, tail, rfl⟩ := List.exists_cons_of_ne_nil nonempty
    have plain : ∀ rest', c :: (tail ++ rest) = '*' :: rest' → False := by
      intro rest' same
      exact starless (congrArg some (List.cons.inj same).1)
    rw [List.cons_append] at taken left
    rw [List.cons_append, List.cons_append, firstStep, taken, left]
    · rfl
    · exact plain
  | index read =>
    rw [List.cons_append, List.cons_append, List.append_assoc, firstStep, List.singleton_append, bracket_index n read]
    rfl
  | quoted quotes spells =>
    have read := bracket_quoted n quotes spells rest
    simp only [List.cons_append, List.append_assoc, List.nil_append, firstStep, read]
    rfl

theorem denotes_of_firstStep {n : Nat} {cs rest : List Char} {t : Token} (read : firstStep n cs = some (t, rest)) :
    ∃ w, Denotes w t ∧ cs = w ++ rest := by
  unfold firstStep at read
  split at read
  · cases read
    exact ⟨_, .everyMember, rfl⟩
  · rename_i tail starless
    split_ifs at read with none
    cases read
    refine ⟨'.' :: tail.takeWhile inName, .name (by simpa using none) ?_ ?_, ?_⟩
    · intro star
      cases tail with
      | nil => cases star
      | cons c tail =>
        rw [List.takeWhile_cons] at star
        split_ifs at star
        · cases star
          exact starless _ rfl
        · cases star
    · intro c member
      simpa [inName] using List.mem_takeWhile_imp member
    · rw [List.cons_append, List.takeWhile_append_dropWhile]
  · rename_i tail
    cases bracketed : bracket n tail with
    | error e =>
      rw [bracketed] at read
      cases read
    | ok found =>
      rw [bracketed] at read
      cases read
      obtain ⟨inner, step, rfl⟩ := denotes_of_bracket bracketed
      exact ⟨_, step, rfl⟩
  · cases read

/-! ## All steps -/

/-- What was read behind one more item. -/
theorem map_cons_eq_ok {ε α : Type} {a : α} {as : List α} {later : Except ε (List α)}
    (read : later.map (a :: ·) = .ok as) : ∃ rest, later = .ok rest ∧ as = a :: rest := by
  cases later with
  | error e => cases read
  | ok rest =>
    cases read
    exact ⟨rest, rfl, rfl⟩

theorem steps_of_firstStep {n : Nat} {cs rest : List Char} {t : Token} (read : firstStep n cs = some (t, rest)) :
    steps n cs = (steps n rest).map (t :: ·) := by
  unfold firstStep at read
  split at read
  · cases read
    rw [steps]
  · rename_i tail starless
    split_ifs at read with none
    cases read
    rw [steps.eq_3 n _ starless, if_neg none]
  · rename_i tail
    cases bracketed : bracket n tail with
    | error e =>
      rw [bracketed] at read
      cases read
    | ok found =>
      rw [bracketed] at read
      cases read
      rw [steps]
      split
      · simp_all
      · simp_all
  · cases read

/-- The reader comes to its end, or takes a first step and goes on behind it. -/
theorem firstStep_of_steps {n : Nat} {cs : List Char} {ts : List Token} (read : steps n cs = .ok ts) :
    (cs = [] ∧ ts = []) ∨ ∃ t rest later, firstStep n cs = some (t, rest) ∧ steps n rest = .ok later ∧ ts = t :: later := by
  unfold steps at read
  split at read
  · cases read
    exact .inl ⟨rfl, rfl⟩
  · obtain ⟨later, readLater, rfl⟩ := map_cons_eq_ok read
    exact .inr ⟨_, _, later, rfl, readLater, rfl⟩
  · rename_i tail starless
    split_ifs at read with none
    obtain ⟨later, readLater, rfl⟩ := map_cons_eq_ok read
    refine .inr ⟨_, _, later, ?_, readLater, rfl⟩
    rw [firstStep, if_neg none]
    exact starless
  · split at read
    · cases read
    · rename_i bracketed
      obtain ⟨later, readLater, rfl⟩ := map_cons_eq_ok read
      refine .inr ⟨_, _, later, ?_, readLater, rfl⟩
      rw [firstStep, bracketed]
      rfl
  · cases read

theorem steps_of_denotes (n : Nat) {r : List (List Char × Token)} (denotes : ∀ step ∈ r, Denotes step.1 step.2) :
    steps n (r.flatMap (·.1)) = .ok (r.map (·.2)) := by
  induction r with
  | nil => simp [steps]
  | cons step rest ih =>
    obtain ⟨first, later⟩ := List.forall_mem_cons.mp denotes
    rw [List.flatMap_cons, steps_of_firstStep (firstStep_of_denotes n first (endsName_flatMap later)), ih later]
    rfl

theorem denotes_of_steps {n : Nat} {cs : List Char} {ts : List Token} (read : steps n cs = .ok ts) :
    ∃ r : List (List Char × Token), (∀ step ∈ r, Denotes step.1 step.2) ∧ cs = r.flatMap (·.1) ∧ r.map (·.2) = ts := by
  induction ts generalizing cs with
  | nil =>
    rcases firstStep_of_steps read with ⟨rfl, -⟩ | ⟨_, _, _, _, _, same⟩
    · exact ⟨[], List.forall_mem_nil _, rfl, rfl⟩
    · cases same
  | cons t ts ih =>
    rcases firstStep_of_steps read with ⟨-, same⟩ | ⟨_, rest, _, first, readLater, same⟩
    · cases same
    · cases same
      obtain ⟨w, step, rfl⟩ := denotes_of_firstStep first
      obtain ⟨r, later, rfl, rfl⟩ := ih readLater
      exact ⟨(w, t) :: r, List.forall_mem_cons.mpr ⟨step, later⟩, rfl, rfl⟩

/-- A text starts with one step only: the reader tells what the step denotes and what is left behind it. -/
theorem denotes_unique {w w' rest rest' : List Char} {t t' : Token} (step : Denotes w t) (step' : Denotes w' t')
    (ends : EndsName rest) (ends' : EndsName rest') (same : w ++ rest = w' ++ rest') :
    w = w' ∧ t = t' ∧ rest = rest' := by
  have read := firstStep_of_denotes 0 step ends
  rw [same, firstStep_of_denotes 0 step' ends'] at read
  cases read
  exact ⟨List.append_cancel_right same, rfl, rfl⟩

theorem steps_unique {r r' : List (List Char × Token)} (denotes : ∀ step ∈ r, Denotes step.1 step.2)
    (denotes' : ∀ step ∈ r', Denotes step.1 step.2) (same : r.flatMap (·.1) = r'.flatMap (·.1)) : r = r' := by
  have nonempty {w : List Char} {t : Token} (step : Denotes w t) : w ≠ [] := by cases step <;> simp
  induction r generalizing r' with
  | nil =>
    cases r' with
    | nil => rfl
    | cons step' rest' =>
      have empty := List.append_eq_nil_iff.mp same.symm
      exact absurd empty.1 (nonempty (denotes' step' List.mem_cons_self))
  | cons step rest ih =>
    obtain ⟨first, later⟩ := List.forall_mem_cons.mp denotes
    cases r' with
    | nil =>
      have empty := List.append_eq_nil_iff.mp same
      exact absurd empty.1 (nonempty first)
    | cons step' rest' =>
      obtain ⟨first', later'⟩ := List.forall_mem_cons.mp denotes'
      obtain ⟨sameText, sameToken, sameRest⟩ :=
        denotes_unique first first' (endsName_flatMap later) (endsName_flatMap later') same
      rw [ih later later' sameRest, Prod.ext sameText sameToken]

/-! ## Whole paths -/

theorem tokenize_eq_ok_iff (p : String) (ts : List Token) :
    tokenize p = .ok ts ↔ ∃ r : Reading (Text.trimChars p.toList), r.tokens = ts := by
  constructor
  · intro read
    unfold tokenize at read
    split at read
    · rename_i rest text
      split at read
      · rename_i stepped
        cases read
        obtain ⟨r, denotes, rfl, rfl⟩ := denotes_of_steps stepped
        exact ⟨⟨r, denotes, text⟩, rfl⟩
      · cases read
      · cases read
    · cases read
  · rintro ⟨⟨r, denotes, text⟩, rfl⟩
    simp only [tokenize, text, steps_of_denotes _ denotes, Reading.tokens]

instance reading_subsingleton (text : List Char) : Subsingleton (Reading text) where
  allEq r r' := by
    have same := r.written.symm.trans r'.written
    exact Reading.ext (steps_unique r.denotes r'.denotes (List.cons.inj same).2)

/-- A path text is read as steps exactly if, without the blanks around it, it is a dollar sign and written
steps that denote them in order. There is never more than one way to take it so, and where there is none the
reader ends with an error. -/
theorem tokenize_grammar (p : String) :
    (∀ ts, tokenize p = .ok ts ↔ ∃ r : Reading (Text.trimChars p.toList), r.tokens = ts) ∧
    Subsingleton (Reading (Text.trimChars p.toList)) ∧
    ((∃ e, tokenize p = .error e) ↔ IsEmpty (Reading (Text.trimChars p.toList))) := by
  refine ⟨tokenize_eq_ok_iff p, inferInstance, ?_⟩
  constructor
  · rintro ⟨e, refused⟩
    refine ⟨fun r => ?_⟩
    have read := (tokenize_eq_ok_iff p r.tokens).mpr ⟨r, rfl⟩
    rw [refused] at read
    cases read
  · intro none
    cases read : tokenize p with
    | error e => exact ⟨e, rfl⟩
    | ok ts =>
      obtain ⟨r, -⟩ := (tokenize_eq_ok_iff p ts).mp read
      exact none.elim r

end RecordMapper.Proofs.PathGrammar
