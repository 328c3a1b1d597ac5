import RecordMapper.Proofs.PathTexts

/-!
# Where a path text fails

A text that is refused is told where: at a character, up to which it could have gone on to be a path, or at its
end, if all of it could have (`faults_located`). The reader takes whole steps as long as it can, and what it has
taken of the step at which it fails can be completed, always with a closing bracket at the end (`completes_of_fault`).
-/

namespace RecordMapper.Proofs.LocatedFaults
open RecordMapper.JsonPath RecordMapper.Proofs.PathGrammar RecordMapper.Proofs.PathTexts

/-! ## Texts that can go on -/

/-- Texts that can go on to be read as a path. -/
def Viable (cs : List Char) : Prop := ∃ more ts, tokenize (String.ofList (cs ++ more)) = .ok ts

/-- Texts that can go on, up to a closing bracket, to be steps of the grammar. -/
def Completes (cs : List Char) : Prop :=
  ∃ more, ∃ r : List (List Char × Token), (∀ step ∈ r, Denotes step.1 step.2) ∧ cs ++ more ++ [']'] = r.flatMap (·.1)

theorem completes_of_denotes {cs : List Char} (more : List Char) {t : Token}
    (step : Denotes (cs ++ more ++ [']']) t) : Completes cs :=
  ⟨more, [(_, t)], List.forall_mem_singleton.mpr step, (List.flatMap_singleton _ _).symm⟩

theorem completes_append {w cs : List Char} {t : Token} (step : Denotes w t) (completes : Completes cs) :
    Completes (w ++ cs) := by
  obtain ⟨more, r, denotes, written⟩ := completes
  refine ⟨more, (w, t) :: r, List.forall_mem_cons.mpr ⟨step, denotes⟩, ?_⟩
  rw [List.flatMap_cons, ← written]
  simp

theorem completes_nil : Completes [] :=
  completes_of_denotes ['[', '0'] (@Denotes.index ['0'] rfl)

theorem completes_opening : Completes ['['] :=
  completes_of_denotes ['0'] (@Denotes.index ['0'] rfl)

theorem viable_of_completes {cs : List Char} (completes : Completes cs) : Viable ('$' :: cs) := by
  obtain ⟨more, r, denotes, written⟩ := completes
  have text : '$' :: cs ++ (more ++ [']']) = '$' :: r.flatMap (·.1) := by
    rw [← written]
    simp
  have plain : Text.trimChars ('$' :: cs ++ (more ++ [']'])) = '$' :: cs ++ (more ++ [']']) := by
    refine trimChars_of_plain (by simp [Text.isBlank]) ?_
    rw [← List.append_assoc]
    exact endsPlain_closed _
  refine ⟨more ++ [']'], r.map (·.2), ?_⟩
  rw [tokenize_eq_ok_iff, String.toList_ofList, plain]
  exact ⟨⟨r, denotes, text⟩, rfl⟩

/-- A name without a closing mark can be given one, behind one more character if it ends in a backslash. -/
theorem spells_of_unclosed {mark : Char} {cs : List Char} (unclosed : quoted mark cs = none) :
    ∃ more name, Spells mark (cs ++ more) name := by
  fun_induction quoted mark cs with
  | case1 => exact ⟨[], [], .nil⟩
  | case2 => exact ⟨['\\'], ['\\'], .escaped '\\' .nil⟩
  | case3 c tail ih =>
    obtain ⟨more, name, spells⟩ := ih (Option.map_eq_none_iff.mp unclosed)
    exact ⟨more, c :: name, .escaped c spells⟩
  | case4 => cases unclosed
  | case5 c tail noEnd noPair unmarked ih =>
    obtain ⟨more, name, spells⟩ := ih (Option.map_eq_none_iff.mp unclosed)
    have unescaped : c ≠ '\\' := by
      rintro rfl
      cases tail with
      | nil => exact noEnd rfl rfl
      | cons d tail => exact noPair _ _ rfl rfl
    exact ⟨more, c :: name, .plain unescaped unmarked spells⟩

/-! ## Faults -/

/-- What a fault says of the last part of a text of length `n`: the character that was not expected stands there at
its offset, behind what has a property, or all of the part has the property. -/
def Located (n : Nat) (cs : List Char) (P : List Char → Prop) : Fault → Prop
  | .unexpected offset found =>
    ∃ before rest, cs = before ++ found :: rest ∧ offset = n - (found :: rest).length ∧ P before
  | .unterminated => P cs

section

variable {n : Nat} {cs : List Char} {f : Fault}

theorem located_here {c : Char} {rest : List Char} {P : List Char → Prop} (start : P []) :
    Located n (c :: rest) P (.unexpected (n - (c :: rest).length) c) :=
  ⟨[], rest, rfl, rfl, start⟩

theorem located_append {w : List Char} {P Q : List Char → Prop} (located : Located n cs P f)
    (more : ∀ before, P before → Q (w ++ before)) : Located n (w ++ cs) Q f := by
  cases f with
  | unexpected offset found =>
    obtain ⟨before, rest, rfl, place, kept⟩ := located
    exact ⟨w ++ before, rest, (List.append_assoc _ _ _).symm, place, more before kept⟩
  | unterminated => exact more cs located

theorem located_of_content (refused : content n cs = .error f) :
    Located n cs (fun inner => Completes ('[' :: inner)) f := by
  unfold content at refused
  split at refused
  · cases refused
    exact completes_opening
  · rename_i c tail
    split_ifs at refused with star quote digit
    · split at refused
      · cases refused
      · rename_i unclosed
        cases refused
        obtain ⟨more, name, spells⟩ := spells_of_unclosed unclosed
        refine completes_of_denotes (more ++ [c]) (t := .key (String.ofList name)) ?_
        simpa using Denotes.quoted ((isQuote_iff c).mp quote) spells
    · cases refused
      exact located_here completes_opening

theorem located_of_bracket (refused : bracket n cs = .error f) :
    Located n cs (fun inner => Completes ('[' :: inner)) f := by
  unfold bracket at refused
  split at refused
  · rename_i failed
    cases refused
    exact located_of_content failed
  · rename_i t left read
    obtain ⟨inner, step, rfl⟩ := denotes_of_content read
    -- only the closing bracket is missing behind what was read
    have completes : Completes ('[' :: inner) := completes_of_denotes [] (by simpa using step)
    split at refused
    · cases refused
    · cases refused
      exact ⟨inner, _, rfl, rfl, completes⟩
    · cases refused
      simpa [Located] using completes

theorem located_of_firstStep {rest : List Char} {t : Token} (first : firstStep n cs = some (t, rest))
    (located : Located n rest Completes f) : Located n cs Completes f := by
  obtain ⟨w, step, rfl⟩ := denotes_of_firstStep first
  exact located_append located fun _ => completes_append step

private theorem error_of_map {ε α β : Type} {x : Except ε α} {g : α → β} {e : ε} (failed : x.map g = .error e) :
    x = .error e := by
  cases x with
  | error e' =>
    cases failed
    rfl
  | ok a => cases failed

/-- Where the steps of a text are refused, what stands before can be completed. -/
theorem completes_of_fault (refused : steps n cs = .error f) : Located n cs Completes f := by
  fun_induction steps n cs with
  | case1 => cases refused
  | case2 rest ih => exact located_of_firstStep rfl (ih (error_of_map refused))
  | case3 rest starless none =>
    cases refused
    exact located_here completes_nil
  | case4 rest starless some shorter ih =>
    have first : firstStep n ('.' :: rest) =
        .some (.key (String.ofList (rest.takeWhile inName)), rest.dropWhile inName) := by
      rw [firstStep, if_neg some]
      exact starless
    exact located_of_firstStep first (ih (error_of_map refused))
  | case5 rest e failed =>
    cases refused
    exact located_append (w := ['[']) (located_of_bracket failed) fun _ completes => completes
  | case6 rest t left read shorter ih =>
    have first : firstStep n ('[' :: rest) = .some (t, left) := by
      rw [firstStep, read]
      rfl
    exact located_of_firstStep first (ih (error_of_map refused))
  | case7 c rest =>
    cases refused
    exact located_here completes_nil

end

/-! ## Whole paths -/

/-- What the errors of a path text say of it. Of the other errors there is nothing to say, since none of them comes. -/
def Truthful (p : String) : PathError → Prop
  | .missingRoot path => path = p ∧ (Text.trimChars p.toList).head? ≠ some '$'
  | .unexpected path offset found => path = p ∧ offset < (Text.trimChars p.toList).length ∧
      (Text.trimChars p.toList)[offset]? = some found ∧ Viable ((Text.trimChars p.toList).take offset)
  | .unterminated path => path = p ∧ Viable (Text.trimChars p.toList)
  | .missingSlash _ => False
  | .badEscape _ _ => False
  | .wildcard _ => False

theorem truthful_of_error {p : String} {e : PathError} (refused : tokenize p = .error e) : Truthful p e := by
  unfold tokenize at refused
  split at refused
  · rename_i rest text
    split at refused
    · cases refused
    · rename_i offset found failed
      cases refused
      obtain ⟨before, later, rfl, rfl, completes⟩ := completes_of_fault failed
      -- the dollar sign counts as well
      have place : (before ++ found :: later).length + 1 - (found :: later).length = before.length + 1 := by
        simp only [List.length_append, List.length_cons]
        omega
      have whole : Text.trimChars p.toList = ('$' :: before) ++ found :: later := text
      rw [Truthful, place, whole, List.take_left' (by simp)]
      exact ⟨rfl, by simp, by simp, viable_of_completes completes⟩
    · rename_i failed
      cases refused
      rw [Truthful, text]
      exact ⟨rfl, viable_of_completes (completes_of_fault failed)⟩
  · rename_i rootless
    cases refused
    refine ⟨rfl, fun root => ?_⟩
    obtain ⟨rest, text⟩ := List.head?_eq_some_iff.mp root
    exact rootless rest text

/-- A text that is refused for an unexpected character has that character at the offset, counted without the blanks
around the text, and up to there it could go on to be read. One that is refused for an open bracket could go on
as a whole. A dollar sign is missed exactly where there is none, and nothing else is ever the matter; each
error names the text that was refused. -/
theorem faults_located (p : String) :
    (∀ path offset found, tokenize p = .error (.unexpected path offset found) →
      path = p ∧ offset < (Text.trimChars p.toList).length ∧ (Text.trimChars p.toList)[offset]? = some found ∧
        Viable ((Text.trimChars p.toList).take offset)) ∧
    (∀ path, tokenize p = .error (.unterminated path) → path = p ∧ Viable (Text.trimChars p.toList)) ∧
    (∀ path, tokenize p = .error (.missingRoot path) ↔ path = p ∧ (Text.trimChars p.toList).head? ≠ some '$') ∧
    ∀ e, tokenize p = .error e →
      (∃ offset found, e = .unexpected p offset found) ∨ e = .unterminated p ∨ e = .missingRoot p := by
  refine ⟨fun _ _ _ => truthful_of_error, fun _ => truthful_of_error, fun path => ⟨truthful_of_error, ?_⟩, ?_⟩
  · rintro ⟨rfl, rootless⟩
    unfold tokenize
    split
    · rename_i rest text
      exact absurd (congrArg List.head? text) rootless
    · rfl
  · intro e refused
    have truthful := truthful_of_error refused
    cases e with
    | unexpected path offset found => exact .inl ⟨offset, found, by rw [truthful.1]⟩
    | unterminated path => exact .inr (.inl (by rw [truthful.1]))
    | missingRoot path => exact .inr (.inr (by rw [truthful.1]))
    | missingSlash path => exact truthful.elim
    | badEscape path found => exact truthful.elim
    | wildcard path => exact truthful.elim

/-- A bracket with a letter in it behind a blank, a name that ends in a backslash, and a path without a root. -/
theorem misread_located :
    tokenize " $.a[x]" = .error (.unexpected " $.a[x]" 4 'x') ∧ Viable ['$', '.', 'a', '['] ∧
    tokenize "$['\\" = .error (.unterminated "$['\\") ∧ Viable ['$', '[', '\x27', '\\'] ∧
    tokenize "a" = .error (.missingRoot "a") := by
  have letter : tokenize " $.a[x]" = .error (.unexpected " $.a[x]" 4 'x') := by cbv
  have open_name : tokenize "$['\\" = .error (.unterminated "$['\\") := by cbv
  obtain ⟨_, _, _, before⟩ := (faults_located " $.a[x]").1 _ _ _ letter
  obtain ⟨_, whole⟩ := (faults_located "$['\\").2.1 _ open_name
  exact ⟨letter, before, open_name, whole, ((faults_located "a").2.2.1 "a").mpr ⟨rfl, by decide⟩⟩

end RecordMapper.Proofs.LocatedFaults
