import Mathlib.Data.List.Basic
import RecordMapper.Proofs.PathGrammar
import RecordMapper.Query

/-!
# Written paths

The text of a path says exactly its segments, whatever characters their keys hold. Main statement:
`tokenize_render`. The text of one segment is a step of the grammar of paths
(`denotes_renderSegment`), and the text of a whole path has no blank at either end to be trimmed.
-/

namespace RecordMapper.Proofs.PathTexts

open RecordMapper.JsonPath RecordMapper.Proofs.PathGrammar

/-- The step that a segment is written as. -/
def token : Segment → Token
  | .key name => .key name
  | .index digits => .index digits

/-- A segment with a text of its own: an index needs digits. -/
def Written : Segment → Prop
  | .key _ => True
  | .index digits => Text.isDigits digits.toList = true

/-! ## Numbers as indices -/

theorem isDigits_toString (i : Nat) : Text.isDigits (toString i).toList = true := by
  rw [Nat.toString_eq_repr, Nat.toList_repr, Text.isDigits, Bool.and_eq_true, List.all_eq_true]
  refine ⟨?_, fun c inside => Nat.isDigit_of_mem_toDigits (by decide) (by decide) inside⟩
  simp

theorem digitsValue_toString (i : Nat) : Text.digitsValue (toString i).toList = i := by
  have value : Nat.ofDigitChars 10 (toString i).toList 0 = i := by simp
  rw [Nat.ofDigitChars_eq_foldl] at value
  simpa only [Text.digitsValue, Nat.mul_comm] using value

theorem indexValue_toString {i : Nat} (fits : i < placeLimit) : indexValue? (toString i) = some i := by
  have digits := isDigits_toString i
  have value := digitsValue_toString i
  rw [indexValue?]
  split
  · -- a plus sign is no digit
    rename_i signed
    rw [signed] at digits
    simp [Text.isDigits] at digits
  · simp only [digits, value, fits, decide_true, Bool.and_self, ↓reduceIte]

theorem toString_injective {i j : Nat} (same : toString i = toString j) : i = j := by
  rw [← digitsValue_toString i, same, digitsValue_toString]

/-- What stands between separators holds none. -/
theorem not_mem_of_mem_splitOn {separator : Char} {cs part : List Char} (inside : part ∈ cs.splitOn separator) :
    separator ∉ part := by
  induction cs generalizing part with
  | nil => simp_all
  | cons c cs ih =>
    rw [List.splitOn_cons_eq_if_modifyHead] at inside
    obtain ⟨first, parts, split⟩ := List.exists_cons_of_ne_nil (List.splitOn_ne_nil separator cs)
    rw [split] at ih inside
    split_ifs at inside with separates
    · rcases List.mem_cons.mp inside with rfl | inside
      · simp
      · exact ih inside
    · rw [List.modifyHead_cons] at inside
      rcases List.mem_cons.mp inside with rfl | inside
      · have other : separator ≠ c := by simpa using Ne.symm (ne_of_beq_false (Bool.eq_false_iff.mpr separates))
        simpa [other] using ih List.mem_cons_self
      · exact ih (List.mem_cons_of_mem _ inside)

/-! ## One segment -/

theorem spells_escape (name : List Char) : Spells '\x27' (escape name) name := by
  induction name with
  | nil => exact .nil
  | cons c tail ih =>
    rw [escape]
    by_cases marked : c = '\\' ∨ c = '\x27'
    · rw [if_pos marked]
      exact .escaped c ih
    · rw [if_neg marked]
      rw [not_or] at marked
      exact .plain marked.1 marked.2 ih

theorem plain_of_not_needsBrackets {name : List Char} (plain : needsBrackets name = false) :
    name ≠ [] ∧ ∀ c ∈ name, inName c = true ∧ c ≠ '*' ∧ Text.isBlank c = false := by
  simp only [needsBrackets, Bool.or_eq_false_iff, List.isEmpty_eq_false_iff, List.any_eq_false,
    Bool.not_eq_true, beq_eq_false_iff_ne] at plain
  refine ⟨plain.1, fun c inside => ?_⟩
  obtain ⟨⟨⟨⟨⟨⟨point, opening⟩, _⟩, _⟩, _⟩, star⟩, blank⟩ := plain.2 c inside
  exact ⟨by simp [inName, point, opening], star, blank⟩

/-- The text of a segment is a step of the grammar. -/
theorem denotes_renderSegment {s : Segment} (written : Written s) : Denotes (renderSegment s) (token s) := by
  cases s with
  | index digits =>
    have step := Denotes.index written
    rwa [String.ofList_toList] at step
  | key name =>
    rw [renderSegment]
    by_cases brackets : needsBrackets name.toList = true
    · have step := Denotes.quoted (.inl rfl) (spells_escape name.toList)
      rw [String.ofList_toList] at step
      simpa [brackets, token] using step
    · obtain ⟨nonempty, inside⟩ := plain_of_not_needsBrackets (by simpa using brackets)
      have starless : name.toList.head? ≠ some '*' := fun star => (inside '*' (List.mem_of_head? star)).2.1 rfl
      have whole : ∀ c ∈ name.toList, c ≠ '.' ∧ c ≠ '[' := by
        intro c member
        simpa [inName] using (inside c member).1
      have step := Denotes.name nonempty starless whole
      rw [String.ofList_toList] at step
      rwa [if_neg brackets]

/-! ## Whole paths -/

theorem steps_flatMap (n : Nat) {ss : List Segment} (written : ∀ s ∈ ss, Written s) :
    steps n (ss.flatMap renderSegment) = .ok (ss.map token) := by
  have denotes : ∀ step ∈ ss.map fun s => (renderSegment s, token s), Denotes step.1 step.2 := by
    intro step inside
    obtain ⟨s, member, rfl⟩ := List.mem_map.mp inside
    exact denotes_renderSegment (written s member)
  have read := steps_of_denotes n denotes
  rwa [List.flatMap_map, List.map_map] at read

/-! No blank stands at either end of a written path, so that trimming leaves it as it is. -/

/-- Texts that end in no blank. -/
def EndsPlain (cs : List Char) : Prop := ∀ c ∈ cs.getLast?, Text.isBlank c = false

theorem endsPlain_append {a b : List Char} (first : EndsPlain a) (second : EndsPlain b) : EndsPlain (a ++ b) := by
  intro c last
  rw [List.getLast?_append, Option.mem_def, Option.or_eq_some_iff] at last
  rcases last with last | ⟨_, last⟩
  · exact second c last
  · exact first c last

theorem endsPlain_closed (cs : List Char) : EndsPlain (cs ++ [']']) := by
  intro c last
  rw [List.getLast?_concat, Option.mem_def, Option.some.injEq] at last
  rw [← last]
  rfl

theorem endsPlain_renderSegment (s : Segment) : EndsPlain (renderSegment s) := by
  cases s with
  | index digits => exact endsPlain_closed ('[' :: digits.toList)
  | key name =>
    rw [renderSegment]
    by_cases brackets : needsBrackets name.toList = true
    · have closed := endsPlain_closed (['[', '\x27'] ++ escape name.toList ++ ['\x27'])
      rw [List.append_assoc] at closed
      rwa [if_pos brackets]
    · rw [if_neg brackets]
      intro c last
      rcases List.mem_cons.mp (List.mem_of_getLast? last) with rfl | inside
      · rfl
      · exact ((plain_of_not_needsBrackets (by simpa using brackets)).2 c inside).2.2

theorem endsPlain_flatMap (ss : List Segment) : EndsPlain (ss.flatMap renderSegment) := by
  induction ss with
  | nil => simp [EndsPlain]
  | cons s rest ih => exact endsPlain_append (endsPlain_renderSegment s) ih

private theorem dropWhile_of_head {p : Char → Bool} {cs : List Char} (kept : ∀ c ∈ cs.head?, p c = false) :
    cs.dropWhile p = cs := by
  cases cs with
  | nil => rfl
  | cons c tail => simp [kept c (by simp)]

theorem trimChars_of_plain {cs : List Char} (begins : ∀ c ∈ cs.head?, Text.isBlank c = false)
    (ends : EndsPlain cs) : Text.trimChars cs = cs := by
  rw [Text.trimChars, dropWhile_of_head begins, dropWhile_of_head, List.reverse_reverse]
  rw [List.head?_reverse]
  exact ends

/-- The text of a path is read back as exactly the steps that its segments are. -/
theorem tokenize_render {ss : List Segment} (written : ∀ s ∈ ss, Written s) :
    tokenize (render (Segment.root :: ss)) = .ok (ss.map token) := by
  have ends : EndsPlain ('$' :: ss.flatMap renderSegment) :=
    endsPlain_append (a := ['$']) (by simp [EndsPlain, Text.isBlank]) (endsPlain_flatMap ss)
  have trimmed : Text.trimChars ('$' :: ss.flatMap renderSegment) = '$' :: ss.flatMap renderSegment :=
    trimChars_of_plain (by simp [Text.isBlank]) ends
  have stepsOf : Path.steps (Segment.root :: ss) = ss := rfl
  simp only [tokenize, render, stepsOf, String.toList_ofList, trimmed, steps_flatMap _ written]

end RecordMapper.Proofs.PathTexts
