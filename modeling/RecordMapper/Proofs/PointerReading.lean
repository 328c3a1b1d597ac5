import Mathlib.Data.List.Forall2
import RecordMapper.Path.Pointer
import RecordMapper.Proofs.PathTexts
import RecordMapper.Proofs.Runs

/-!
# Pointers read back

A text is a pointer if it is empty, or starts with a slash and has each tilde before a `0` or a `1`.
The pointers and the paths in which exactly the digits are indices are inverse to each other. Main
statement: `pointer_read_back`. A text is read component by component: it is what its components are
between slashes, and a component without slashes is what its unescaped text is escaped
(`escape_of_unescape`).
-/

namespace RecordMapper.Proofs.PointerReading
open RecordMapper.Pointer

/-! ## Tildes -/

/-- Each tilde of a text stands before a `0` or a `1`. -/
def Escaped (cs : List Char) : Prop :=
  ∀ before after, cs = before ++ '~' :: after → after.head? = some '0' ∨ after.head? = some '1'

theorem escaped_nil : Escaped [] := by
  intro before after empty
  simp at empty

theorem escaped_cons_iff (c : Char) (cs : List Char) :
    Escaped (c :: cs) ↔ (c = '~' → cs.head? = some '0' ∨ cs.head? = some '1') ∧ Escaped cs := by
  constructor
  · intro escaped
    refine ⟨fun tilde => escaped [] cs (by rw [tilde]; rfl), fun before after same => ?_⟩
    exact escaped (c :: before) after (by rw [same]; rfl)
  · rintro ⟨first, later⟩ before after same
    cases before with
    | nil =>
      obtain ⟨rfl, rfl⟩ := List.cons.inj same
      exact first rfl
    | cons b before => exact later before after (List.cons.inj same).2

/-- A slash separates what is escaped: it is no tilde, and is not what a tilde stands before. -/
theorem escaped_append_slash (part rest : List Char) :
    Escaped (part ++ '/' :: rest) ↔ Escaped part ∧ Escaped rest := by
  induction part with
  | nil => simp [escaped_cons_iff, escaped_nil]
  | cons c part ih =>
    rw [List.cons_append, escaped_cons_iff, escaped_cons_iff, ih, and_assoc]
    refine and_congr_left fun _ => ?_
    cases part with
    | nil => simp
    | cons d part => rfl

theorem escaped_intercalate (parts : List (List Char)) :
    Escaped (['/'].intercalate parts) ↔ ∀ part ∈ parts, Escaped part := by
  induction parts with
  | nil => simp [escaped_nil]
  | cons part rest ih =>
    cases rest with
    | nil => simp
    | cons next rest =>
      rw [List.intercalate_cons_cons, List.append_assoc, List.singleton_append, escaped_append_slash, ih]
      exact List.forall_mem_cons.symm

/-! ## Components -/

theorem components_eq_splitOn (cs : List Char) : components cs = cs.splitOn '/' := by
  induction cs with
  | nil => rfl
  | cons c cs ih =>
    rw [components, List.splitOn_cons_eq_if_modifyHead, ih]
    by_cases slash : c = '/'
    · simp [slash]
    · obtain ⟨part, parts, split⟩ := List.exists_cons_of_ne_nil (List.splitOn_ne_nil '/' cs)
      simp [slash, split]

/-- The components behind a slash at the start. -/
private theorem components_of_slash (rest : List Char) : (('/' :: rest).splitOn '/').tail = rest.splitOn '/' := by
  rw [List.splitOn_cons_eq_if_modifyHead, if_pos (by simp), List.tail_cons]

theorem not_mem_escape (cs : List Char) : '/' ∉ escape cs := by
  induction cs with
  | nil => simp [escape]
  | cons c cs ih =>
    rw [escape]
    split_ifs with tilde slash
    · simpa using ih
    · simpa using ih
    · simpa [Ne.symm slash] using ih

/-! ## Unescaping -/

private theorem map_cons_ok_iff (c : Char) (later : Except (Option Char) (List Char)) :
    (∃ out, later.map (c :: ·) = .ok out) ↔ ∃ rest, later = .ok rest := by
  constructor
  · rintro ⟨out, read⟩
    obtain ⟨rest, read, _⟩ := PathGrammar.map_cons_eq_ok read
    exact ⟨rest, read⟩
  · rintro ⟨rest, rfl⟩
    exact ⟨c :: rest, rfl⟩

private theorem ne_tilde {c : Char} {rest : List Char} (noPair : ∀ d later, c = '~' → rest = d :: later → False)
    (noEnd : c = '~' → rest = [] → False) : c ≠ '~' := by
  intro tilde
  cases rest with
  | nil => exact noEnd tilde rfl
  | cons d later => exact noPair d later tilde rfl

/-- A component can be unescaped exactly if it is escaped. -/
theorem unescape_ok_iff (cs : List Char) : (∃ out, unescape cs = .ok out) ↔ Escaped cs := by
  fun_induction unescape cs with
  | case1 => exact iff_of_true ⟨[], rfl⟩ escaped_nil
  | case2 rest ih =>
    rw [map_cons_ok_iff, ih, escaped_cons_iff, escaped_cons_iff]
    simp
  | case3 rest ih =>
    rw [map_cons_ok_iff, ih, escaped_cons_iff, escaped_cons_iff]
    simp
  | case4 c rest noZero noOne =>
    refine iff_of_false (by simp) fun escaped => ?_
    rcases ((escaped_cons_iff _ _).mp escaped).1 rfl with zero | one
    · exact noZero (Option.some.inj zero)
    · exact noOne (Option.some.inj one)
  | case5 =>
    refine iff_of_false (by simp) fun escaped => ?_
    simpa using ((escaped_cons_iff _ _).mp escaped).1 rfl
  | case6 c rest _ _ noPair noTilde ih =>
    have plain : c ≠ '~' := ne_tilde noPair noTilde
    rw [map_cons_ok_iff, ih, escaped_cons_iff]
    simp [plain]

theorem unescape_cons {c : Char} (plain : c ≠ '~') (cs : List Char) :
    unescape (c :: cs) = (unescape cs).map (c :: ·) := by
  conv_lhs => unfold unescape
  split <;> simp_all

/-- What is escaped is read back. -/
theorem unescape_escape (cs : List Char) : unescape (escape cs) = .ok cs := by
  induction cs with
  | nil => rfl
  | cons c cs ih =>
    rw [escape]
    by_cases tilde : c = '~'
    · rw [if_pos tilde, unescape, ih, tilde]
      rfl
    · by_cases slash : c = '/'
      · rw [if_neg tilde, if_pos slash, unescape, ih, slash]
        rfl
      · rw [if_neg tilde, if_neg slash, unescape_cons tilde, ih]
        rfl

/-- A component without slashes is its own text escaped. -/
theorem escape_of_unescape {cs out : List Char} (read : unescape cs = .ok out) (whole : '/' ∉ cs) :
    escape out = cs := by
  fun_induction unescape cs generalizing out with
  | case1 =>
    cases read
    rfl
  | case2 rest ih =>
    obtain ⟨later, readRest, rfl⟩ := PathGrammar.map_cons_eq_ok read
    rw [escape, if_pos rfl, ih readRest (by simp_all)]
  | case3 rest ih =>
    obtain ⟨later, readRest, rfl⟩ := PathGrammar.map_cons_eq_ok read
    rw [escape, if_neg (by decide), if_pos rfl, ih readRest (by simp_all)]
  | case4 => cases read
  | case5 => cases read
  | case6 c rest _ _ noPair noTilde ih =>
    obtain ⟨later, readRest, rfl⟩ := PathGrammar.map_cons_eq_ok read
    rw [List.mem_cons, not_or] at whole
    have plain : c ≠ '~' := ne_tilde noPair noTilde
    rw [escape, if_neg plain, if_neg (Ne.symm whole.1), ih readRest whole.2]

/-! ## Pointers -/

theorem text_segmentOf (cs : List Char) : (segmentOf cs).text.toList = cs := by
  unfold segmentOf
  split_ifs <;> simp [Segment.text]

theorem isIndex_segmentOf (cs : List Char) : (segmentOf cs).isIndex = Text.isDigits cs := by
  unfold segmentOf
  split_ifs with digits <;> simp_all [Segment.isIndex]

/-- A segment is an index exactly if its text is digits. -/
def Classified (s : Segment) : Prop := s.isIndex = true ↔ Text.isDigits s.text.toList = true

theorem classified_segmentOf (cs : List Char) : Classified (segmentOf cs) := by
  rw [Classified, isIndex_segmentOf, text_segmentOf]

/-- A segment that is an index exactly if its text is digits is told by its text. -/
theorem segmentOf_text {s : Segment} (classified : Classified s) : segmentOf s.text.toList = s := by
  unfold segmentOf
  cases s with
  | key name =>
    have other : ¬ Text.isDigits name.toList = true := fun digits => by cases classified.mpr digits
    simp [Segment.text, other]
  | index digits =>
    have read : Text.isDigits digits.toList = true := classified.mp rfl
    simp [Segment.text, read]

/-- A component of a pointer stands for a segment. -/
def StandsFor (component : List Char) (s : Segment) : Prop :=
  unescape component = .ok s.text.toList ∧ Classified s

private theorem forall₂_standsFor_iff {parts : List (List Char)} {ss : List Segment} :
    List.Forall₂ StandsFor parts ss ↔
      ∃ texts, List.Forall₂ (fun part text => unescape part = .ok text) parts texts ∧ ss = texts.map segmentOf := by
  constructor
  · intro each
    induction each with
    | nil => exact ⟨[], .nil, rfl⟩
    | cons stands _ ih =>
      obtain ⟨texts, unescaped, rfl⟩ := ih
      exact ⟨_, .cons stands.1 unescaped, by rw [List.map_cons, segmentOf_text stands.2]⟩
  · rintro ⟨texts, unescaped, rfl⟩
    rw [List.forall₂_map_right_iff]
    refine unescaped.imp fun part text read => ⟨?_, classified_segmentOf text⟩
    rw [read, text_segmentOf]

/-- A text is read as a path if nothing or a slash is at its start and each component behind a slash
stands for the segment at its place. -/
theorem parse_eq_ok_iff (text : String) (p : Path) :
    parse text = .ok p ↔ (text = "" ∨ text.toList.head? = some '/') ∧
      ∃ ss, p = Segment.root :: ss ∧ List.Forall₂ StandsFor (text.toList.splitOn '/').tail ss := by
  rw [← String.toList_inj, parse]
  cases text.toList with
  | nil =>
    simp [Path.root, eq_comm]
  | cons c rest =>
    by_cases slash : c = '/'
    · subst slash
      simp only [components_of_slash, components_eq_splitOn, forall₂_standsFor_iff, ← Runs.mapM_eq_ok_iff]
      cases (rest.splitOn '/').mapM unescape with
      | error found => simp
      | ok texts => simp [eq_comm]
    · simp [slash]

/-! ## Both directions -/

/-- A path from the root segment on in which exactly the segments of digits are indices. -/
def Addressed (p : Path) : Prop := ∃ ss, p = Segment.root :: ss ∧ ∀ s ∈ ss, Classified s

private theorem flatMap_slash {parts : List (List Char)} (some : parts ≠ []) :
    parts.flatMap ('/' :: ·) = '/' :: ['/'].intercalate parts := by
  induction parts with
  | nil => exact absurd rfl some
  | cons part rest ih =>
    cases rest with
    | nil => simp
    | cons next rest => rw [List.flatMap_cons, ih (by simp), List.intercalate_cons_cons]; simp

private theorem exists_standsFor_iff (parts : List (List Char)) :
    (∃ ss, List.Forall₂ StandsFor parts ss) ↔ ∀ part ∈ parts, Escaped part := by
  induction parts with
  | nil => simp
  | cons part rest ih =>
    rw [List.forall_mem_cons, ← ih, ← unescape_ok_iff]
    constructor
    · rintro ⟨_, _ | ⟨stands, later⟩⟩
      exact ⟨⟨_, stands.1⟩, _, later⟩
    · rintro ⟨⟨text, read⟩, ss, later⟩
      exact ⟨segmentOf text :: ss, .cons ⟨by rw [read, text_segmentOf], classified_segmentOf text⟩ later⟩

theorem parse_ok_iff (text : String) :
    (∃ p, parse text = .ok p) ↔ text = "" ∨ text.toList.head? = some '/' ∧ Escaped text.toList := by
  have read : (∃ p, parse text = .ok p) ↔ (text = "" ∨ text.toList.head? = some '/') ∧
      ∀ part ∈ (text.toList.splitOn '/').tail, Escaped part := by
    simp only [parse_eq_ok_iff, ← exists_standsFor_iff]
    simp
  rw [read, ← String.toList_inj]
  cases text.toList with
  | nil => simp
  | cons c rest =>
    by_cases slash : c = '/'
    · subst slash
      have whole := escaped_intercalate (rest.splitOn '/')
      rw [List.intercalate_splitOn] at whole
      rw [components_of_slash, ← whole, escaped_cons_iff]
      simp
    · simp [slash]

theorem render_of_parse {text : String} {ss : List Segment} (starts : text = "" ∨ text.toList.head? = some '/')
    (each : List.Forall₂ StandsFor (text.toList.splitOn '/').tail ss) : render (Segment.root :: ss) = text := by
  have written {parts : List (List Char)} {ss : List Segment} (whole : ∀ part ∈ parts, '/' ∉ part)
      (each : List.Forall₂ StandsFor parts ss) :
      ss.flatMap (fun s => '/' :: escape s.text.toList) = parts.flatMap ('/' :: ·) := by
    induction each with
    | nil => rfl
    | cons stands _ ih =>
      obtain ⟨first, later⟩ := List.forall_mem_cons.mp whole
      rw [List.flatMap_cons, List.flatMap_cons, escape_of_unescape stands.1 first, ih later]
  have stepsOf : Path.steps (Segment.root :: ss) = ss := rfl
  rw [render, stepsOf, ← String.toList_inj, String.toList_ofList,
    written (fun part inside => PathTexts.not_mem_of_mem_splitOn (List.mem_of_mem_tail inside)) each]
  rw [← String.toList_inj] at starts
  cases split : text.toList with
  | nil => rfl
  | cons c rest =>
    rw [split] at starts
    obtain rfl : c = '/' := by simpa using starts
    rw [components_of_slash, flatMap_slash (List.splitOn_ne_nil _ _), List.intercalate_splitOn]

theorem parse_render_of_addressed {p : Path} (addressed : Addressed p) : parse (render p) = .ok p := by
  obtain ⟨ss, rfl, classified⟩ := addressed
  have stepsOf : Path.steps (Segment.root :: ss) = ss := rfl
  rw [parse_eq_ok_iff, render, stepsOf, String.toList_ofList]
  cases ss with
  | nil => exact ⟨.inl rfl, [], rfl, .nil⟩
  | cons s rest =>
    refine ⟨.inr rfl, _, rfl, ?_⟩
    have parts : ((s :: rest).flatMap fun s => '/' :: escape s.text.toList) =
        '/' :: ['/'].intercalate ((s :: rest).map fun s => escape s.text.toList) := by
      rw [← flatMap_slash (by simp), List.flatMap_map]
    have whole : ∀ part ∈ (s :: rest).map fun s => escape s.text.toList, '/' ∉ part := by
      intro part inside
      obtain ⟨t, _, rfl⟩ := List.mem_map.mp inside
      exact not_mem_escape _
    rw [parts, components_of_slash, List.splitOn_intercalate _ whole (by simp), List.forall₂_map_left_iff,
      List.forall₂_same]
    exact fun t member => ⟨unescape_escape _, classified t member⟩

/-- A text is read exactly if it is empty, or starts with a slash and has each tilde before a `0` or a
`1`. What is read is a path from the root segment on, one segment for each component behind a slash,
whose text is the component unescaped and which is an index exactly if that text is digits; the text of
this path is the text that was read. A path of such segments is read back from its text. -/
theorem pointer_read_back :
    (∀ text, (∃ p, parse text = .ok p) ↔
      text = "" ∨ text.toList.head? = some '/' ∧ Escaped text.toList) ∧
    (∀ text p, parse text = .ok p →
      (∃ ss, p = Segment.root :: ss ∧ List.Forall₂ StandsFor (text.toList.splitOn '/').tail ss) ∧
        Addressed p ∧ render p = text) ∧
    ∀ p, Addressed p → parse (render p) = .ok p := by
  refine ⟨parse_ok_iff, fun text p read => ?_, fun p addressed => parse_render_of_addressed addressed⟩
  obtain ⟨starts, ss, rfl, each⟩ := (parse_eq_ok_iff text p).mp read
  have written := render_of_parse starts each
  refine ⟨⟨ss, rfl, each⟩, ⟨ss, rfl, fun s member => ?_⟩, written⟩
  obtain ⟨texts, _, rfl⟩ := forall₂_standsFor_iff.mp each
  obtain ⟨unescaped, _, rfl⟩ := List.mem_map.mp member
  exact classified_segmentOf unescaped

/-- A path with slashes, tildes, digits, nothing and a line feed in its segments. -/
def tricky : Path := [.root, .key "a/b", .key "~1", .key "", .index "007", .key "7\n", .key "~/"]

/-- The path is read back from its text, and a tilde before another tilde is not read. -/
theorem tricky_read_back :
    Addressed tricky ∧ render tricky = "/a~1b/~01//007/7\n/~0~1" ∧ parse "/a~1b/~01//007/7\n/~0~1" = .ok tricky ∧
    ¬ ∃ p, parse "/~~1" = .ok p := by
  have addressed : Addressed tricky := by
    refine ⟨_, rfl, ?_⟩
    simp [Classified, Segment.isIndex, Segment.text, Text.isDigits]
  have written : render tricky = "/a~1b/~01//007/7\n/~0~1" := by decide
  refine ⟨addressed, written, written ▸ pointer_read_back.2.2 _ addressed, ?_⟩
  rw [pointer_read_back.1]
  rintro (empty | ⟨_, escaped⟩)
  · exact absurd empty (by decide)
  · rcases escaped ['/'] ['~', '1'] (by decide) with zero | one <;> contradiction

end RecordMapper.Proofs.PointerReading
