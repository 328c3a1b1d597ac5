import Mathlib.Data.List.TakeWhile
import RecordMapper.Proofs.PathTexts

/-!
# Paths read back

The text of a path and the path are inverse to each other. Main statement: `path_read_back`. One
direction is `PathTexts.tokenize_render`; for the other, a text that is read gives a path whose
indices all have digits (`indexed_of_tokenize`), and such a path is read back from its own text.
-/

namespace RecordMapper.Proofs.PathReading
open RecordMapper.JsonPath RecordMapper.Proofs.PathGrammar RecordMapper.Proofs.PathTexts

/-- Paths from the root segment on whose indices have digits. Keys may hold any text. -/
def Rooted (p : Path) : Prop := ∃ ss, p = Segment.root :: ss ∧ ∀ s ∈ ss, Written s

/-! ## What is read -/

/-- Steps whose indices have digits. -/
def Indexed (t : Token) : Prop := ∀ digits, t = .index digits → Text.isDigits digits.toList = true

theorem indexed_of_denotes {w : List Char} {t : Token} (step : Denotes w t) : Indexed t := by
  intro digits isIndex
  cases step with
  | index read =>
    cases isIndex
    rwa [String.toList_ofList]
  | _ => cases isIndex

/-- Every index among the steps of a text has digits. -/
theorem indexed_of_tokenize {text : String} {ts : List Token} (read : tokenize text = .ok ts) :
    ∀ t ∈ ts, Indexed t := by
  obtain ⟨r, rfl⟩ := (tokenize_eq_ok_iff text ts).mp read
  intro t inside
  obtain ⟨step, member, rfl⟩ := List.mem_map.mp inside
  exact indexed_of_denotes (r.denotes step member)

private theorem written_of_segment {t : Token} {s : Segment} (indexed : Indexed t) (denotes : t.segment? = some s) :
    Written s := by
  cases t with
  | key name =>
    cases denotes
    trivial
  | index digits =>
    cases denotes
    exact indexed digits rfl
  | wildcard => cases denotes

private theorem written_of_segments {ts : List Token} {ss : List Segment} (indexed : ∀ t ∈ ts, Indexed t)
    (concrete : ts.mapM Token.segment? = some ss) : ∀ s ∈ ss, Written s := by
  induction ts generalizing ss with
  | nil =>
    cases concrete
    simp
  | cons t rest ih =>
    simp only [List.mapM_cons, Option.bind_eq_bind, Option.bind_eq_some_iff] at concrete
    obtain ⟨s, denotes, later, concrete, same⟩ := concrete
    cases same
    obtain ⟨first, others⟩ := List.forall_mem_cons.mp indexed
    exact List.forall_mem_cons.mpr ⟨written_of_segment first denotes, ih others concrete⟩

/-- A text that is read gives a rooted path. -/
theorem rooted_of_parse {text : String} {p : Path} (read : parse text = .ok p) : Rooted p := by
  unfold parse at read
  split at read
  · cases read
  · rename_i ts tokens
    split at read
    · rename_i ss concrete
      cases read
      exact ⟨ss, rfl, written_of_segments (indexed_of_tokenize tokens) concrete⟩
    · cases read

/-! ## Both directions -/

private theorem mapM_segment_token (ss : List Segment) : (ss.map token).mapM Token.segment? = some ss := by
  induction ss with
  | nil => rfl
  | cons s rest ih =>
    have denotes : (token s).segment? = some s := by cases s <;> rfl
    simp [List.mapM_cons, denotes, ih]

theorem parse_render {p : Path} (rooted : Rooted p) : parse (render p) = .ok p := by
  obtain ⟨ss, rfl, written⟩ := rooted
  simp only [parse, tokenize_render written, mapM_segment_token]

/-- A rooted path is read back from its text, so no two rooted paths have one text, and whatever is
read from any text is a rooted path, which its own text gives again. -/
theorem path_read_back :
    (∀ p, Rooted p → parse (render p) = .ok p) ∧
    (∀ p q, Rooted p → Rooted q → render p = render q → p = q) ∧
    ∀ text p, parse text = .ok p → Rooted p ∧ parse (render p) = .ok p := by
  refine ⟨fun p rooted => parse_render rooted, ?_, ?_⟩
  · intro p q first second same
    have read := parse_render first
    rw [same, parse_render second] at read
    exact (Except.ok.inj read).symm
  · intro text p read
    have rooted := rooted_of_parse read
    exact ⟨rooted, parse_render rooted⟩

/-- A path with keys that need brackets, quotes and escapes next to indices and plain keys. -/
def awkward : Path :=
  [.root, .key "", .key "$", .key "it's \\ \x22new\x22", .index "007", .key "12", .key "a.b[*]", .key "\t\n", .index "0"]

/-- The path is read back from its text, a key of digits is not written like an index, and a text
that is not what would be written gives a path that is. -/
theorem awkward_read_back :
    Rooted awkward ∧ parse (render awkward) = .ok awkward ∧
    render [.root, .key "0"] ≠ render [.root, .index "0"] ∧
    parse " $[\x22a\x22] " = .ok [.root, .key "a"] ∧ parse (render [.root, .key "a"]) = .ok [.root, .key "a"] := by
  have rooted : Rooted awkward := by
    refine ⟨_, rfl, ?_⟩
    simp [Written, Text.isDigits]
  have named : Rooted [.root, .key "0"] := ⟨_, rfl, by simp [Written]⟩
  have numbered : Rooted [.root, .index "0"] := ⟨_, rfl, by simp [Written, Text.isDigits]⟩
  have read : parse " $[\x22a\x22] " = .ok [.root, .key "a"] := by cbv
  refine ⟨rooted, path_read_back.1 _ rooted, fun same => ?_, read, (path_read_back.2.2 _ _ read).2⟩
  exact absurd (path_read_back.2.1 _ _ named numbered same) (by decide)

end RecordMapper.Proofs.PathReading
