import RecordMapper.Proofs.Documents
import RecordMapper.Proofs.PointerReading

/-!
# Two forms of one location

A location is written as a path and as a pointer. The path tells a key from an index by how it is written,
the pointer does not: it takes digits as an index in an array and as a key in an object. So wherever the
path finds a value the pointer leads to it, and the pointer leads further only where it crosses from one
kind of segment to the other. Main statement: `forms_agree`. Each form is a chain of steps
(`findAll_render_eq`, `resolve_render_iff`), and one step of both differs exactly at a crossing
(`pick_eq`).
-/

namespace RecordMapper.Proofs.TwoForms
open RecordMapper.Proofs.PathTexts RecordMapper.Proofs.PointerReading RecordMapper.Proofs.Documents

/-- The one value that a segment picks below a value: a key in an object, an index in an array. -/
def pick (v : Json) : Segment → Option Json
  | .key name => v.get? name
  | .index digits =>
    match v with
    | .arr items => (indexValue? digits).bind (items[·]?)
    | _ => none

/-- The value to which the text of a segment leads from a value: in an object as a key, in an array as an
index if it is digits. -/
def reach (v : Json) (s : Segment) : Option Json :=
  match v with
  | .obj members => members.lookup s.text
  | .arr items => if Text.isDigits s.text.toList then (indexValue? s.text).bind (items[·]?) else none
  | _ => none

/-- Digits are applied to a container of the other kind: an index to an object, or a key of digits to an
array. -/
def Crosses (v : Json) : Segment → Prop
  | .key name => Text.isDigits name.toList = true ∧ ∃ items, v = .arr items
  | .index _ => ∃ members, v = .obj members

/-! ## One step -/

theorem pick_of_crosses {v : Json} {s : Segment} (crosses : Crosses v s) : pick v s = none := by
  cases s with
  | key name =>
    obtain ⟨_, items, rfl⟩ := crosses
    rfl
  | index digits =>
    obtain ⟨members, rfl⟩ := crosses
    rfl

theorem pick_eq {v : Json} {s : Segment} (written : Written s) (straight : ¬ Crosses v s) : pick v s = reach v s := by
  cases s with
  | key name =>
    cases v with
    | arr items =>
      have other : ¬ Text.isDigits name.toList = true := fun digits => straight ⟨digits, items, rfl⟩
      rw [reach, Segment.text, if_neg other]
      rfl
    | _ => rfl
  | index digits =>
    cases v with
    | arr items =>
      have read : Text.isDigits digits.toList = true := written
      rw [reach, Segment.text, if_pos read]
      rfl
    | obj members => exact absurd ⟨members, rfl⟩ straight
    | _ => rfl

theorem select_eq_pick (v : Json) (s : Segment) : JsonPath.select v (token s) = (pick v s).toList := by
  cases s <;> cases v <;> rfl

/-- A step of a pointer takes a segment by its text. -/
theorem step_segmentOf_iff (query : String) (v w : Json) (s : Segment) :
    Pointer.step query v (Pointer.segmentOf s.text.toList) = .ok w ↔ reach v s = some w := by
  have text : (Pointer.segmentOf s.text.toList).text = s.text := by
    rw [← String.toList_inj, text_segmentOf]
  cases v with
  | obj members =>
    rw [Pointer.step, reach, text]
    cases members.lookup s.text <;> simp
  | arr items =>
    rw [Pointer.step, reach, isIndex_segmentOf]
    by_cases digits : Text.isDigits s.text.toList = true
    · have place : (Pointer.segmentOf s.text.toList).place? = indexValue? s.text := by
        rw [Pointer.segmentOf, if_pos digits, String.ofList_toList]
        rfl
      rw [if_pos digits, if_pos digits, place]
      cases (indexValue? s.text).bind (items[·]?) <;> simp
    · rw [if_neg digits, if_neg digits]
      simp
  | _ => simp [Pointer.step, reach]

/-! ## Chains of steps -/

theorem selectAll_eq_pick (v : Json) (ss : List Segment) :
    JsonPath.selectAll [v] (ss.map token) = (ss.foldlM pick v).toList := by
  induction ss generalizing v with
  | nil => rfl
  | cons s rest ih =>
    rw [List.map_cons, JsonPath.selectAll, List.flatMap_singleton, select_eq_pick, List.foldlM_cons]
    cases pick v s with
    | none => exact selectAll_nil _
    | some w => exact ih w

/-- The path picks segment by segment, and never more than one value. -/
theorem findAll_render_eq {ss : List Segment} (written : ∀ s ∈ ss, Written s) (d : Json) :
    JsonPath.findAll (JsonPath.render (Segment.root :: ss)) d = .ok (ss.foldlM pick d).toList := by
  rw [JsonPath.findAll, tokenize_render written]
  exact congrArg Except.ok (selectAll_eq_pick d ss)

theorem parse_render_eq (ss : List Segment) :
    Pointer.parse (Pointer.render (Segment.root :: ss)) =
      .ok (Segment.root :: ss.map fun s => Pointer.segmentOf s.text.toList) := by
  have same : Pointer.render (Segment.root :: ss) =
      Pointer.render (Segment.root :: ss.map fun s => Pointer.segmentOf s.text.toList) := by
    have steps (ss : List Segment) : Path.steps (Segment.root :: ss) = ss := rfl
    simp only [Pointer.render, steps, List.flatMap_map, text_segmentOf]
  rw [same]
  refine parse_render_of_addressed ⟨_, rfl, fun s inside => ?_⟩
  obtain ⟨_, _, rfl⟩ := List.mem_map.mp inside
  exact classified_segmentOf _

/-- The pointer goes from text to text. -/
theorem resolve_render_iff (ss : List Segment) (d v : Json) :
    Pointer.resolve (Pointer.render (Segment.root :: ss)) d = .ok v ↔ ss.foldlM reach d = some v := by
  have follows (query : String) : Pointer.follow query d (ss.map fun s => Pointer.segmentOf s.text.toList) = .ok v ↔
      ss.foldlM reach d = some v := by
    induction ss generalizing d with
    | nil => simp [Pointer.follow]
    | cons s rest ih =>
      have one := step_segmentOf_iff query d
      rw [List.map_cons, Pointer.follow, List.foldlM_cons]
      cases stepped : Pointer.step query d (Pointer.segmentOf s.text.toList) with
      | ok w =>
        rw [(one w s).mp stepped]
        exact ih w
      | error e =>
        have nowhere : reach d s = none := by
          rw [Option.eq_none_iff_forall_ne_some]
          intro w found
          rw [(one w s).mpr found] at stepped
          cases stepped
        simp [nowhere]
  rw [Pointer.resolve, parse_render_eq]
  exact follows _

/-! ## Both forms -/

/-- Somewhere along the segments, the pointer comes to a value at which the next segment crosses. -/
def CrossesAlong (ss : List Segment) (d : Json) : Prop :=
  ∃ before s after w, ss = before ++ s :: after ∧
    Pointer.resolve (Pointer.render (Segment.root :: before)) d = .ok w ∧ Crosses w s

theorem crossesAlong_cons_iff {s : Segment} {rest : List Segment} {d w : Json} (reached : reach d s = some w) :
    CrossesAlong (s :: rest) d ↔ Crosses d s ∨ CrossesAlong rest w := by
  unfold CrossesAlong
  simp only [resolve_render_iff]
  constructor
  · rintro ⟨before, t, after, v, same, led, crosses⟩
    cases before with
    | nil =>
      cases same
      cases led
      exact .inl crosses
    | cons u before =>
      cases same
      rw [List.foldlM_cons, reached] at led
      exact .inr ⟨before, t, after, v, rfl, led, crosses⟩
  · rintro (crosses | ⟨before, t, after, v, rfl, led, crosses⟩)
    · exact ⟨[], s, rest, d, rfl, rfl, crosses⟩
    · refine ⟨s :: before, t, after, v, rfl, ?_, crosses⟩
      rw [List.foldlM_cons, reached]
      exact led

/-- What is picked is reached. -/
theorem reach_of_pick {ss : List Segment} (written : ∀ s ∈ ss, Written s) {d v : Json}
    (picked : ss.foldlM pick d = some v) : ss.foldlM reach d = some v := by
  induction ss generalizing d with
  | nil => exact picked
  | cons s rest ih =>
    obtain ⟨first, later⟩ := List.forall_mem_cons.mp written
    rw [List.foldlM_cons, Option.bind_eq_bind, Option.bind_eq_some_iff] at picked
    obtain ⟨w, one, picked⟩ := picked
    have straight : ¬ Crosses d s := fun crosses => by
      rw [pick_of_crosses crosses] at one
      cases one
    rw [List.foldlM_cons, ← pick_eq first straight, one]
    exact ih later picked

/-- Where the pointer leads somewhere, the path finds nothing exactly if it crosses. -/
theorem pick_eq_none_iff {ss : List Segment} (written : ∀ s ∈ ss, Written s) {d v : Json}
    (reached : ss.foldlM reach d = some v) : ss.foldlM pick d = none ↔ CrossesAlong ss d := by
  induction ss generalizing d with
  | nil => simp [CrossesAlong]
  | cons s rest ih =>
    obtain ⟨first, later⟩ := List.forall_mem_cons.mp written
    rw [List.foldlM_cons, Option.bind_eq_bind, Option.bind_eq_some_iff] at reached
    obtain ⟨w, one, reached⟩ := reached
    rw [crossesAlong_cons_iff one, ← ih later reached, List.foldlM_cons]
    by_cases crosses : Crosses d s
    · simp [crosses, pick_of_crosses crosses]
    · simp [crosses, pick_eq first crosses, one]

/-- The path to segments finds one value in a document or none. If it finds one, the pointer to the same
segments leads there. If the pointer leads somewhere, the path finds nothing exactly if on the way digits are
applied to a container of the other kind. A location of a document is found in both forms. -/
theorem forms_agree :
    (∀ ss : List Segment, (∀ s ∈ ss, Written s) → ∀ d : Json, ∃ found : Option Json,
      JsonPath.findAll (JsonPath.render (Segment.root :: ss)) d = .ok found.toList ∧
      (∀ v, found = some v → Pointer.resolve (Pointer.render (Segment.root :: ss)) d = .ok v) ∧
      ∀ v, Pointer.resolve (Pointer.render (Segment.root :: ss)) d = .ok v →
        (found = none ↔ CrossesAlong ss d)) ∧
    ∀ d : Json, Proper d → ∀ ss v, Leads d ss v →
      JsonPath.findAll (JsonPath.render (Segment.root :: ss)) d = .ok [v] ∧
      Pointer.resolve (Pointer.render (Segment.root :: ss)) d = .ok v := by
  constructor
  · intro ss written d
    refine ⟨ss.foldlM pick d, findAll_render_eq written d, fun v picked => ?_, fun v led => ?_⟩
    · exact (resolve_render_iff ss d v).mpr (reach_of_pick written picked)
    · exact pick_eq_none_iff written ((resolve_render_iff ss d v).mp led)
  · intro d proper ss v leads
    have located := (leads_iff_locate proper).mp leads
    have canonical := canonical_of_locate proper located
    have written : ∀ s ∈ ss, Written s := fun s inside => written_of_canonical (canonical s inside)
    have found := findAll_render proper canonical
    rw [located] at found
    refine ⟨found, (resolve_render_iff ss d v).mpr (reach_of_pick written ?_)⟩
    rw [findAll_render_eq written] at found
    exact Option.toList_eq_singleton_iff.mp (Except.ok.inj found)

/-- A document with a key of digits and an array under it. -/
def numbered : Json := .obj [("a", .obj [("12", .arr [.str "x"])])]

/-- The key of digits is found in both forms as a key; as an index it is reached by the pointer only. -/
theorem numbered_in_both_forms :
    Proper numbered ∧ Leads numbered [.key "a", .key "12", .index "0"] (.str "x") ∧
      JsonPath.findAll "$.a.12[0]" numbered = .ok [.str "x"] ∧ Pointer.resolve "/a/12/0" numbered = .ok (.str "x") ∧
      (∀ s ∈ [.key "a", .index "12", .index "0"], Written s) ∧
      CrossesAlong [.key "a", .index "12", .index "0"] numbered ∧ JsonPath.findAll "$.a[12][0]" numbered = .ok [] := by
  have proper : Proper numbered := by
    refine .obj (by simp) (List.forall_mem_singleton.mpr (.obj (by simp) (List.forall_mem_singleton.mpr ?_)))
    exact .arr (by decide) (List.forall_mem_singleton.mpr (.str _))
  have leads : Leads numbered [.key "a", .key "12", .index "0"] (.str "x") :=
    .member (.head _) (.member (.head _) (.item (i := 0) rfl (.here _)))
  have written : ∀ s ∈ [.key "a", .index "12", .index "0"], Written s := by simp [Written, Text.isDigits]
  have path : JsonPath.render [.root, .key "a", .key "12", .index "0"] = "$.a.12[0]" := by decide
  have pointer : Pointer.render [.root, .key "a", .key "12", .index "0"] = "/a/12/0" := by decide
  have path' : JsonPath.render [.root, .key "a", .index "12", .index "0"] = "$.a[12][0]" := by decide
  have pointer' : Pointer.render [.root, .key "a", .index "12", .index "0"] = "/a/12/0" := by decide
  have both := forms_agree.2 _ proper _ _ leads
  rw [path, pointer] at both
  have crosses : CrossesAlong [.key "a", .index "12", .index "0"] numbered :=
    ⟨[.key "a"], .index "12", [.index "0"], _, rfl, (resolve_render_iff _ _ _).mpr rfl, _, rfl⟩
  obtain ⟨found, came, _, nothing⟩ := forms_agree.1 _ written numbered
  rw [pointer'] at nothing
  rw [path', (nothing _ both.2).mpr crosses] at came
  exact ⟨proper, leads, both.1, both.2, written, crosses, came⟩

end RecordMapper.Proofs.TwoForms
