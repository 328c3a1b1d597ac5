import RecordMapper.Proofs.Sameness
import RecordMapper.Proofs.SchemaTree
import RecordMapper.Schema.Registry

/-!
# What a schema tree counts

Every node of the tree of registered documents counts what the text of its path selects in them.
Main statement: `counts_what_documents_hold`. Values are compared as scalars with their numbers
normalized (`countOf_addDocument`), and the order of the documents changes no node
(`summary_of_perm`).
-/

namespace RecordMapper.Proofs.SchemaCounts

open RecordMapper.SchemaNode RecordMapper.Proofs.Documents RecordMapper.Proofs.SchemaTree

/-! ## Counts of scalars -/

/-- Two values are the same scalar once numbers are normalized. -/
def sameScalar (x v : Json) : Bool :=
  match Scalar.ofJson? x, Scalar.ofJson? v with
  | some s, some t => s.same t
  | _, _ => false

theorem countIn_cons (s t : Scalar) (k : Nat) (counts : List (Scalar × Nat)) :
    s.countIn ((t, k) :: counts) = if s.same t then k else s.countIn counts := by
  rw [Scalar.countIn, List.find?_cons]
  by_cases same : s.same t = true
  · simp [same]
  · simp [same, Scalar.countIn]

/-- Counting a scalar raises the count of the scalars that are the same by one and no other. -/
theorem countIn_count (s t : Scalar) (counts : List (Scalar × Nat)) :
    s.countIn (t.count counts) = s.countIn counts + if s.same t then 1 else 0 := by
  induction counts with
  | nil => rw [Scalar.count, countIn_cons, Scalar.countIn, List.find?_nil, Nat.zero_add]
  | cons c rest ih =>
    obtain ⟨u, k⟩ := c
    rw [Scalar.count]
    by_cases counted : t.same u = true
    · rw [if_pos counted, countIn_cons, countIn_cons]
      by_cases same : s.same t = true
      · simp [same, Sameness.scalar_same_trans same counted]
      · have other : ¬ s.same u = true := fun there =>
          same (Sameness.scalar_same_trans there (Sameness.scalar_same_symm counted))
        simp [same, other]
    · rw [if_neg counted, countIn_cons, countIn_cons, ih]
      by_cases there : s.same u = true
      · have other : ¬ s.same t = true := fun same =>
          counted (Sameness.scalar_same_trans (Sameness.scalar_same_symm same) there)
        simp [there, other]
      · simp [there]

theorem countOf_addDocument (x d : Json) (n : SchemaNode) :
    (n.addDocument d).countOf x = n.countOf x + if sameScalar x d then 1 else 0 := by
  rw [countOf, values_addDocument, countOf, sameScalar, tally]
  cases Scalar.ofJson? x with
  | none => rfl
  | some s =>
    cases Scalar.ofJson? d with
    | none => rfl
    | some t => exact countIn_count s t n.values

theorem times_addAll (ds : List Json) (n : SchemaNode) : (addAll ds n).times = n.times + ds.length := by
  induction ds generalizing n with
  | nil => rfl
  | cons d rest ih =>
    have step := ih (n.addDocument d)
    rw [times_addDocument] at step
    rw [addAll, List.foldl_cons, ← addAll, step, List.length_cons]
    omega

theorem countOf_addAll (x : Json) (ds : List Json) (n : SchemaNode) :
    (addAll ds n).countOf x = n.countOf x + ds.countP (sameScalar x) := by
  induction ds generalizing n with
  | nil => rfl
  | cons d rest ih =>
    have step := ih (n.addDocument d)
    rw [countOf_addDocument] at step
    rw [addAll, List.foldl_cons, ← addAll, step, List.countP_cons]
    omega

/-! ## The tree of all documents -/

/-- Some document has the location; the root is there without any. -/
def Present (ss : List Segment) (ds : List Json) : Prop := ss = [] ∨ ds.filterMap (locate ss) ≠ []

theorem shaped_tree (ds : List Json) : Shaped (addAll ds root) := shaped_addAll ds (shaped_fresh Path.root)

/-- The nodes of the tree of documents, each with what it is made of. -/
theorem follow_root_iff {ds : List Json} (proper : ∀ d ∈ ds, Proper d) (ss : List Segment) (m : SchemaNode) :
    follow ss (addAll ds root) = some m ↔
      Present ss ds ∧ m = addAll (ds.filterMap (locate ss)) (fresh (Segment.root :: ss)) := by
  rw [follow_addAll proper (n := root) (shaped_fresh Path.root) ss, Present]
  have top : fresh [Segment.root] = root := fresh_root
  cases ss with
  | nil =>
    have all : ds.filterMap (locate []) = ds := List.filterMap_some
    rw [all]
    cases ds with
    | nil => simp [follow, top, addAll, eq_comm]
    | cons d rest => simp [follow, top, eq_comm]
  | cons s rest =>
    have absent : follow (s :: rest) root = none := rfl
    cases ds.filterMap (locate (s :: rest)) with
    | nil => simp [absent]
    | cons v others =>
      have path : root.path ++ s :: rest = Segment.root :: s :: rest := rfl
      simp [absent, path, eq_comm]

theorem canonical_of_present {ds : List Json} (proper : ∀ d ∈ ds, Proper d) {ss : List Segment}
    (present : Present ss ds) : ∀ s ∈ ss, Canonical s := by
  rcases present with rfl | found
  · simp
  · obtain ⟨v, member⟩ := List.exists_mem_of_ne_nil _ found
    obtain ⟨d, inside, located⟩ := List.mem_filterMap.mp member
    exact canonical_of_locate (proper d inside) located

/-! ## Nodes against the query engine -/

/-- What the text of the path of a node selects in a document, if that is one value. -/
def match? (n : SchemaNode) (d : Json) : Option Json :=
  match JsonPath.findAll (JsonPath.render n.path) d with
  | .ok [v] => some v
  | _ => none

/-- A node counts what the text of its path selects in the documents: never more than one value
in each, the documents that have one, and the documents that have the same scalar. -/
structure Counts (n : SchemaNode) (ds : List Json) : Prop where
  single : ∀ d ∈ ds, JsonPath.findAll (JsonPath.render n.path) d = .ok (match? n d).toList
  times : n.times = ds.countP fun d => (match? n d).isSome
  values : ∀ x, n.countOf x = ds.countP fun d => (match? n d).any (sameScalar x)

private theorem match_eq_locate {n : SchemaNode} {ss : List Segment} (path : n.path = Segment.root :: ss)
    (canonical : ∀ s ∈ ss, Canonical s) {d : Json} (proper : Proper d) :
    match? n d = locate ss d ∧ JsonPath.findAll (JsonPath.render n.path) d = .ok (match? n d).toList := by
  have found := findAll_render proper canonical
  rw [← path] at found
  have same : match? n d = locate ss d := by
    rw [match?, found]
    cases locate ss d <;> rfl
  exact ⟨same, same ▸ found⟩

theorem counts_of_mem {ds : List Json} (proper : ∀ d ∈ ds, Proper d) {n : SchemaNode}
    (member : n ∈ nodes (addAll ds root)) : Counts n ds := by
  obtain ⟨ss, found⟩ := (mem_nodes_iff (shaped_tree ds) n).mp member
  obtain ⟨present, made⟩ := (follow_root_iff proper ss n).mp found
  have path : n.path = Segment.root :: ss := by rw [made, path_addAll]; rfl
  have matched := fun d inside => match_eq_locate path (canonical_of_present proper present) (proper d inside)
  refine ⟨fun d inside => (matched d inside).2, ?_, fun x => ?_⟩
  · rw [made, times_addAll, List.length_filterMap_eq_countP, ← made]
    rw [show (fresh (Segment.root :: ss)).times = 0 from rfl, Nat.zero_add]
    refine List.countP_congr fun d inside => ?_
    rw [(matched d inside).1]
  · have start : (fresh (Segment.root :: ss)).countOf x = 0 := by
      rw [countOf]
      cases Scalar.ofJson? x <;> rfl
    rw [made, countOf_addAll, List.countP_filterMap, ← made, start, Nat.zero_add]
    refine List.countP_congr fun d inside => ?_
    rw [(matched d inside).1]
    cases locate ss d <;> simp

/-- Every location of a document has exactly one node. -/
theorem count_of_leads {ds : List Json} (proper : ∀ d ∈ ds, Proper d) {d v : Json} {ss : List Segment}
    (inside : d ∈ ds) (leads : Leads d ss v) :
    ((nodes (addAll ds root)).map (·.path)).count (Segment.root :: ss) = 1 := by
  have located := (leads_iff_locate (proper d inside)).mp leads
  have present : Present ss ds := .inr (List.ne_nil_of_mem (List.mem_filterMap.mpr ⟨d, inside, located⟩))
  have found := (follow_root_iff proper ss _).mpr ⟨present, rfl⟩
  refine List.count_eq_one_of_mem (nodup_nodes (shaped_tree ds)) (List.mem_map.mpr ?_)
  exact ⟨_, (mem_nodes_iff (shaped_tree ds) _).mpr ⟨ss, found⟩, path_addAll _ _⟩

/-! ## The order of documents -/

/-- All that a node says apart from what lies below it and the order of its values. -/
def summary (n : SchemaNode) : Path × Nat × (Json → Nat) := (n.path, n.times, fun x => n.countOf x)

theorem summary_addAll {ds es : List Json} (same : ds.Perm es) (n : SchemaNode) :
    summary (addAll ds n) = summary (addAll es n) := by
  have counts : (fun x => (addAll ds n).countOf x) = fun x => (addAll es n).countOf x := by
    funext x
    rw [countOf_addAll, countOf_addAll, same.countP_eq]
  rw [summary, summary, path_addAll, path_addAll, times_addAll, times_addAll, same.length_eq, counts]

private theorem mem_summaries {ds es : List Json} (proper : ∀ d ∈ ds, Proper d) (same : ds.Perm es)
    {x : Path × Nat × (Json → Nat)} (member : x ∈ (nodes (addAll ds root)).map summary) :
    x ∈ (nodes (addAll es root)).map summary := by
  obtain ⟨m, inside, rfl⟩ := List.mem_map.mp member
  obtain ⟨ss, found⟩ := (mem_nodes_iff (shaped_tree ds) m).mp inside
  obtain ⟨present, made⟩ := (follow_root_iff proper ss m).mp found
  have located := same.filterMap (locate ss)
  have still : Present ss es := present.imp_right fun some none => some (none ▸ located).eq_nil
  have other := (follow_root_iff (fun e kept => proper e (same.mem_iff.mpr kept)) ss _).mpr ⟨still, rfl⟩
  refine List.mem_map.mpr ⟨_, (mem_nodes_iff (shaped_tree es) _).mpr ⟨ss, other⟩, ?_⟩
  rw [made]
  exact (summary_addAll located _).symm

theorem summary_of_perm {ds es : List Json} (proper : ∀ d ∈ ds, Proper d) (same : ds.Perm es) :
    ((nodes (addAll ds root)).map summary).Perm ((nodes (addAll es root)).map summary) := by
  have distinct : ∀ ds : List Json, ((nodes (addAll ds root)).map summary).Nodup := by
    intro ds
    refine List.Nodup.of_map (·.1) ?_
    rw [List.map_map]
    exact nodup_nodes (shaped_tree ds)
  refine (List.perm_ext_iff_of_nodup (distinct ds) (distinct es)).mpr fun x => ⟨mem_summaries proper same, ?_⟩
  exact mem_summaries (fun e kept => proper e (same.mem_iff.mpr kept)) same.symm

/-! ## Registered documents -/

/-- The registry after documents came one by one, each under the name it was given. -/
def registered (documents : List (String × Json)) : Registry :=
  documents.foldl (fun r d => (r.process d.1 d.2).1) Registry.empty

theorem tree_registered (documents : List (String × Json)) :
    (registered documents).tree = addAll (documents.map (·.2)) root := by
  have each : ∀ r : Registry, (documents.foldl (fun r d => (r.process d.1 d.2).1) r).tree =
      addAll (documents.map (·.2)) r.tree := by
    induction documents with
    | nil => exact fun _ => rfl
    | cons d rest ih => exact fun r => ih (r.process d.1 d.2).1
  exact each Registry.empty

/-- Each node of the tree counts what the text of its path selects in the registered documents,
each location of each document has exactly one node, and another order of the same documents
gives nodes that say the same. -/
theorem counts_what_documents_hold (documents : List (String × Json)) (proper : ∀ d ∈ documents, Proper d.2) :
    (∀ n ∈ nodes (registered documents).tree, Counts n (documents.map (·.2))) ∧
      (∀ d ∈ documents, ∀ ss v, Leads d.2 ss v →
        ((nodes (registered documents).tree).map (·.path)).count (Segment.root :: ss) = 1) ∧
      ∀ others : List (String × Json), (others.map (·.2)).Perm (documents.map (·.2)) →
        ((nodes (registered others).tree).map summary).Perm ((nodes (registered documents).tree).map summary) := by
  have values : ∀ d ∈ documents.map (·.2), Proper d := by
    intro d member
    obtain ⟨document, inside, rfl⟩ := List.mem_map.mp member
    exact proper document inside
  rw [tree_registered]
  refine ⟨fun n member => counts_of_mem values member, fun d inside ss v leads => ?_, fun others same => ?_⟩
  · exact count_of_leads values (List.mem_map_of_mem inside) leads
  · rw [tree_registered]
    exact (summary_of_perm values same.symm).symm

/-- Documents of one name whose numbers are written in two ways, with a key that needs brackets and
one that reads like a number. -/
def mixed : List (String × Json) :=
  [("a", .obj [("a b", .arr [.num (.int 1), .null]), ("0", .str "x")]),
    ("a", .obj [("a b", .arr [.num (.float ((Binary64.ofNat? 1).getD .zero))])]),
    ("b", .arr [.num (.int 1)])]

/-- The two ways to write the number are counted as one, at the node of their location. -/
theorem mixed_counted : (∀ d ∈ mixed, Proper d.2) ∧
    ∃ n ∈ nodes (registered mixed).tree, JsonPath.render n.path = "$['a b'][0]" ∧
      Counts n (mixed.map (·.2)) ∧ n.times = 2 ∧ n.countOf (.num (.int 1)) = 2 := by
  have proper : ∀ d ∈ mixed, Proper d.2 := by
    simp only [mixed, List.mem_cons, List.not_mem_nil, or_false]
    rintro d (rfl | rfl | rfl)
    · refine .obj (by decide) ?_
      simp only [List.mem_cons, List.not_mem_nil, or_false]
      rintro m (rfl | rfl)
      · refine .arr (by decide) ?_
        simp [Proper.num, Proper.null]
      · exact .str "x"
    · refine .obj (by decide) ?_
      simp only [List.mem_cons, List.not_mem_nil, or_false]
      rintro m rfl
      refine .arr (by decide) ?_
      simp [Proper.num]
    · refine .arr (by decide) ?_
      simp [Proper.num]
  obtain ⟨counts, _, _⟩ := counts_what_documents_hold mixed proper
  have shaped : Shaped (registered mixed).tree := by
    rw [tree_registered]
    exact shaped_tree _
  have found : follow [.key "a b", .index "0"] (registered mixed).tree =
      some ⟨"0", [Segment.root, .key "a b", .index "0"], true, 2, [(.atom (.number (.int 1)), 2)], []⟩ := by rfl
  have member := (mem_nodes_iff shaped _).mpr ⟨_, found⟩
  exact ⟨proper, _, member, by decide, counts _ member, rfl, by decide⟩

end RecordMapper.Proofs.SchemaCounts
