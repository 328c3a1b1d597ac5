import Mathlib.Algebra.Order.Field.Basic
import Mathlib.Data.Rat.Cast.Order
import RecordMapper.Proofs.RegistryRuns

/-!
# Invariants of the schema tree

After any calls on a registry, each node of its tree is consistent: its children stand at its path and one
segment more, for which they are named, no child occurred more often than the node, the counts of its scalars
come to no more than its occurrences, and its items have no gap (`consistent_after`). All this is read off the values that the
documents have at the location of the node, since the node and its children are made of exactly these
(`mem_children_iff`).
-/

namespace RecordMapper.Proofs.TreeInvariants
open RecordMapper.SchemaNode RecordMapper.Proofs.Documents RecordMapper.Proofs.SchemaTree
open RecordMapper.Proofs.SchemaCounts RecordMapper.Proofs.RegistryRuns

/-! ## Counted scalars -/

/-- Objects and arrays. -/
def IsContainer : Json → Prop
  | .arr _ => True
  | .obj _ => True
  | _ => False

/-- The sum of the counts of all scalars at a node. -/
def counted (n : SchemaNode) : Nat := (n.values.map (·.2)).sum

theorem isSome_ofJson_iff (v : Json) : (Scalar.ofJson? v).isSome = true ↔ ¬ IsContainer v := by
  cases v <;> simp [Scalar.ofJson?, IsContainer]

theorem sum_count (s : Scalar) (counts : List (Scalar × Nat)) :
    ((s.count counts).map (·.2)).sum = (counts.map (·.2)).sum + 1 := by
  induction counts with
  | nil => simp [Scalar.count]
  | cons c rest ih =>
    obtain ⟨t, k⟩ := c
    rw [Scalar.count]
    split
    · simp only [List.map_cons, List.sum_cons]
      omega
    · simp only [List.map_cons, List.sum_cons, ih]
      omega

theorem counted_addDocument (d : Json) (n : SchemaNode) :
    counted (n.addDocument d) = counted n + if (Scalar.ofJson? d).isSome then 1 else 0 := by
  rw [counted, values_addDocument, counted, tally]
  cases Scalar.ofJson? d with
  | none => rfl
  | some s => exact sum_count s n.values

theorem counted_addAll (vs : List Json) (n : SchemaNode) :
    counted (addAll vs n) = counted n + vs.countP fun v => (Scalar.ofJson? v).isSome := by
  induction vs generalizing n with
  | nil => rfl
  | cons v rest ih =>
    have step := ih (n.addDocument v)
    rw [counted_addDocument] at step
    rw [addAll, List.foldl_cons, ← addAll, step, List.countP_cons]
    omega

/-! ## A node and its children -/

/-- The values that documents have at a location, in order. -/
def valuesAt (ss : List Segment) (ds : List Json) : List Json := ds.filterMap (locate ss)

section

variable {ds : List Json} {ss : List Segment} {n : SchemaNode}

theorem valuesAt_concat (ss : List Segment) (s : Segment) (ds : List Json) :
    valuesAt (ss ++ [s]) ds = (valuesAt ss ds).filterMap fun v => (below v).lookup s := by
  rw [valuesAt, valuesAt, List.filterMap_filterMap]
  exact List.filterMap_congr fun d _ => locate_concat ss s d

theorem length_valuesAt_concat (ss : List Segment) (s : Segment) (ds : List Json) :
    (valuesAt (ss ++ [s]) ds).length = (valuesAt ss ds).countP fun v => ((below v).lookup s).isSome := by
  rw [valuesAt_concat, List.length_filterMap_eq_countP]

variable (proper : ∀ d ∈ ds, Proper d) (found : follow ss (addAll ds root) = some n)
include proper found

theorem made_of_follow : n = addAll (valuesAt ss ds) (fresh (Segment.root :: ss)) :=
  ((follow_root_iff proper ss n).mp found).2

/-- A node keeps the name that it was made with, and stays what it was made as. -/
theorem name_of_follow : n.key = (fresh (Segment.root :: ss)).key ∧
    n.isArrayElement = (fresh (Segment.root :: ss)).isArrayElement := by
  rw [made_of_follow proper found]
  exact name_addAll _ _

theorem times_of_follow : n.times = (valuesAt ss ds).length := by
  rw [made_of_follow proper found, times_addAll]
  exact Nat.zero_add _

/-- A node has a child for each segment at which documents have values below it, made of these values. -/
theorem mem_children_iff (s : Segment) (c : SchemaNode) :
    (s, c) ∈ n.children ↔ valuesAt (ss ++ [s]) ds ≠ [] ∧ follow (ss ++ [s]) (addAll ds root) = some c := by
  have shaped : Shaped n := shaped_of_follow (shaped_tree ds) found
  have below : follow (ss ++ [s]) (addAll ds root) = n.children.lookup s := by
    rw [follow_concat, found, Option.bind_some]
  rw [← shaped.lookup_iff, ← below]
  refine ⟨fun child => ⟨?_, child⟩, And.right⟩
  rcases ((follow_root_iff proper _ c).mp child).1 with same | occurs
  · simp at same
  · exact occurs

/-- A child is named for the segment under which it stands, and is an item if that is an index. -/
theorem name_child {s : Segment} {c : SchemaNode} (member : (s, c) ∈ n.children) :
    c.key = s.text ∧ c.isArrayElement = s.isIndex := by
  obtain ⟨key, item⟩ := name_of_follow proper ((mem_children_iff proper found s c).mp member).2
  rw [← List.cons_append, fresh_concat, empty] at key item
  refine ⟨key.trans ?_, item⟩
  rw [List.getLast?_concat]
  rfl

theorem times_child_le {s : Segment} {c : SchemaNode} (member : (s, c) ∈ n.children) : c.times ≤ n.times := by
  have child := ((mem_children_iff proper found s c).mp member).2
  rw [times_of_follow proper child, times_of_follow proper found, length_valuesAt_concat]
  exact List.countP_le_length

theorem counted_of_follow : counted n = (valuesAt ss ds).countP fun v => (Scalar.ofJson? v).isSome := by
  rw [made_of_follow proper found, counted_addAll]
  exact Nat.zero_add _

theorem counted_le_times : counted n ≤ n.times := by
  rw [counted_of_follow proper found, times_of_follow proper found]
  exact List.countP_le_length

theorem counted_eq_times_iff : counted n = n.times ↔ ∀ d ∈ ds, ∀ v, Leads d ss v → ¬ IsContainer v := by
  rw [counted_of_follow proper found, times_of_follow proper found, List.countP_eq_length]
  constructor
  · intro scalars d inside v leads
    have located := (leads_iff_locate (proper d inside)).mp leads
    exact (isSome_ofJson_iff v).mp (scalars v (List.mem_filterMap.mpr ⟨d, inside, located⟩))
  · intro plain v member
    obtain ⟨d, inside, located⟩ := List.mem_filterMap.mp member
    exact (isSome_ofJson_iff v).mpr (plain d inside v ((leads_iff_locate (proper d inside)).mpr located))

omit found in
/-- An array with an item at a place has one at the place before. -/
theorem lookup_before {v : Json} (inside : v ∈ valuesAt ss ds) {i : Nat}
    (item : ((below v).lookup (.index (toString (i + 1)))).isSome = true) :
    ((below v).lookup (.index (toString i))).isSome = true := by
  obtain ⟨d, document, located⟩ := List.mem_filterMap.mp inside
  have own : Proper v := proper_of_locate (proper d document) located
  obtain ⟨w, there⟩ := Option.isSome_iff_exists.mp item
  have member := (lookup_below_iff own _ _).mp there
  cases v with
  | arr items =>
    obtain ⟨j, same, place⟩ := (mem_below_arr _ _ _).mp member
    obtain rfl := PathTexts.toString_injective (Segment.index.inj same)
    have few : i < items.length := by
      have := (List.getElem?_eq_some_iff.mp place).1
      omega
    have before : (Segment.index (toString i), items[i]) ∈ below (.arr items) :=
      (mem_below_arr _ _ _).mpr ⟨i, rfl, List.getElem?_eq_getElem few⟩
    rw [(lookup_below_iff own _ _).mpr before]
    rfl
  | obj members =>
    obtain ⟨key, same, _⟩ := (mem_below_obj _ _ _).mp member
    cases same
  | _ => simp [below] at member

theorem item_before {i : Nat} {c : SchemaNode} (member : (.index (toString (i + 1)), c) ∈ n.children) :
    ∃ c', (.index (toString i), c') ∈ n.children ∧ c.times ≤ c'.times := by
  obtain ⟨occurs, child⟩ := (mem_children_iff proper found _ c).mp member
  have fewer : (valuesAt (ss ++ [.index (toString (i + 1))]) ds).length ≤
      (valuesAt (ss ++ [.index (toString i)]) ds).length := by
    rw [length_valuesAt_concat, length_valuesAt_concat]
    exact List.countP_mono_left fun v inside => lookup_before proper inside
  have present : valuesAt (ss ++ [.index (toString i)]) ds ≠ [] := by
    rw [← List.length_pos_iff] at occurs ⊢
    omega
  obtain ⟨c', there⟩ : ∃ c', follow (ss ++ [.index (toString i)]) (addAll ds root) = some c' :=
    ⟨_, (follow_root_iff proper (ss ++ [Segment.index (toString i)]) _).mpr ⟨.inr present, rfl⟩⟩
  refine ⟨c', (mem_children_iff proper found _ _).mpr ⟨present, there⟩, ?_⟩
  rw [times_of_follow proper child, times_of_follow proper there]
  exact fewer

end

/-! ## Consistent nodes -/

/-- A node that fits its children and the documents of its tree. -/
structure Consistent (n : SchemaNode) (ds : List Json) : Prop where
  /-- Children stand under segments that are all different. -/
  distinct : (n.children.map (·.1)).Nodup
  /-- A child stands under its own last segment, one segment further than the node. -/
  child_path : ∀ s c, (s, c) ∈ n.children → c.path = n.path ++ [s] ∧ c.path.getLast? = some s
  /-- A child has the name of its segment, and is an item exactly if that is an index. -/
  child_key : ∀ s c, (s, c) ∈ n.children → c.key = s.text ∧ c.isArrayElement = s.isIndex
  child_times : ∀ s c, (s, c) ∈ n.children → c.times ≤ n.times
  counted_le : counted n ≤ n.times
  /-- All occurrences are counted exactly if none was an object or an array. -/
  counted_eq_iff : counted n = n.times ↔ ∀ d ∈ ds, ∀ v, Leads d n.path.steps v → ¬ IsContainer v
  /-- Where there is an item there is the one before, which occurred at least as often. -/
  item_before : ∀ i c, (.index (toString (i + 1)), c) ∈ n.children →
    ∃ c', (.index (toString i), c') ∈ n.children ∧ c.times ≤ c'.times

theorem consistent_of_follow {ds : List Json} {ss : List Segment} {n : SchemaNode} (proper : ∀ d ∈ ds, Proper d)
    (found : follow ss (addAll ds root) = some n) : Consistent n ds := by
  have shaped : Shaped n := shaped_of_follow (shaped_tree ds) found
  have path : n.path = Segment.root :: ss := by
    rw [made_of_follow proper found, path_addAll]
    rfl
  constructor
  case distinct => exact shaped.distinct
  case child_path =>
    intro s c member
    have place := shaped.path_child (s, c) member
    exact ⟨place, by rw [place, List.getLast?_concat]⟩
  case child_key => exact fun s c member => name_child proper found member
  case child_times => exact fun s c member => times_child_le proper found member
  case counted_le => exact counted_le_times proper found
  case counted_eq_iff =>
    rw [path]
    exact counted_eq_times_iff proper found
  case item_before => exact fun i c member => item_before proper found member

/-! ## Runs -/

/-- The exact share of which `SchemaNode.shareOf` is the double; nothing is a share of no documents. -/
def exactShare (count total : Nat) : ℚ := count / total

theorem exactShare_le_one {count total : Nat} (within : count ≤ total) :
    0 ≤ exactShare count total ∧ exactShare count total ≤ 1 := by
  constructor
  · exact div_nonneg (Nat.cast_nonneg count) (Nat.cast_nonneg total)
  · exact div_le_one_of_le₀ (Nat.cast_le.mpr within) (Nat.cast_nonneg total)

/-- After any calls, the tree and the names count the documents since the last reset, and each node is
consistent and occurred in no more than all of these documents. -/
theorem consistent_after (calls : List Call) (proper : ∀ d ∈ sinceReset calls, Proper d.2) :
    ((after calls).tree.times = (sinceReset calls).length ∧
      (after calls).names.length = (sinceReset calls).length ∧ (after calls).names.Nodup) ∧
    ∀ n ∈ nodes (after calls).tree, Consistent n ((sinceReset calls).map (·.2)) ∧ n.times ≤ (after calls).count ∧
      0 ≤ exactShare n.times (after calls).count ∧ exactShare n.times (after calls).count ≤ 1 := by
  have values : ∀ d ∈ (sinceReset calls).map (·.2), Proper d := by
    intro d member
    obtain ⟨document, inside, rfl⟩ := List.mem_map.mp member
    exact proper document inside
  have names : (after calls).names.length = (sinceReset calls).length := by
    rw [length_names_after, count_after]
  refine ⟨⟨count_after calls, names, nodup_names_after calls⟩, ?_⟩
  intro n member
  rw [tree_after] at member
  obtain ⟨ss, found⟩ := (mem_nodes_iff (shaped_tree _) n).mp member
  have within : n.times ≤ (after calls).count := by
    rw [times_of_follow values found, count_after]
    exact (List.length_filterMap_le _ _).trans_eq (List.length_map _)
  exact ⟨consistent_of_follow values found, within, exactShare_le_one within⟩

/-- A reset between documents, of which the later ones have an array and a scalar at one place. -/
def visits : List Call :=
  [.process "a" (.obj [("x", .null), ("y", .null)]), .reset,
    .process "a" (.obj [("x", .arr [.bool true, .null])]), .process "a" (.obj [("x", .str "none")])]

/-- A node that was an array once counts one scalar less than it occurred. -/
theorem visits_consistent : (∀ d ∈ sinceReset visits, Proper d.2) ∧ (after visits).names = ["a", "a (1)"] ∧
    ∃ n ∈ nodes (after visits).tree, n.path = [Segment.root, .key "x"] ∧ n.times = 2 ∧ counted n = 1 ∧
      Consistent n ((sinceReset visits).map (·.2)) := by
  have proper : ∀ d ∈ sinceReset visits, Proper d.2 := by
    have kept : sinceReset visits =
        [("a", .obj [("x", .arr [.bool true, .null])]), ("a", .obj [("x", .str "none")])] := rfl
    rw [kept]
    simp only [List.mem_cons, List.not_mem_nil, or_false]
    rintro d (rfl | rfl)
    · refine .obj (by decide) ?_
      simp only [List.mem_singleton]
      rintro m rfl
      refine .arr (by decide) ?_
      simp [Proper.bool, Proper.null]
    · refine .obj (by decide) ?_
      simp [Proper.str]
  obtain ⟨n, found, path, times, scalars⟩ : ∃ n, follow [.key "x"] (after visits).tree = some n ∧
      n.path = [Segment.root, .key "x"] ∧ n.times = 2 ∧ counted n = 1 := ⟨_, rfl, rfl, rfl, rfl⟩
  have member : n ∈ nodes (after visits).tree := by
    rw [tree_after] at found ⊢
    exact (mem_nodes_iff (shaped_tree _) n).mpr ⟨_, found⟩
  have consistent := ((consistent_after visits proper).2 n member).1
  exact ⟨proper, by decide +kernel, n, member, path, times, scalars, consistent⟩

end RecordMapper.Proofs.TreeInvariants
