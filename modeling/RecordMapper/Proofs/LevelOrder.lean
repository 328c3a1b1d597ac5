import Mathlib.Logic.Function.Iterate
import RecordMapper.Proofs.RegistryRuns

/-!
# Flattened trees, level by level

The nodes at which scalars were counted are collected with a queue: each round takes the first node of the
queue and puts its children at the end. Main statement: `flattened_by_levels`. The queue runs empty after as
many rounds as the tree has nodes, and what was collected is level after level of the tree, each level in the
order of its parents, without the nodes at which no scalar was counted. While a level is worked off, the queue
holds what is left of it and then the next level, as far as it is known (`breadthFirst_append`).
-/

namespace RecordMapper.Proofs.LevelOrder
open RecordMapper.SchemaNode RecordMapper.Proofs.SchemaTree RecordMapper.Proofs.RegistryRuns

/-- The nodes so many levels below a node: the children of one level, parent by parent, are the next. -/
def level (n : SchemaNode) : Nat → List SchemaNode
  | 0 => [n]
  | depth + 1 => (level n depth).flatMap fun m => m.children.map (·.2)

/-! ## Rounds -/

/-- A queue of trees, and the nodes collected so far. -/
abbrev Queue := List (Segment × SchemaNode) × List SchemaNode

/-- One round: the first node of the queue is collected if scalars were counted there. -/
def round : Queue → Queue
  | ([], collected) => ([], collected)
  | ((_, n) :: queue, collected) => (queue ++ n.children, if n.isLeaf then collected ++ [n] else collected)

/-- A round takes one node off the trees in the queue, if there is any. -/
theorem sizeAll_round (q : Queue) : sizeAll (round q).1 = sizeAll q.1 - 1 := by
  obtain ⟨queue, collected⟩ := q
  cases queue with
  | nil => rfl
  | cons first queue =>
    obtain ⟨s, n⟩ := first
    simp only [round, sizeAll, sizeAll_append, size_eq]
    omega

/-- What is collected and what the queue is still to give do not change together. -/
theorem collected_round (q : Queue) :
    (round q).2 ++ (breadthFirst (round q).1).filter isLeaf = q.2 ++ (breadthFirst q.1).filter isLeaf := by
  obtain ⟨queue, collected⟩ := q
  cases queue with
  | nil => rfl
  | cons first queue =>
    obtain ⟨s, n⟩ := first
    rw [round, breadthFirst]
    by_cases leaf : n.isLeaf = true
    · simp [leaf]
    · simp [leaf]

theorem sizeAll_rounds (k : Nat) (q : Queue) : sizeAll (round^[k] q).1 = sizeAll q.1 - k := by
  induction k with
  | zero => rfl
  | succ k ih =>
    rw [Function.iterate_succ_apply', sizeAll_round, ih]
    omega

theorem collected_rounds (k : Nat) (q : Queue) :
    (round^[k] q).2 ++ (breadthFirst (round^[k] q).1).filter isLeaf = q.2 ++ (breadthFirst q.1).filter isLeaf := by
  induction k with
  | zero => rfl
  | succ k ih => rw [Function.iterate_succ_apply', collected_round, ih]

theorem sizeAll_eq_zero_iff (queue : List (Segment × SchemaNode)) : sizeAll queue = 0 ↔ queue = [] := by
  cases queue with
  | nil => simp [sizeAll]
  | cons first queue =>
    obtain ⟨s, n⟩ := first
    simp only [sizeAll, size_eq, reduceCtorEq, iff_false]
    omega

theorem sizeAll_singleton (s : Segment) (n : SchemaNode) : sizeAll [(s, n)] = n.size := by
  simp [sizeAll]

/-- The queue is empty after as many rounds as there are nodes, and not before. -/
theorem queue_empty_iff (n : SchemaNode) (k : Nat) :
    (round^[k] ([(Segment.root, n)], [])).1 = [] ↔ n.size ≤ k := by
  rw [← sizeAll_eq_zero_iff, sizeAll_rounds, sizeAll_singleton]
  omega

/-- When the queue is empty, the flattened tree is collected. -/
theorem rounds_eq_flattened (n : SchemaNode) : round^[n.size] ([(Segment.root, n)], []) = ([], n.flattened) := by
  have empty := (queue_empty_iff n n.size).mpr le_rfl
  have whole := collected_rounds n.size ([(Segment.root, n)], [])
  rw [empty, breadthFirst, List.filter_nil, List.append_nil, List.nil_append] at whole
  exact Prod.ext empty whole

/-! ## Levels -/

/-- The children of trees, parent by parent. -/
def below (queue : List (Segment × SchemaNode)) : List (Segment × SchemaNode) := queue.flatMap (·.2.children)

/-- The trees at the front of a queue are worked off before the others, and their children come last. -/
theorem breadthFirst_append (front back : List (Segment × SchemaNode)) :
    breadthFirst (front ++ back) = front.map (·.2) ++ breadthFirst (back ++ below front) := by
  induction front generalizing back with
  | nil => simp [below]
  | cons first front ih =>
    obtain ⟨s, n⟩ := first
    rw [List.cons_append, breadthFirst, List.append_assoc, ih]
    simp [below]

/-- A queue gives its own nodes and then the level below. -/
theorem breadthFirst_below (queue : List (Segment × SchemaNode)) :
    breadthFirst queue = queue.map (·.2) ++ breadthFirst (below queue) := by
  simpa using breadthFirst_append queue []

theorem breadthFirst_levels (k : Nat) (queue : List (Segment × SchemaNode)) :
    breadthFirst queue =
      ((List.range k).flatMap fun depth => (below^[depth] queue).map (·.2)) ++ breadthFirst (below^[k] queue) := by
  induction k with
  | zero => rfl
  | succ k ih =>
    rw [ih, List.range_succ, List.flatMap_append, List.flatMap_singleton, Function.iterate_succ_apply',
      breadthFirst_below (below^[k] queue), List.append_assoc]

/-- Going down a level leaves out one node at least, if there is any. -/
theorem sizeAll_below_le (queue : List (Segment × SchemaNode)) : sizeAll (below queue) ≤ sizeAll queue - 1 := by
  have total : sizeAll (below queue) + queue.length = sizeAll queue := by
    induction queue with
    | nil => rfl
    | cons first queue ih =>
      obtain ⟨s, n⟩ := first
      simp only [below, List.flatMap_cons, sizeAll_append, sizeAll, size_eq, List.length_cons] at ih ⊢
      omega
  cases queue with
  | nil => rfl
  | cons first queue =>
    rw [List.length_cons] at total
    omega

theorem below_eq_nil {k : Nat} {queue : List (Segment × SchemaNode)} (deep : sizeAll queue ≤ k) :
    below^[k] queue = [] := by
  have left : sizeAll (below^[k] queue) ≤ sizeAll queue - k := by
    clear deep
    induction k with
    | zero => exact le_rfl
    | succ k ih =>
      have step := sizeAll_below_le (below^[k] queue)
      rw [Function.iterate_succ_apply']
      omega
  rw [← sizeAll_eq_zero_iff]
  omega

theorem level_eq (n : SchemaNode) (depth : Nat) :
    level n depth = (below^[depth] [(Segment.root, n)]).map (·.2) := by
  induction depth with
  | zero => rfl
  | succ depth ih =>
    rw [level, ih, Function.iterate_succ_apply', below, List.map_flatMap, List.flatMap_map]

/-- No level is deeper than the tree has nodes. -/
theorem level_eq_nil {n : SchemaNode} {depth : Nat} (deep : n.size ≤ depth) : level n depth = [] := by
  rw [level_eq, below_eq_nil, List.map_nil]
  rwa [sizeAll_singleton]

theorem nodes_eq_levels (n : SchemaNode) : nodes n = (List.range n.size).flatMap (level n) := by
  have deep : sizeAll [(Segment.root, n)] ≤ n.size := (sizeAll_singleton _ n).le
  rw [nodes, breadthFirst_levels n.size, below_eq_nil deep, breadthFirst, List.append_nil]
  exact List.flatMap_congr fun depth _ => (level_eq n depth).symm

/-- A level holds the nodes to which as many segments lead. -/
theorem mem_level_iff {n : SchemaNode} (shaped : Shaped n) (depth : Nat) (m : SchemaNode) :
    m ∈ level n depth ↔ ∃ ss : List Segment, ss.length = depth ∧ follow ss n = some m := by
  induction depth generalizing m with
  | zero =>
    rw [level, List.mem_singleton]
    constructor
    · rintro rfl
      exact ⟨[], rfl, rfl⟩
    · rintro ⟨ss, none, found⟩
      obtain rfl := List.length_eq_zero_iff.mp none
      exact (Option.some.inj found).symm
  | succ depth ih =>
    rw [level, List.mem_flatMap]
    constructor
    · rintro ⟨parent, above, child⟩
      obtain ⟨⟨s, _⟩, member, rfl⟩ := List.mem_map.mp child
      obtain ⟨ss, size, found⟩ := (ih parent).mp above
      have there := ((shaped_of_follow shaped found).lookup_iff s _).mpr member
      refine ⟨ss ++ [s], by simp [size], ?_⟩
      rw [follow_concat, found]
      exact there
    · rintro ⟨ss, size, found⟩
      have some : ss ≠ [] := by
        rintro rfl
        cases size
      obtain ⟨upper, s, rfl⟩ := (List.eq_nil_or_concat' ss).resolve_left some
      rw [follow_concat, Option.bind_eq_some_iff] at found
      obtain ⟨parent, above, there⟩ := found
      refine ⟨parent, (ih parent).mpr ⟨upper, by simpa using size, above⟩, ?_⟩
      have member := ((shaped_of_follow shaped above).lookup_iff s m).mp there
      exact List.mem_map.mpr ⟨(s, m), member, rfl⟩

/-! ## Registries -/

/-- After any calls on a registry its tree is flattened in as many rounds as it has nodes. The result has each
node at which scalars were counted, and no other node, exactly once: those of the root, of its children, of
their children and so on, each level in the order of its parents. -/
theorem flattened_by_levels (calls : List Call) :
    let n := (after calls).tree
    (∀ k, (round^[k] ([(Segment.root, n)], [])).1 = [] ↔ n.size ≤ k) ∧
    round^[n.size] ([(Segment.root, n)], []) = ([], n.flattened) ∧
    (∀ depth m, m ∈ level n depth ↔ ∃ ss : List Segment, ss.length = depth ∧ follow ss n = some m) ∧
    (∀ depth, level n (n.size + depth) = []) ∧
    n.flattened = ((List.range n.size).flatMap (level n)).filter isLeaf ∧
    (∀ m, m ∈ n.flattened ↔ (∃ ss, follow ss n = some m) ∧ m.values ≠ []) ∧
    (n.flattened.map (·.path)).Nodup := by
  intro n
  have shaped : Shaped n := by
    have made : n = addAll ((sinceReset calls).map (·.2)) SchemaNode.root := tree_after calls
    rw [made]
    exact SchemaCounts.shaped_tree _
  have filtered : n.flattened = (nodes n).filter isLeaf := rfl
  refine ⟨queue_empty_iff n, rounds_eq_flattened n, mem_level_iff shaped,
    fun depth => level_eq_nil (Nat.le_add_right _ _), ?_, ?_, ?_⟩
  · rw [filtered, nodes_eq_levels]
  · intro m
    rw [filtered, List.mem_filter, mem_nodes_iff shaped]
    simp [isLeaf]
  · rw [filtered]
    exact (nodup_nodes shaped).sublist (List.filter_sublist.map _)

end RecordMapper.Proofs.LevelOrder
