import RecordMapper.Proofs.Documents
import RecordMapper.Schema.Tree

/-!
# Merging documents into a schema tree

Merging a document changes the node at each location of the document as if the value there were
merged into that node alone, and no other node. Main statements: `follow_addDocument` for one
document and `follow_addAll` for any number of them; `shaped_addDocument` for the invariant that
children stand under segments of their own and at the path that leads to them.
-/

namespace RecordMapper.Proofs.SchemaTree

open RecordMapper.SchemaNode RecordMapper.Proofs.Documents RecordMapper.Proofs.PathTexts

/-! ## Merging as one change for each value below -/

/-- The node with a value one step below merged into its child. -/
def grow (n : SchemaNode) (child : Segment × Json) : SchemaNode :=
  n.alter child.1 (addDocument child.2)

/-- The node with a value counted if the value is a scalar. -/
def tally (v : Json) (n : SchemaNode) : SchemaNode :=
  match Scalar.ofJson? v with
  | some s => n.addScalar s
  | none => n

theorem mergeMembers_eq (members : List (String × Json)) (n : SchemaNode) :
    mergeMembers members n = (members.map fun (k, v) => (Segment.key k, v)).foldl grow n := by
  induction members generalizing n with
  | nil => rw [mergeMembers, List.map_nil, List.foldl_nil]
  | cons m rest ih =>
    rw [mergeMembers, ih]
    rfl

theorem mergeItems_eq (i : Nat) (items : List Json) (n : SchemaNode) :
    mergeItems i items n = ((items.zipIdx i).map fun (v, i) => (Segment.index (toString i), v)).foldl grow n := by
  induction items generalizing i n with
  | nil => rw [mergeItems, List.zipIdx_nil, List.map_nil, List.foldl_nil]
  | cons v rest ih =>
    rw [mergeItems, ih]
    rfl

theorem merge_eq (v : Json) (n : SchemaNode) : merge v n = (below v).foldl grow (tally v n) := by
  cases v with
  | arr items =>
    rw [merge, mergeItems_eq]
    rfl
  | obj members =>
    rw [merge, mergeMembers_eq]
    rfl
  | _ =>
    rw [merge]
    rfl

/-! ## One child -/

/-- The node of a location that did not occur yet: an item if the last segment of the path is an index. -/
def fresh (path : Path) : SchemaNode := empty path (path.getLast?.any Segment.isIndex)

theorem fresh_concat (path : Path) (s : Segment) : fresh (path ++ [s]) = empty (path ++ [s]) s.isIndex := by
  rw [fresh, List.getLast?_concat, Option.any_some]

theorem fresh_root : fresh Path.root = root := rfl

section

variable {path : Path} {s : Segment} {f : SchemaNode → SchemaNode} {children : List (Segment × SchemaNode)}

theorem lookup_alterChild_self :
    (alterChild path s f children).lookup s = some (f ((children.lookup s).getD (fresh (path ++ [s])))) := by
  induction children with
  | nil => simp [alterChild, fresh_concat]
  | cons c rest ih =>
    obtain ⟨t, n⟩ := c
    by_cases same : t = s
    · simp [alterChild, same]
    · have other : (s == t) = false := by simpa using Ne.symm same
      simp [alterChild, same, List.lookup_cons, other, ih]

theorem lookup_alterChild_of_ne {t : Segment} (other : t ≠ s) :
    (alterChild path s f children).lookup t = children.lookup t := by
  induction children with
  | nil =>
    have unequal : (t == s) = false := by simpa using other
    simp [alterChild, List.lookup_cons, unequal]
  | cons c rest ih =>
    obtain ⟨u, n⟩ := c
    by_cases same : u = s
    · have unequal : (t == s) = false := by simpa using other
      simp [alterChild, same, List.lookup_cons, unequal]
    · simp only [alterChild, if_neg same, List.lookup_cons, ih]

theorem segments_alterChild :
    (alterChild path s f children).map (·.1) =
      if s ∈ children.map (·.1) then children.map (·.1) else children.map (·.1) ++ [s] := by
  induction children with
  | nil => simp [alterChild]
  | cons c rest ih =>
    obtain ⟨t, n⟩ := c
    by_cases same : t = s
    · simp [alterChild, same]
    · simp only [alterChild, if_neg same, List.map_cons, ih, List.mem_cons, Ne.symm same, false_or]
      split <;> rfl

/-- A child of a changed node stood there before, or is the changed child. -/
theorem mem_alterChild {c : Segment × SchemaNode} (member : c ∈ alterChild path s f children) :
    c ∈ children ∨ ∃ old, c = (s, f old) ∧ ((s, old) ∈ children ∨ old = fresh (path ++ [s])) := by
  induction children with
  | nil =>
    obtain rfl := List.mem_singleton.mp member
    exact .inr ⟨_, rfl, .inr (fresh_concat path s).symm⟩
  | cons d rest ih =>
    obtain ⟨t, n⟩ := d
    rw [alterChild] at member
    by_cases same : t = s
    · rw [if_pos same] at member
      rcases List.mem_cons.mp member with rfl | later
      · exact .inr ⟨n, by rw [same], .inl (by simp [same])⟩
      · exact .inl (List.mem_cons_of_mem _ later)
    · rw [if_neg same] at member
      rcases List.mem_cons.mp member with rfl | later
      · exact .inl List.mem_cons_self
      · rcases ih later with there | ⟨old, equal, before⟩
        · exact .inl (List.mem_cons_of_mem _ there)
        · exact .inr ⟨old, equal, before.imp_left (List.mem_cons_of_mem _)⟩

end

/-! ## All children -/

theorem grown_fields (children : List (Segment × Json)) (n : SchemaNode) :
    children.foldl grow n = { n with children := (children.foldl grow n).children } := by
  induction children generalizing n with
  | nil => cases n; rfl
  | cons c rest ih => exact ih (grow n c)

/-- Under segments that are all different, each child gets the one value that stands below it. -/
theorem lookup_grown {children : List (Segment × Json)} (distinct : (children.map (·.1)).Nodup)
    (n : SchemaNode) (s : Segment) :
    (children.foldl grow n).children.lookup s =
      match children.lookup s with
      | some v => some (((n.children.lookup s).getD (fresh (n.path ++ [s]))).addDocument v)
      | none => n.children.lookup s := by
  induction children generalizing n with
  | nil => rfl
  | cons c rest ih =>
    obtain ⟨t, v⟩ := c
    rw [List.map_cons, List.nodup_cons] at distinct
    rw [List.foldl_cons, ih distinct.2, List.lookup_cons]
    by_cases same : s = t
    · subst same
      have later : rest.lookup s = none := by
        rw [List.lookup_eq_none_iff]
        intro other member
        refine bne_iff_ne.mpr ?_
        rintro rfl
        exact distinct.1 (List.mem_map.mpr ⟨other, member, rfl⟩)
      rw [later, beq_self_eq_true]
      exact lookup_alterChild_self
    · have kept : (grow n (t, v)).children.lookup s = n.children.lookup s := lookup_alterChild_of_ne same
      have unequal : (s == t) = false := by simpa using same
      rw [unequal, kept]
      rfl

theorem tally_fields (v : Json) (n : SchemaNode) : tally v n = { n with values := (tally v n).values } := by
  cases n
  rw [tally]
  split <;> rfl

/-- A document leaves a node at its place and under its name; it changes what was counted at it and below it. -/
theorem addDocument_fields (d : Json) (n : SchemaNode) :
    n.addDocument d = { n with
      times := n.times + 1, values := (tally d n).values, children := (n.addDocument d).children } := by
  have seen : (tally d n.seen).values = (tally d n).values := by
    rw [tally, tally]
    split <;> rfl
  rw [addDocument, merge_eq, grown_fields, tally_fields, seen]
  rfl

theorem path_addDocument (d : Json) (n : SchemaNode) : (n.addDocument d).path = n.path := by
  rw [addDocument_fields]

theorem values_addDocument (d : Json) (n : SchemaNode) : (n.addDocument d).values = (tally d n).values := by
  rw [addDocument_fields]

theorem name_addDocument (d : Json) (n : SchemaNode) :
    (n.addDocument d).key = n.key ∧ (n.addDocument d).isArrayElement = n.isArrayElement := by
  rw [addDocument_fields]
  exact ⟨rfl, rfl⟩

theorem lookup_addDocument {d : Json} (proper : Proper d) (n : SchemaNode) (s : Segment) :
    (n.addDocument d).children.lookup s =
      match (below d).lookup s with
      | some v => some (((n.children.lookup s).getD (fresh (n.path ++ [s]))).addDocument v)
      | none => n.children.lookup s := by
  rw [addDocument, merge_eq, lookup_grown (distinct_below proper), tally_fields]
  rfl

/-! ## The shape of a tree -/

/-- Trees in which children stand under segments that are all different, each at the path that
leads to it. -/
inductive Shaped : SchemaNode → Prop
  | node {n : SchemaNode} : (n.children.map (·.1)).Nodup → (∀ c ∈ n.children, c.2.path = n.path ++ [c.1]) →
      (∀ c ∈ n.children, Shaped c.2) → Shaped n

section

variable {n : SchemaNode}

theorem Shaped.distinct : Shaped n → (n.children.map (·.1)).Nodup
  | .node distinct _ _ => distinct

theorem Shaped.path_child : Shaped n → ∀ c ∈ n.children, c.2.path = n.path ++ [c.1]
  | .node _ paths _ => paths

theorem Shaped.child : Shaped n → ∀ c ∈ n.children, Shaped c.2
  | .node _ _ inside => inside

theorem Shaped.lookup_iff (shaped : Shaped n) (s : Segment) (c : SchemaNode) :
    n.children.lookup s = some c ↔ (s, c) ∈ n.children := lookup_iff_mem shaped.distinct s c

end

theorem shaped_fresh (path : Path) : Shaped (fresh path) :=
  .node List.nodup_nil (List.forall_mem_nil _) (List.forall_mem_nil _)

/-- Changing a child keeps the shape if the change keeps the shape and the path of every node. -/
theorem shaped_alter {n : SchemaNode} {s : Segment} {f : SchemaNode → SchemaNode} (shaped : Shaped n)
    (kept : ∀ c, Shaped c → Shaped (f c) ∧ (f c).path = c.path) : Shaped (n.alter s f) := by
  have changed : ∀ c ∈ alterChild n.path s f n.children, c.2.path = n.path ++ [c.1] ∧ Shaped c.2 := by
    intro c member
    rcases mem_alterChild member with there | ⟨old, rfl, there | rfl⟩
    · exact ⟨shaped.path_child c there, shaped.child c there⟩
    · have altered := kept old (shaped.child _ there)
      exact ⟨altered.2.trans (shaped.path_child _ there), altered.1⟩
    · have fresh := kept _ (shaped_fresh (n.path ++ [s]))
      exact ⟨fresh.2, fresh.1⟩
  refine .node ?_ (fun c member => (changed c member).1) (fun c member => (changed c member).2)
  rw [alter, segments_alterChild]
  by_cases there : s ∈ n.children.map (·.1)
  · rw [if_pos there]
    exact shaped.distinct
  · rw [if_neg there]
    refine List.nodup_append.mpr ⟨shaped.distinct, List.nodup_singleton s, ?_⟩
    rintro t earlier u last rfl
    exact there (List.mem_singleton.mp last ▸ earlier)

theorem sizeOf_below {v w : Json} {s : Segment} (member : (s, w) ∈ below v) : sizeOf w < sizeOf v := by
  cases v with
  | arr items =>
    obtain ⟨i, _, found⟩ := (mem_below_arr _ _ _).mp member
    have smaller := List.sizeOf_lt_of_mem (List.mem_of_getElem? found)
    simp only [Json.arr.sizeOf_spec]
    omega
  | obj members =>
    obtain ⟨key, _, found⟩ := (mem_below_obj _ _ _).mp member
    have smaller := List.sizeOf_lt_of_mem found
    simp only [Prod.mk.sizeOf_spec] at smaller
    simp only [Json.obj.sizeOf_spec]
    omega
  | _ => simp [below] at member

private theorem kept_grown {P : SchemaNode → Prop}
    (altered : ∀ n s f, P n → Written s → (∀ c, P c → P (f c) ∧ (f c).path = c.path) → P (n.alter s f))
    {children : List (Segment × Json)} {n : SchemaNode} (start : P n) (written : ∀ c ∈ children, Written c.1)
    (kept : ∀ c ∈ children, ∀ m, P m → P (m.addDocument c.2)) : P (children.foldl grow n) := by
  induction children generalizing n with
  | nil => exact start
  | cons c rest ih =>
    obtain ⟨first, later⟩ := List.forall_mem_cons.mp written
    obtain ⟨keptFirst, keptLater⟩ := List.forall_mem_cons.mp kept
    refine ih (altered n c.1 _ start first fun m ready => ?_) later keptLater
    exact ⟨keptFirst m ready, path_addDocument c.2 m⟩

/-- Merging a document keeps what does not depend on counts and is kept when a child is changed by a change that
keeps it. -/
theorem addDocument_induction {P : SchemaNode → Prop}
    (recounted : ∀ n n', P n → n'.path = n.path → n'.children = n.children → P n')
    (altered : ∀ n s f, P n → Written s → (∀ c, P c → P (f c) ∧ (f c).path = c.path) → P (n.alter s f))
    (d : Json) {n : SchemaNode} (start : P n) : P (n.addDocument d) := by
  have counted : P (tally d n.seen) := by
    rw [tally_fields]
    exact recounted n _ start rfl rfl
  rw [addDocument, merge_eq]
  exact kept_grown altered counted (fun c member => written_below member)
    fun c member m ready =>
      have := sizeOf_below member
      addDocument_induction recounted altered c.2 ready
termination_by sizeOf d

theorem shaped_addDocument (d : Json) {n : SchemaNode} (shaped : Shaped n) : Shaped (n.addDocument d) := by
  refine addDocument_induction ?_ (fun n s f shaped _ => shaped_alter shaped) d shaped
  intro n n' shaped path children
  refine .node ?_ ?_ ?_
  · exact children ▸ shaped.distinct
  · rw [path, children]
    exact shaped.path_child
  · exact children ▸ shaped.child

/-! ## The node at a location -/

theorem path_of_follow {n m : SchemaNode} {ss : List Segment} (shaped : Shaped n) (found : follow ss n = some m) :
    m.path = n.path ++ ss := by
  induction ss generalizing n with
  | nil =>
    obtain rfl := Option.some.inj found
    rw [List.append_nil]
  | cons s rest ih =>
    rw [follow, Option.bind_eq_some_iff] at found
    obtain ⟨c, child, found⟩ := found
    have member := (shaped.lookup_iff s c).mp child
    rw [ih (shaped.child _ member) found, shaped.path_child _ member, List.append_assoc, List.singleton_append]

theorem shaped_of_follow {n m : SchemaNode} {ss : List Segment} (shaped : Shaped n) (found : follow ss n = some m) :
    Shaped m := by
  induction ss generalizing n with
  | nil =>
    obtain rfl := Option.some.inj found
    exact shaped
  | cons s rest ih =>
    rw [follow, Option.bind_eq_some_iff] at found
    obtain ⟨c, child, found⟩ := found
    exact ih (shaped.child _ ((shaped.lookup_iff s c).mp child)) found

theorem follow_concat (ss : List Segment) (s : Segment) (n : SchemaNode) :
    follow (ss ++ [s]) n = (follow ss n).bind fun m => m.children.lookup s := by
  induction ss generalizing n with
  | nil => simp [follow]
  | cons t rest ih =>
    rw [List.cons_append, follow, follow]
    cases n.children.lookup t with
    | none => rfl
    | some c => exact ih c

/-- A document changes the node at a location as the value there would change that node alone. -/
theorem follow_addDocument {d : Json} (proper : Proper d) {n : SchemaNode} (shaped : Shaped n) (ss : List Segment) :
    follow ss (n.addDocument d) =
      match locate ss d with
      | some v => some (((follow ss n).getD (fresh (n.path ++ ss))).addDocument v)
      | none => follow ss n := by
  -- the document and the tree are followed down together, one segment at a time
  induction ss generalizing d n with
  | nil => rfl
  | cons s rest ih =>
    rw [follow, follow, locate, lookup_addDocument proper]
    cases child : (below d).lookup s with
    | none => rfl
    | some v =>
      have below := proper_below proper ((lookup_below_iff proper _ _).mp child)
      -- the child is there already or is made first, at the same path
      cases there : n.children.lookup s with
      | none =>
        have step := ih below (shaped_fresh (n.path ++ [s]))
        rw [Option.getD_none, Option.bind_some, step, Option.bind_some, Option.bind_none]
        cases rest with
        | nil => rfl
        | cons t tail =>
          have path : (fresh (n.path ++ [s])).path ++ t :: tail = n.path ++ s :: t :: tail :=
            List.append_assoc n.path [s] (t :: tail)
          rw [path]
          rfl
      | some c =>
        have member := (shaped.lookup_iff s c).mp there
        rw [Option.getD_some, Option.bind_some, ih below (shaped.child _ member), Option.bind_some,
          Option.bind_some, shaped.path_child _ member, List.append_assoc, List.singleton_append]

/-- The node with documents merged into it, one after the other. -/
def addAll (ds : List Json) (n : SchemaNode) : SchemaNode := ds.foldl (fun n d => n.addDocument d) n

theorem path_addAll (ds : List Json) (n : SchemaNode) : (addAll ds n).path = n.path := by
  induction ds generalizing n with
  | nil => rfl
  | cons d rest ih => exact (ih _).trans (path_addDocument d n)

theorem name_addAll (ds : List Json) (n : SchemaNode) :
    (addAll ds n).key = n.key ∧ (addAll ds n).isArrayElement = n.isArrayElement := by
  induction ds generalizing n with
  | nil => exact ⟨rfl, rfl⟩
  | cons d rest ih =>
    obtain ⟨key, item⟩ := name_addDocument d n
    exact ⟨(ih _).1.trans key, (ih _).2.trans item⟩

theorem shaped_addAll (ds : List Json) {n : SchemaNode} (shaped : Shaped n) : Shaped (addAll ds n) := by
  induction ds generalizing n with
  | nil => exact shaped
  | cons d rest ih => exact ih (shaped_addDocument d shaped)

/-- The node at a location is made of exactly the values that the documents have there, in order. -/
theorem follow_addAll {ds : List Json} (proper : ∀ d ∈ ds, Proper d) {n : SchemaNode} (shaped : Shaped n)
    (ss : List Segment) :
    follow ss (addAll ds n) =
      match ds.filterMap (locate ss) with
      | [] => follow ss n
      | v :: rest => some (addAll (v :: rest) ((follow ss n).getD (fresh (n.path ++ ss)))) := by
  induction ds generalizing n with
  | nil => rfl
  | cons d rest ih =>
    have later := ih (fun e member => proper e (List.mem_cons_of_mem d member)) (shaped_addDocument d shaped)
    have first := follow_addDocument (proper d List.mem_cons_self) shaped ss
    rw [addAll, List.foldl_cons, ← addAll, later, first, path_addDocument, List.filterMap_cons]
    cases locate ss d with
    | none => rfl
    | some v => cases rest.filterMap (locate ss) <;> rfl

/-! ## All nodes -/

private theorem shaped_queue {s : Segment} {n : SchemaNode} {queue : List (Segment × SchemaNode)}
    (shaped : ∀ c ∈ (s, n) :: queue, Shaped c.2) : ∀ c ∈ queue ++ n.children, Shaped c.2 := by
  intro c member
  rcases List.mem_append.mp member with queued | child
  · exact shaped c (List.mem_cons_of_mem _ queued)
  · exact (shaped (s, n) List.mem_cons_self).child c child

theorem mem_breadthFirst_iff {queue : List (Segment × SchemaNode)} (shaped : ∀ c ∈ queue, Shaped c.2)
    (m : SchemaNode) : m ∈ breadthFirst queue ↔ ∃ c ∈ queue, ∃ ss, follow ss c.2 = some m := by
  fun_induction breadthFirst queue with
  | case1 => simp
  | case2 s n queue ih =>
    have root : Shaped n := shaped (s, n) List.mem_cons_self
    rw [List.mem_cons, ih (shaped_queue shaped)]
    constructor
    · rintro (rfl | ⟨c, member, ss, found⟩)
      · exact ⟨(s, m), List.mem_cons_self, [], rfl⟩
      · rcases List.mem_append.mp member with queued | child
        · exact ⟨c, List.mem_cons_of_mem _ queued, ss, found⟩
        · refine ⟨(s, n), List.mem_cons_self, c.1 :: ss, ?_⟩
          rw [follow, (root.lookup_iff c.1 c.2).mpr child]
          exact found
    · rintro ⟨c, member, ss, found⟩
      rcases List.mem_cons.mp member with rfl | queued
      · cases ss with
        | nil => exact .inl (Option.some.inj found).symm
        | cons t rest =>
          rw [follow, Option.bind_eq_some_iff] at found
          obtain ⟨child, there, found⟩ := found
          have member := (root.lookup_iff t child).mp there
          exact .inr ⟨(t, child), List.mem_append_right _ member, rest, found⟩
      · exact .inr ⟨c, List.mem_append_left _ queued, ss, found⟩

/-- Neither of two nodes stands at the other or below it. -/
def Apart (a b : Segment × SchemaNode) : Prop := ¬ a.2.path <+: b.2.path ∧ ¬ b.2.path <+: a.2.path

private theorem apart_children {n : SchemaNode} (shaped : Shaped n) : n.children.Pairwise Apart := by
  have separate : ∀ a ∈ n.children, ∀ b ∈ n.children, a.1 ≠ b.1 → ¬ a.2.path <+: b.2.path := by
    intro a first b second different prefixed
    rw [shaped.path_child a first, shaped.path_child b second] at prefixed
    have equal := prefixed.eq_of_length (by simp)
    exact different (List.singleton_inj.mp (List.append_cancel_left equal))
  have different : n.children.Pairwise fun a b => a.1 ≠ b.1 := List.pairwise_map.mp shaped.distinct
  refine different.imp_of_mem fun first second unequal => ?_
  exact ⟨separate _ first _ second unequal, separate _ second _ first unequal.symm⟩

private theorem apart_child {n : SchemaNode} {s : Segment} {c d : Segment × SchemaNode} (apart : Apart (s, n) c)
    (child : d.2.path = n.path ++ [d.1]) : Apart c d := by
  constructor
  · intro prefixed
    rw [child] at prefixed
    rcases List.prefix_concat_iff.mp prefixed with equal | shorter
    · exact apart.1 (equal ▸ List.prefix_append _ _)
    · exact apart.2 shorter
  · intro prefixed
    rw [child] at prefixed
    exact apart.1 ((List.prefix_append _ _).trans prefixed)

/-- No two nodes of the trees in a queue stand at the same path. -/
theorem nodup_breadthFirst {queue : List (Segment × SchemaNode)} (shaped : ∀ c ∈ queue, Shaped c.2)
    (apart : queue.Pairwise Apart) : ((breadthFirst queue).map (·.path)).Nodup := by
  fun_induction breadthFirst queue with
  | case1 => exact List.nodup_nil
  | case2 s n queue ih =>
    have root : Shaped n := shaped (s, n) List.mem_cons_self
    have ready := shaped_queue shaped
    obtain ⟨first, others⟩ := List.pairwise_cons.mp apart
    have separate : (queue ++ n.children).Pairwise Apart :=
      List.pairwise_append.mpr ⟨others, apart_children root, fun c queued d child =>
        apart_child (first c queued) (root.path_child d child)⟩
    rw [List.map_cons, List.nodup_cons]
    refine ⟨fun repeated => ?_, ih ready separate⟩
    -- a node further on stands below one of the queue or below a child, never at the first node
    obtain ⟨m, member, path⟩ := List.mem_map.mp repeated
    obtain ⟨c, waiting, ss, found⟩ := (mem_breadthFirst_iff ready m).mp member
    have prefixed : c.2.path <+: n.path := ⟨ss, (path_of_follow (ready c waiting) found).symm.trans path⟩
    rcases List.mem_append.mp waiting with queued | child
    · exact (first c queued).2 prefixed
    · have shorter := prefixed.length_le
      rw [root.path_child c child, List.length_append, List.length_singleton] at shorter
      exact absurd shorter (Nat.not_succ_le_self _)

/-- The nodes of a tree, level by level. -/
def nodes (n : SchemaNode) : List SchemaNode := breadthFirst [(Segment.root, n)]

theorem mem_nodes_iff {n : SchemaNode} (shaped : Shaped n) (m : SchemaNode) :
    m ∈ nodes n ↔ ∃ ss, follow ss n = some m := by
  rw [nodes, mem_breadthFirst_iff (by simpa using shaped)]
  simp

theorem nodup_nodes {n : SchemaNode} (shaped : Shaped n) : ((nodes n).map (·.path)).Nodup :=
  nodup_breadthFirst (by simpa using shaped) (List.pairwise_singleton _ _)

end RecordMapper.Proofs.SchemaTree
