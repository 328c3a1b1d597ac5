import RecordMapper.Proofs.PathReading
import RecordMapper.Proofs.RegistryRuns

/-!
# Paths shown for nodes

A node is shown with the text of its path, and a text that is read leads back to that node and to no other
(`shown_path_found`). Keys may look like anything: what a text cannot carry is a path with an index without
digits, and the indices of a tree are the places of array items (`legible_addAll`).
-/

namespace RecordMapper.Proofs.ShownPaths
open RecordMapper.JsonPath RecordMapper.SchemaNode RecordMapper.Proofs.PathTexts RecordMapper.Proofs.PathReading
open RecordMapper.Proofs.Documents RecordMapper.Proofs.SchemaTree RecordMapper.Proofs.RegistryRuns

/-! ## Segments in a tree -/

/-- Trees in which all segments have a text of their own, however deep they stand. -/
def Legible (n : SchemaNode) : Prop := ∀ ss m, follow ss n = some m → ∀ s ∈ ss, Written s

theorem legible_fresh (path : Path) : Legible (fresh path) := by
  intro ss m found
  cases ss with
  | nil => exact List.forall_mem_nil _
  | cons s rest => cases found

theorem legible_of_children {n n' : SchemaNode} (legible : Legible n) (same : n'.children = n.children) :
    Legible n' := by
  intro ss m found
  cases ss with
  | nil => exact List.forall_mem_nil _
  | cons s rest =>
    rw [follow, same] at found
    exact legible (s :: rest) m found

theorem legible_child {n c : SchemaNode} {s : Segment} (legible : Legible n) (child : n.children.lookup s = some c) :
    Legible c := by
  intro ss m found
  have deeper : follow (s :: ss) n = some m := by rwa [follow, child]
  exact (List.forall_mem_cons.mp (legible (s :: ss) m deeper)).2

/-- Changing a child keeps a tree legible if the segment of the child is and the change keeps trees legible. -/
theorem legible_alter {n : SchemaNode} {s : Segment} {f : SchemaNode → SchemaNode} (legible : Legible n)
    (written : Written s) (kept : ∀ c, Legible c → Legible (f c)) : Legible (n.alter s f) := by
  intro ss m found
  cases ss with
  | nil => exact List.forall_mem_nil _
  | cons t rest =>
    rw [follow, alter] at found
    by_cases same : t = s
    · subst same
      rw [lookup_alterChild_self, Option.bind_some] at found
      have before : Legible ((n.children.lookup t).getD (fresh (n.path ++ [t]))) := by
        cases there : n.children.lookup t with
        | none => exact legible_fresh _
        | some c => exact legible_child legible there
      exact List.forall_mem_cons.mpr ⟨written, kept _ before rest m found⟩
    · rw [lookup_alterChild_of_ne same] at found
      exact legible (t :: rest) m found

theorem legible_addDocument (d : Json) {n : SchemaNode} (legible : Legible n) : Legible (n.addDocument d) := by
  refine addDocument_induction (fun n n' legible _ => legible_of_children legible) ?_ d legible
  intro n s f legible written kept
  exact legible_alter legible written fun c ready => (kept c ready).1

theorem legible_addAll (ds : List Json) {n : SchemaNode} (legible : Legible n) : Legible (addAll ds n) := by
  induction ds generalizing n with
  | nil => exact legible
  | cons d rest ih => exact ih (legible_addDocument d legible)

/-! ## Nodes of a registry -/

/-- The tree of a registry is legible, and each of its nodes stands at the path that leads to it. -/
theorem located_node (calls : List Call) {n : SchemaNode} (member : n ∈ nodes (after calls).tree) :
    Rooted n.path ∧ find? n.path (after calls).tree = some n := by
  have made := tree_after calls
  have shaped : Shaped (after calls).tree := made ▸ SchemaCounts.shaped_tree _
  have legible : Legible (after calls).tree := made ▸ legible_addAll _ (legible_fresh _)
  have top : (after calls).tree.path = Path.root := by
    rw [made, path_addAll]
    rfl
  obtain ⟨ss, found⟩ := (mem_nodes_iff shaped n).mp member
  have path : n.path = Segment.root :: ss := by
    rw [path_of_follow shaped found, top]
    rfl
  rw [path]
  exact ⟨⟨ss, rfl, legible ss n found⟩, found⟩

/-- After any calls on a registry, the text shown for a node of its tree is read as the path of the node, the
tree has the node itself at that path, and no two nodes are shown with one text. -/
theorem shown_path_found (calls : List Call) :
    (∀ n ∈ nodes (after calls).tree,
      parse (render n.path) = .ok n.path ∧ find? n.path (after calls).tree = some n) ∧
    ((nodes (after calls).tree).map fun n => render n.path).Nodup := by
  have shaped : Shaped (after calls).tree := tree_after calls ▸ SchemaCounts.shaped_tree _
  have read : ∀ n ∈ nodes (after calls).tree, parse (render n.path) = .ok n.path := fun n member =>
    parse_render (located_node calls member).1
  refine ⟨fun n member => ⟨read n member, (located_node calls member).2⟩, ?_⟩
  have texts : ((nodes (after calls).tree).map fun n => render n.path) =
      ((nodes (after calls).tree).map (·.path)).map render := by
    rw [List.map_map]
    rfl
  rw [texts]
  refine List.Nodup.map_on ?_ (nodup_nodes shaped)
  intro p first q second same
  obtain ⟨n, member, rfl⟩ := List.mem_map.mp first
  obtain ⟨m, member', rfl⟩ := List.mem_map.mp second
  -- one text is read as one path
  have once := read n member
  rw [same, read m member'] at once
  exact (Except.ok.inj once).symm

/-- Keys that look like an index, like the root and like a step in brackets, next to an array. -/
example :
    let tree := (after [.process "a" (.obj [("0", .null), ("$", .obj [("['a']", .null)])]),
      .process "b" (.arr [.arr []])]).tree
    (nodes tree).map (fun n => render n.path) = ["$", "$.0", "$.$", "$[0]", "$.$['[\\'a\\']']"] := by
  cbv

end RecordMapper.Proofs.ShownPaths
