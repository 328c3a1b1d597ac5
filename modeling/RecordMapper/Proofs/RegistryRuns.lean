import Mathlib.Data.List.Induction
import Mathlib.Data.List.Perm.Subperm
import RecordMapper.Proofs.SchemaCounts

/-!
# Runs of a registry

A registry is used by calls that add a document or discard all of them. What holds of the registry without
documents and is kept by each call holds after any calls (`after_induction`), and a run leaves nothing of what
came before its last reset (`after_eq`). No name is given twice: a name that is taken has more numbered forms
to try than there are names (`freeName_not_mem`).
-/

namespace RecordMapper.Proofs.RegistryRuns
open RecordMapper.Registry RecordMapper.Proofs.SchemaTree RecordMapper.Proofs.SchemaCounts

/-! ## Calls -/

/-- A call on a registry. -/
inductive Call where
  | process (name : String) (document : Json)
  | reset

/-- The registry after a call. -/
def Call.perform (r : Registry) : Call → Registry
  | .process name document => (r.process name document).1
  | .reset => .empty

/-- The registry after calls on one without documents. -/
def after (calls : List Call) : Registry := calls.foldl Call.perform .empty

/-- The documents kept after a call, each with the name it came with. -/
def Call.keep (documents : List (String × Json)) : Call → List (String × Json)
  | .process name document => documents ++ [(name, document)]
  | .reset => []

/-- The documents that came since the last reset, each with the name it came with. -/
def sinceReset (calls : List Call) : List (String × Json) := calls.foldl Call.keep []

theorem after_induction {P : Registry → Prop} (start : P .empty)
    (step : ∀ (r : Registry) (c : Call), P r → P (c.perform r)) (calls : List Call) : P (after calls) := by
  induction calls using List.reverseRecOn with
  | nil => exact start
  | append_singleton earlier c ih =>
    rw [after, List.foldl_append]
    exact step _ c ih

theorem perform_registered (documents : List (String × Json)) (c : Call) :
    c.perform (registered documents) = registered (c.keep documents) := by
  cases c with
  | process name document =>
    simp only [Call.perform, Call.keep, registered, List.foldl_append, List.foldl_cons, List.foldl_nil]
  | reset => rfl

/-- The calls before the last reset leave nothing behind. -/
theorem after_eq (calls : List Call) : after calls = registered (sinceReset calls) := by
  induction calls using List.reverseRecOn with
  | nil => rfl
  | append_singleton earlier c ih =>
    have performed : after (earlier ++ [c]) = c.perform (after earlier) := by
      simp only [after, List.foldl_append, List.foldl_cons, List.foldl_nil]
    have kept : sinceReset (earlier ++ [c]) = c.keep (sinceReset earlier) := by
      simp only [sinceReset, List.foldl_append, List.foldl_cons, List.foldl_nil]
    rw [performed, kept, ih, perform_registered]

theorem tree_after (calls : List Call) :
    (after calls).tree = addAll ((sinceReset calls).map (·.2)) SchemaNode.root := by
  rw [after_eq, tree_registered]

/-! ## Names -/

theorem numbered_injective (name : String) : Function.Injective (numbered name) := by
  intro i j same
  simp only [numbered, ← String.toList_inj, String.toList_append] at same
  have ends := List.append_cancel_right same
  have digits := List.append_cancel_left ends
  exact PathTexts.toString_injective (String.toList_inj.mp digits)

theorem numbered_ne (name : String) (i : Nat) : numbered name i ≠ name := by
  intro same
  have size := congrArg (fun s => s.toList.length) same
  simp [numbered] at size

/-- A name that is taken has no more numbered forms in a row, from the first on, that are taken too than there
are other names. -/
theorem lt_length_of_taken {taken : List String} {name : String} {n : Nat} (bare : name ∈ taken)
    (forms : ∀ i < n, numbered name (i + 1) ∈ taken) : n < taken.length := by
  have distinct : (name :: (List.range n).map fun i => numbered name (i + 1)).Nodup := by
    refine List.nodup_cons.mpr ⟨?_, List.nodup_range.map fun i j same => ?_⟩
    · intro inside
      obtain ⟨i, _, same⟩ := List.mem_map.mp inside
      exact numbered_ne name (i + 1) same
    · exact Nat.succ_injective (numbered_injective name same)
  have inside : name :: ((List.range n).map fun i => numbered name (i + 1)) ⊆ taken := by
    refine List.cons_subset.mpr ⟨bare, fun form member => ?_⟩
    obtain ⟨i, tried, rfl⟩ := List.mem_map.mp member
    exact forms i (List.mem_range.mp tried)
  have few := distinct.length_le_of_subset inside
  rw [List.length_cons, List.length_map, List.length_range] at few
  exact few

/-- The name that a document gets is not taken. -/
theorem freeName_not_mem (taken : List String) (name : String) : freeName taken name ∉ taken := by
  unfold freeName
  split
  · next bare =>
    split
    · next i found =>
      have free := List.find?_some found
      simpa using free
    · next none_free =>
      -- more numbered forms are tried than there are names
      exfalso
      rw [List.find?_eq_none] at none_free
      have forms : ∀ i < taken.length + 1, numbered name (i + 1) ∈ taken := by
        intro i tried
        simpa using none_free i (List.mem_range.mpr tried)
      have few := lt_length_of_taken bare forms
      omega
  · next free => exact free

theorem nodup_names_process (name : String) (document : Json) {r : Registry} (distinct : r.names.Nodup) :
    (r.process name document).1.names.Nodup := by
  rw [names_process, List.nodup_append]
  refine ⟨distinct, List.nodup_singleton _, ?_⟩
  rintro given earlier fresh last rfl
  rw [List.mem_singleton] at last
  subst last
  exact freeName_not_mem r.names name earlier

theorem nodup_names_after (calls : List Call) : (after calls).names.Nodup := by
  refine after_induction (P := fun r => r.names.Nodup) List.nodup_nil ?_ calls
  intro r c distinct
  cases c with
  | process name document => exact nodup_names_process name document distinct
  | reset => exact List.nodup_nil

/-- The tree counts one document for each name. -/
theorem length_names_after (calls : List Call) : (after calls).names.length = (after calls).count := by
  refine after_induction (P := fun r => r.names.length = r.count) rfl ?_ calls
  intro r c counted
  cases c with
  | process name document =>
    rw [Call.perform, count_process, names_process, List.length_append, List.length_singleton, counted]
  | reset => rfl

theorem count_after (calls : List Call) : (after calls).count = (sinceReset calls).length := by
  rw [Registry.count, tree_after, times_addAll, List.length_map]
  exact Nat.zero_add _

end RecordMapper.Proofs.RegistryRuns
