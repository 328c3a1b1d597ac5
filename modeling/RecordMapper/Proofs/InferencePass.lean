import Mathlib.Algebra.BigOperators.Group.List.Basic
import RecordMapper.Proofs.Runs

/-!
# The pass that infers backlinks

Rules and the links that records hold before the pass say which backlinks each record is asked to
hold (`asked`). The pass puts behind the entries of a record those of them that it lacks, each once
and in the order in which they are asked for, and does nothing else (`inferBacklinks_one_pass`). What
is asked is settled before anything is added, so no backlink leads to another.
-/

namespace RecordMapper.Proofs.InferencePass
open RecordMapper.Run RecordMapper.Proofs.Runs

/-- The entry of a backlink: a key and the id of the record that links. -/
def entryOf (link : String × String) : Entry := ⟨link.1, .text link.2⟩

/-- The backlinks that the record of an id is asked to hold: for each record in order, those of each
rule in order that targets the id and whose condition the record meets. -/
def asked (records : List Record) (rules : List Rule) (id : String) : List (String × String) :=
  records.flatMap fun s =>
    (rules.filter fun rule => rule.target = id ∧ s.holds ⟨rule.forward, .text rule.receiver⟩ = true).map
      fun rule => (rule.backward, s.id)

/-- The backlinks that a record is asked to hold and lacks, at their first places. -/
def gained (records : List Record) (rules : List Rule) (r : Record) : List (String × String) :=
  ((asked records rules r.id).filter fun link => r.lacks (entryOf link)).eraseDups

theorem mem_asked {records : List Record} {rules : List Rule} {id : String} {link : String × String} :
    link ∈ asked records rules id ↔
      ∃ s ∈ records, ∃ rule ∈ rules, rule.target = id ∧ s.holds ⟨rule.forward, .text rule.receiver⟩ = true ∧
        link = (rule.backward, s.id) := by
  simp only [asked, List.mem_flatMap, List.mem_map, List.mem_filter, decide_eq_true_eq]
  constructor
  · rintro ⟨s, member, rule, ⟨inForce, target, met⟩, rfl⟩
    exact ⟨s, member, rule, inForce, target, met, rfl⟩
  · rintro ⟨s, member, rule, inForce, target, met, rfl⟩
    exact ⟨s, member, rule, ⟨inForce, target, met⟩, rfl⟩

/-- The links that are collected bring to a record exactly what it is asked to hold, in order. -/
theorem received_links (records : List Record) (rules : List Rule) (id : String) :
    received (links records rules) id = (asked records rules id).map entryOf := by
  rw [received, links, List.filter_flatMap, List.map_flatMap, asked, List.map_flatMap]
  refine List.flatMap_congr fun s _ => ?_
  rw [List.filter_map, List.filter_filter, List.map_map, List.map_map]
  refine congrArg (List.map _) (List.filter_congr fun rule _ => ?_)
  simp [meets]

/-! ## One record -/

private theorem entryOf_same_iff (x y : String × String) : (entryOf x).same (entryOf y) = true ↔ x = y := by
  rw [Sameness.entry_same_iff, entryOf, entryOf, Prod.ext_iff]
  simp [Atom.same]

/-- Repetitions may be dropped before a map as well as behind it. -/
private theorem eraseDupsBy_map {α β : Type} (f : α → β) (same : β → β → Bool) (xs : List α) :
    (xs.map f).eraseDupsBy same = (xs.eraseDupsBy fun x y => same (f x) (f y)).map f := by
  cases xs with
  | nil => simp
  | cons x rest =>
    rw [List.map_cons, List.eraseDupsBy_cons, List.filter_map, eraseDupsBy_map f same, List.eraseDupsBy_cons,
      List.map_cons]
    rfl
termination_by xs.length
decreasing_by exact Nat.lt_succ_of_le (List.length_filter_le _ _)

/-- Entries that come one after the other leave those that were lacked, each at its first place. -/
theorem addEntries_entryOf (r : Record) (ls : List (String × String)) :
    r.addEntries (ls.map entryOf) =
      { r with entries := r.entries ++ ((ls.filter fun l => r.lacks (entryOf l)).eraseDups).map entryOf } := by
  have equal : (fun x y => (entryOf x).same (entryOf y)) = fun x y => x == y := by
    funext x y
    rw [Bool.eq_iff_iff, entryOf_same_iff, beq_iff_eq]
  rw [addEntries_eq, List.filter_map, eraseDupsBy_map, equal]
  rfl

theorem nodup_eraseDups {α : Type} [BEq α] [LawfulBEq α] (xs : List α) : xs.eraseDups.Nodup := by
  cases xs with
  | nil => simp
  | cons x rest =>
    rw [List.eraseDups_cons, List.nodup_cons]
    refine ⟨?_, nodup_eraseDups _⟩
    simp [List.mem_eraseDups]
termination_by xs.length
decreasing_by
  have shorter := List.length_filter_le (fun y => !y == x) rest
  simp only [List.length_cons]
  omega

theorem mem_gained {records : List Record} {rules : List Rule} {r : Record} {link : String × String} :
    link ∈ gained records rules r ↔ r.holds (entryOf link) = false ∧ link ∈ asked records rules r.id := by
  rw [gained, List.mem_eraseDups, List.mem_filter, Record.lacks, Bool.not_eq_true', and_comm]

/-! ## The count -/

/-- The number of all entries of records. -/
def size (rs : List Record) : Nat := (rs.flatMap (·.entries)).length

private theorem size_cons (r : Record) (rs : List Record) : size (r :: rs) = r.entries.length + size rs := by
  rw [size, size, List.flatMap_cons, List.length_append]

private theorem size_addLink (link : Link) (rs : List Record) :
    size (addLink link rs).1 = size rs + if (addLink link rs).2 then 1 else 0 := by
  induction rs with
  | nil => rfl
  | cons r rest ih =>
    rw [addLink]
    by_cases here : r.id = link.receiver
    · rw [if_pos here, size_cons, size_cons, Record.entries_addEntry]
      cases r.holds link.entry with
      | true => simp
      | false => simp; omega
    · rw [if_neg here, size_cons, size_cons, ih, Nat.add_assoc]

/-- The count of new entries is the growth of all records together. -/
theorem size_addLinks (ls : List Link) (rs : List Record) :
    size (addLinks ls rs).1 = size rs + (addLinks ls rs).2 := by
  have general : ∀ (ls : List Link) (counted : List Record × Nat),
      size (ls.foldl addCounted counted).1 + counted.2 = size counted.1 + (ls.foldl addCounted counted).2 := by
    intro ls
    induction ls with
    | nil => exact fun _ => rfl
    | cons link rest ih =>
      intro counted
      have later := ih (addCounted counted link)
      have grown := size_addLink link counted.1
      rw [List.foldl_cons]
      unfold addCounted at later grown ⊢
      split_ifs at later grown ⊢ <;> simp only at later ⊢ <;> omega
  have all := general ls (rs, 0)
  rw [← addLinks_eq] at all
  exact all

/-! ## All records -/

/-- Each record gains behind its entries the backlinks that it is asked to hold and lacks. -/
theorem records_inferBacklinks {records : List Record} (distinct : DistinctIds records) (rules : List Rule) :
    (inferBacklinks records rules).1 =
      records.map fun r => { r with entries := r.entries ++ (gained records rules r).map entryOf } := by
  rw [inferBacklinks, records_addLinks distinct]
  refine List.map_congr_left fun r _ => ?_
  rw [received_links, addEntries_entryOf, gained]

theorem nodup_gained (records : List Record) (rules : List Rule) (r : Record) : (gained records rules r).Nodup :=
  nodup_eraseDups _

/-- Of records with distinct ids, each keeps its place, its id and its persistent identifier and
gains behind its entries the backlinks that it is asked to hold and lacks; they are counted. Each of
them comes once, and asked for are those of the rules that target the record, for the links that
records held before the pass. -/
theorem inferBacklinks_one_pass {records : List Record} (distinct : DistinctIds records) (rules : List Rule) :
    inferBacklinks records rules =
      (records.map fun r => { r with entries := r.entries ++ (gained records rules r).map entryOf },
        (records.flatMap (gained records rules)).length) ∧
    ∀ r ∈ records, (gained records rules r).Nodup ∧
      ∀ link, link ∈ gained records rules r ↔ r.holds (entryOf link) = false ∧
        ∃ s ∈ records, ∃ rule ∈ rules, rule.target = r.id ∧ s.holds ⟨rule.forward, .text rule.receiver⟩ = true ∧
          link = (rule.backward, s.id) := by
  have extended := records_inferBacklinks distinct rules
  have counted : (inferBacklinks records rules).2 = (records.flatMap (gained records rules)).length := by
    have grown : size (inferBacklinks records rules).1 = size records + (inferBacklinks records rules).2 :=
      size_addLinks _ _
    rw [extended, size, size] at grown
    simp only [List.flatMap_map, List.length_flatMap, List.length_append, List.length_map, List.sum_map_add]
      at grown ⊢
    omega
  refine ⟨Prod.ext extended counted, fun r _ => ⟨nodup_gained records rules r, fun link => ?_⟩⟩
  rw [mem_gained, mem_asked]

/-- A record that links to itself, twice to another one, and to one that is not there. -/
def linked : List Record :=
  [⟨"A", some "21/a", [⟨"cites", .text "B"⟩, ⟨"cites", .text "A"⟩, ⟨"cites", .text "C"⟩, ⟨"quotes", .text "B"⟩]⟩,
    ⟨"B", none, []⟩]

/-- Rules of which the last would apply to what the second adds. -/
def linkRules : List Rule :=
  [⟨"cites", "B", "B", "citedBy"⟩, ⟨"cites", "A", "A", "citedBy"⟩, ⟨"cites", "C", "C", "citedBy"⟩,
    ⟨"quotes", "B", "B", "citedBy"⟩, ⟨"citedBy", "A", "A", "knownBy"⟩]

/-- The link to itself and the repeated link are added once, and neither leads to another. -/
theorem linked_once :
    DistinctIds linked ∧ inferBacklinks linked linkRules =
      ([⟨"A", some "21/a", [⟨"cites", .text "B"⟩, ⟨"cites", .text "A"⟩, ⟨"cites", .text "C"⟩, ⟨"quotes", .text "B"⟩,
          ⟨"citedBy", .text "A"⟩]⟩,
        ⟨"B", none, [⟨"citedBy", .text "A"⟩]⟩], 2) := by
  have distinct : DistinctIds linked := by simp [DistinctIds, linked]
  exact ⟨distinct, (inferBacklinks_one_pass distinct linkRules).1⟩

end RecordMapper.Proofs.InferencePass
