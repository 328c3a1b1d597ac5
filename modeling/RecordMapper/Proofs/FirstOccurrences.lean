import Mathlib.Data.List.Induction
import RecordMapper.Proofs.WellFormedRecords

/-!
# What a record holds

A record is filled by calls that add an entry or a value. It holds what they offered, each entry where it first came
(`entries_of_calls`). A value offers its atoms, so an array offers what its parts do, however they are nested
(`offers_parts`), and adding is counted by how much the record grows (`growth_addEntries`).
-/

namespace RecordMapper.Proofs.FirstOccurrences
open RecordMapper.Record RecordMapper.Proofs.Runs RecordMapper.Proofs.WellFormedRecords

/-! ## Calls -/

/-- A call on a record: an entry as it is, or a value under a key. -/
inductive Call where
  | entry (e : Entry)
  | value (key : String) (v : Json)

/-- The record after a call. -/
def Call.perform (r : Record) : Call → Record
  | .entry e => r.addEntry e
  | .value key v => r.addValue key v

/-- How many entries a call says are new. -/
def Call.count (r : Record) : Call → Nat
  | .entry e => if r.lacks e then 1 else 0
  | .value key v => r.countAdded key v

/-- The entries that a call offers, whether the record has them or not. -/
def Call.offers : Call → List Entry
  | .entry e => [e]
  | .value key v => entriesOf key v

/-- The record after calls. -/
def performAll (calls : List Call) (r : Record) : Record := calls.foldl Call.perform r

/-- How many entries calls say are new, one after the other. -/
def countAll : List Call → Record → Nat
  | [], _ => 0
  | c :: rest, r => c.count r + countAll rest (c.perform r)

theorem perform_eq (c : Call) (r : Record) : c.perform r = r.addEntries c.offers := by cases c <;> rfl

theorem count_eq (c : Call) (r : Record) : c.count r = r.countNew c.offers := by cases c <;> rfl

theorem addEntries_append (es es' : List Entry) (r : Record) :
    r.addEntries (es ++ es') = (r.addEntries es).addEntries es' := List.foldl_append

theorem countNew_append (es es' : List Entry) (r : Record) :
    r.countNew (es ++ es') = r.countNew es + (r.addEntries es).countNew es' := by
  induction es generalizing r with
  | nil => exact (Nat.zero_add _).symm
  | cons e rest ih =>
    rw [List.cons_append, countNew, countNew, ih, Nat.add_assoc]
    rfl

theorem performAll_eq (calls : List Call) (r : Record) :
    performAll calls r = r.addEntries (calls.flatMap Call.offers) := by
  induction calls generalizing r with
  | nil => rfl
  | cons c rest ih =>
    rw [List.flatMap_cons, addEntries_append, ← perform_eq]
    exact ih (c.perform r)

theorem countAll_eq (calls : List Call) (r : Record) :
    countAll calls r = r.countNew (calls.flatMap Call.offers) := by
  induction calls generalizing r with
  | nil => rfl
  | cons c rest ih => rw [countAll, ih, List.flatMap_cons, countNew_append, count_eq, perform_eq]

/-! ## First occurrences -/

/-- The entries of a list that none before them is the same as. -/
def firstOccurrences (es : List Entry) : List Entry :=
  (es.zipIdx.filter fun (e, i) => !(es.take i).any e.same).map (·.1)

theorem firstOccurrences_concat (es : List Entry) (e : Entry) :
    firstOccurrences (es ++ [e]) = firstOccurrences es ++ if es.any e.same then [] else [e] := by
  have earlier : ∀ x ∈ es.zipIdx, (!((es ++ [e]).take x.2).any x.1.same) = !(es.take x.2).any x.1.same := by
    intro x inside
    obtain ⟨_, place, _⟩ := List.mem_zipIdx (x := x.1) (i := x.2) inside
    rw [List.take_append_of_le_length (by omega)]
  rw [firstOccurrences, List.zipIdx_append, List.filter_append, List.map_append, List.filter_congr earlier]
  rw [← firstOccurrences, List.zipIdx_singleton, Nat.zero_add]
  cases repeated : es.any e.same <;> simp [repeated]

/-- A fresh record holds the first occurrences of what is added. -/
theorem entries_addEntries (id : String) (es : List Entry) :
    ((Record.empty id).addEntries es).entries = firstOccurrences es := by
  induction es using List.reverseRecOn with
  | nil => rfl
  | append_singleton es e ih =>
    have last : (Record.empty id).addEntries (es ++ [e]) = ((Record.empty id).addEntries es).addEntry e :=
      addEntries_append es [e] _
    have held : ((Record.empty id).addEntries es).holds e = es.any e.same := by
      rw [Bool.eq_iff_iff, holds_addEntries_iff, List.any_eq_true]
      simp [holds, Record.empty]
    rw [last, entries_addEntry, held, ih, firstOccurrences_concat]
    cases es.any e.same <;> simp

/-! ## Growth -/

/-- What is added comes behind what was there, and as much of it as is counted. -/
theorem growth_addEntries (es : List Entry) (r : Record) :
    ∃ new, (r.addEntries es).entries = r.entries ++ new ∧ new.length = r.countNew es ∧ new.Sublist es := by
  induction es generalizing r with
  | nil => exact ⟨[], (List.append_nil _).symm, rfl, .slnil⟩
  | cons e rest ih =>
    obtain ⟨new, extended, counted, among⟩ := ih (r.addEntry e)
    have later : (r.addEntries (e :: rest)).entries = (r.addEntry e).entries ++ new := extended
    rw [later, countNew, ← counted, entries_addEntry, lacks]
    cases r.holds e with
    | true => exact ⟨new, rfl, (Nat.zero_add _).symm, among.cons e⟩
    | false => exact ⟨e :: new, by simp, Nat.add_comm _ _, among.cons_cons e⟩

theorem addEntries_of_held {es : List Entry} {r : Record} (held : ∀ e ∈ es, r.holds e = true) :
    r.addEntries es = r ∧ r.countNew es = 0 := by
  induction es with
  | nil => exact ⟨rfl, rfl⟩
  | cons e rest ih =>
    obtain ⟨first, later⟩ := List.forall_mem_cons.mp held
    obtain ⟨same, none⟩ := ih later
    have kept := addEntry_of_holds first
    refine ⟨?_, ?_⟩
    · rw [addEntries, List.foldl_cons, kept]
      exact same
    · simp [countNew, lacks, first, kept, none]

/-- A call that was made before changes nothing. -/
theorem perform_again {calls : List Call} {c : Call} (made : c ∈ calls) (r : Record) :
    c.perform (performAll calls r) = performAll calls r ∧ c.count (performAll calls r) = 0 := by
  rw [perform_eq, count_eq]
  refine addEntries_of_held fun e offered => ?_
  rw [performAll_eq, holds_addEntries_iff]
  exact .inr ⟨e, List.mem_flatMap.mpr ⟨c, made, offered⟩, Entry.same_refl e⟩

/-! ## Parts of arrays -/

mutual

/-- The values that are no arrays in a value: its own parts from left to right, or the value itself. -/
def parts : Json → List Json
  | .arr items => partsOfItems items
  | value => [value]

/-- The parts of the items of an array. -/
def partsOfItems : List Json → List Json
  | [] => []
  | item :: rest => parts item ++ partsOfItems rest

end

mutual

theorem parts_not_array : ∀ (value : Json), ∀ part ∈ parts value, ∀ items, part ≠ .arr items
  | .arr items => partsOfItems_not_array items
  | .null | .bool _ | .num _ | .str _ | .obj _ => List.forall_mem_singleton.mpr fun _ => by simp

theorem partsOfItems_not_array : ∀ (items : List Json), ∀ part ∈ partsOfItems items, ∀ items', part ≠ .arr items'
  | [] => List.forall_mem_nil _
  | item :: rest => List.forall_mem_append.mpr ⟨parts_not_array item, partsOfItems_not_array rest⟩

end

mutual

theorem atoms_parts : ∀ value : Json, value.atoms = (parts value).flatMap Json.atoms
  | .arr items => atomsOfItems_parts items
  | .null | .bool _ | .num _ | .str _ | .obj _ => (List.flatMap_singleton _ _).symm

theorem atomsOfItems_parts : ∀ items : List Json, Json.atomsOfItems items = (partsOfItems items).flatMap Json.atoms
  | [] => rfl
  | item :: rest => by
    rw [Json.atomsOfItems, partsOfItems, List.flatMap_append, atoms_parts item, atomsOfItems_parts rest]

end

/-- A value offers what its parts offer one by one. -/
theorem offers_parts (key : String) (value : Json) :
    (Call.value key value).offers = ((parts value).map (Call.value key)).flatMap Call.offers := by
  rw [Call.offers, entriesOf, atoms_parts, List.map_flatMap, List.flatMap_map]
  rfl

theorem offered_value {key : String} {value : Json} {e : Entry} (offered : e ∈ entriesOf key value) :
    e.key = key ∧ e.value ≠ .text "" := by
  obtain ⟨a, inside, rfl⟩ := List.mem_map.mp offered
  refine ⟨rfl, fun empty => ?_⟩
  have admissible := admissible_atoms value a inside
  rw [show a = .text "" from empty] at admissible
  exact admissible rfl

/-! ## Records after calls -/

/-- After any calls on a fresh record it holds the first occurrences of what they offered. Adding a value puts as many
entries behind those as it says, none with an empty text; it does, and says, what adding the parts of the value
one by one does, so that only the parts matter and not their nesting; and to add it again does nothing. -/
theorem entries_of_calls (id : String) (calls : List Call) :
    let r := performAll calls (.empty id)
    r.entries = firstOccurrences (calls.flatMap Call.offers) ∧
    (∀ key value, ∃ new, (r.addValue key value).entries = r.entries ++ new ∧
      new.length = r.countAdded key value ∧ ∀ e ∈ new, e.key = key ∧ e.value ≠ .text "") ∧
    (∀ key value, (∀ part ∈ parts value, ∀ items, part ≠ .arr items) ∧
      r.addValue key value = performAll ((parts value).map (Call.value key)) r ∧
      r.countAdded key value = countAll ((parts value).map (Call.value key)) r) ∧
    (∀ key value value', parts value = parts value' →
      r.addValue key value = r.addValue key value' ∧ r.countAdded key value = r.countAdded key value') ∧
    ∀ key value, .value key value ∈ calls → r.addValue key value = r ∧ r.countAdded key value = 0 := by
  intro r
  have added (key : String) (value : Json) : r.addValue key value = performAll ((parts value).map (Call.value key)) r := by
    rw [performAll_eq, ← offers_parts]
    rfl
  have counted (key : String) (value : Json) :
      r.countAdded key value = countAll ((parts value).map (Call.value key)) r := by
    rw [countAll_eq, ← offers_parts]
    rfl
  refine ⟨?_, ?_, ?_, ?_, ?_⟩
  · rw [← entries_addEntries id, ← performAll_eq]
  · intro key value
    obtain ⟨new, extended, size, among⟩ := growth_addEntries (entriesOf key value) r
    exact ⟨new, extended, size, fun e inside => offered_value (among.subset inside)⟩
  · exact fun key value => ⟨parts_not_array value, added key value, counted key value⟩
  · intro key value value' same
    rw [added, added key value', counted, counted key value', same]
    exact ⟨rfl, rfl⟩
  · exact fun key value made => perform_again made _

/-- Tags in a nested list, an empty one that was added as it is, and a number that is written in two ways. -/
def tagging : List Call :=
  [.value "tag" (.arr [.str "wet", .arr [.str "", .arr [.str "dry"]], .null, .str "wet"]), .entry ⟨"tag", .text ""⟩,
    .value "size" (.arr [.num (.int 1), .num (.float ((Binary64.ofNat? 1).getD .zero))])]

/-- The record holds each tag once and one number; the list that was added is not added again, and a list of the same
parts in other brackets is added as they are. -/
theorem tagging_entries :
    let r := performAll tagging (.empty "X")
    r.entries = [⟨"tag", .text "wet"⟩, ⟨"tag", .text "dry"⟩, ⟨"tag", .text ""⟩, ⟨"size", .number (.int 1)⟩] ∧
    Call.value "tag" (.arr [.str "wet", .arr [.str "", .arr [.str "dry"]], .null, .str "wet"]) ∈ tagging ∧
    r.countAdded "tag" (.arr [.str "wet", .arr [.str "", .arr [.str "dry"]], .null, .str "wet"]) = 0 ∧
    parts (.arr [.arr [.str "deep"], .str "dry"]) = parts (.arr [.str "deep", .arr [.str "dry"]]) ∧
    r.countAdded "tag" (.arr [.arr [.str "deep"], .str "dry"]) = 1 ∧
    r.countAdded "tag" (.arr [.str "deep", .arr [.str "dry"]]) = 1 := by
  intro r
  obtain ⟨held, _, _, regrouped, again⟩ := entries_of_calls "X" tagging
  have offered : firstOccurrences (tagging.flatMap Call.offers) =
      [⟨"tag", .text "wet"⟩, ⟨"tag", .text "dry"⟩, ⟨"tag", .text ""⟩, ⟨"size", .number (.int 1)⟩] := by rfl
  have first : r.countAdded "tag" (.arr [.arr [.str "deep"], .str "dry"]) = 1 := by rfl
  have made : Call.value "tag" (.arr [.str "wet", .arr [.str "", .arr [.str "dry"]], .null, .str "wet"]) ∈ tagging :=
    List.mem_cons_self
  have same : parts (.arr [.arr [.str "deep"], .str "dry"]) = parts (.arr [.str "deep", .arr [.str "dry"]]) := rfl
  exact ⟨held.trans offered, made, (again _ _ made).2, same, first, (regrouped "tag" _ _ same).2.symm.trans first⟩

end RecordMapper.Proofs.FirstOccurrences
