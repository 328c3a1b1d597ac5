import Mathlib.Data.List.Nodup
import RecordMapper.Proofs.PathTexts

/-!
# Locations in documents

A location is followed from a document by the keys of objects and the numbers of array items.
Main statement: `findAll_render`, by which the text of a location selects exactly the value that
stands there and nothing where there is none. `leads_iff_locate` ties the search for a location
to the relation that says where it leads.
-/

namespace RecordMapper.Proofs.Documents

open RecordMapper.JsonPath RecordMapper.Proofs.PathTexts

/-! ## Documents -/

/-- Documents that are held in memory: an object has one member a key, and an array has no more
items than there are places to number them by. -/
inductive Proper : Json → Prop
  | null : Proper .null
  | bool (b : Bool) : Proper (.bool b)
  | num (n : Number) : Proper (.num n)
  | str (s : String) : Proper (.str s)
  | arr {items : List Json} : items.length ≤ placeLimit → (∀ v ∈ items, Proper v) → Proper (.arr items)
  | obj {members : List (String × Json)} : (members.map (·.1)).Nodup → (∀ m ∈ members, Proper m.2) →
      Proper (.obj members)

/-- A location of a document, and the value that stands there. -/
inductive Leads : Json → List Segment → Json → Prop
  | here (v : Json) : Leads v [] v
  | member {members : List (String × Json)} {key : String} {v w : Json} {ss : List Segment} :
      (key, v) ∈ members → Leads v ss w → Leads (.obj members) (.key key :: ss) w
  | item {items : List Json} {i : Nat} {v w : Json} {ss : List Segment} :
      items[i]? = some v → Leads v ss w → Leads (.arr items) (.index (toString i) :: ss) w

/-- The values one step below a value, each with its segment. -/
def below : Json → List (Segment × Json)
  | .arr items => items.zipIdx.map fun (v, i) => (.index (toString i), v)
  | .obj members => members.map fun (k, v) => (.key k, v)
  | _ => []

/-- The value at a location. -/
def locate : List Segment → Json → Option Json
  | [], v => some v
  | s :: rest, v => ((below v).lookup s).bind (locate rest)

/-! ## Values one step below -/

/-- Where no key is repeated, a value is found under a key exactly if it stands there. -/
theorem lookup_iff_mem {α β : Type} [BEq α] [LawfulBEq α] {entries : List (α × β)}
    (distinct : (entries.map (·.1)).Nodup) (a : α) (b : β) : entries.lookup a = some b ↔ (a, b) ∈ entries := by
  constructor
  · intro found
    obtain ⟨before, after, rfl, _⟩ := List.lookup_eq_some_iff.mp found
    simp
  · intro member
    obtain ⟨before, after, rfl⟩ := List.append_of_mem member
    refine List.lookup_eq_some_iff.mpr ⟨before, after, rfl, fun other earlier => ?_⟩
    rw [List.map_append, List.map_cons, List.nodup_append] at distinct
    exact bne_iff_ne.mpr (distinct.2.2 other.1 (List.mem_map_of_mem earlier) a (by simp)).symm

theorem mem_below_arr (items : List Json) (s : Segment) (v : Json) :
    (s, v) ∈ below (.arr items) ↔ ∃ i : Nat, s = .index (toString i) ∧ items[i]? = some v := by
  simp only [below, List.mem_map, Prod.exists, List.mk_mem_zipIdx_iff_getElem?, Prod.mk.injEq]
  constructor
  · rintro ⟨_, i, found, rfl, rfl⟩
    exact ⟨i, rfl, found⟩
  · rintro ⟨i, rfl, found⟩
    exact ⟨v, i, found, rfl, rfl⟩

theorem mem_below_obj (members : List (String × Json)) (s : Segment) (v : Json) :
    (s, v) ∈ below (.obj members) ↔ ∃ key, s = .key key ∧ (key, v) ∈ members := by
  simp only [below, List.mem_map, Prod.exists, Prod.mk.injEq]
  constructor
  · rintro ⟨key, _, member, rfl, rfl⟩
    exact ⟨key, rfl, member⟩
  · rintro ⟨key, rfl, member⟩
    exact ⟨key, v, member, rfl, rfl⟩

theorem written_below {v w : Json} {s : Segment} (member : (s, w) ∈ below v) : Written s := by
  cases v with
  | arr items =>
    obtain ⟨i, rfl, _⟩ := (mem_below_arr _ _ _).mp member
    exact isDigits_toString i
  | obj members =>
    obtain ⟨key, rfl, _⟩ := (mem_below_obj _ _ _).mp member
    trivial
  | _ => simp [below] at member

theorem distinct_below {v : Json} (proper : Proper v) : ((below v).map (·.1)).Nodup := by
  cases proper with
  | arr _ _ =>
    rename_i items _ _
    have numbers : (below (.arr items)).map (·.1) =
        (List.range' 0 items.length).map fun i => Segment.index (toString i) := by
      rw [below, List.map_map, ← List.zipIdx_map_snd, List.map_map]
      rfl
    rw [numbers]
    exact List.Nodup.map (fun _ _ same => toString_injective (Segment.index.inj same)) List.nodup_range'
  | obj distinct _ =>
    rename_i members _
    have keys : (below (.obj members)).map (·.1) = (members.map (·.1)).map Segment.key := by
      rw [below, List.map_map, List.map_map]
      rfl
    rw [keys]
    exact List.Nodup.map (fun _ _ same => Segment.key.inj same) distinct
  | _ => exact List.nodup_nil

theorem lookup_below_iff {v : Json} (proper : Proper v) (s : Segment) (w : Json) :
    (below v).lookup s = some w ↔ (s, w) ∈ below v := lookup_iff_mem (distinct_below proper) s w

theorem proper_below {v w : Json} {s : Segment} (proper : Proper v) (member : (s, w) ∈ below v) : Proper w := by
  cases proper with
  | arr _ inside =>
    obtain ⟨i, _, found⟩ := (mem_below_arr _ _ _).mp member
    exact inside w (List.mem_of_getElem? found)
  | obj _ inside =>
    obtain ⟨key, _, found⟩ := (mem_below_obj _ _ _).mp member
    exact inside _ found
  | _ => simp [below] at member

/-! ## Locations -/

/-- The segments of locations: any key, and each place that an array may have. -/
def Canonical : Segment → Prop
  | .key _ => True
  | .index digits => ∃ i < placeLimit, digits = toString i

theorem written_of_canonical {s : Segment} (canonical : Canonical s) : Written s := by
  cases s with
  | key name => trivial
  | index digits =>
    obtain ⟨i, _, rfl⟩ := canonical
    exact isDigits_toString i

theorem canonical_below {v w : Json} {s : Segment} (proper : Proper v) (member : (s, w) ∈ below v) :
    Canonical s := by
  cases proper with
  | arr few _ =>
    obtain ⟨i, rfl, found⟩ := (mem_below_arr _ _ _).mp member
    exact ⟨i, Nat.lt_of_lt_of_le (List.getElem?_eq_some_iff.mp found).1 few, rfl⟩
  | obj _ _ =>
    obtain ⟨key, rfl, _⟩ := (mem_below_obj _ _ _).mp member
    trivial
  | _ => simp [below] at member

/-- The search for a location finds exactly where the location leads. -/
theorem leads_iff_locate {v w : Json} {ss : List Segment} (proper : Proper v) :
    Leads v ss w ↔ locate ss v = some w := by
  constructor
  · intro leads
    induction leads with
    | here v => rfl
    | @member members key v w ss member _ ih =>
      have inside : (Segment.key key, v) ∈ below (.obj members) := (mem_below_obj _ _ _).mpr ⟨key, rfl, member⟩
      rw [locate, (lookup_below_iff proper _ _).mpr inside]
      exact ih (proper_below proper inside)
    | @item items i v w ss found _ ih =>
      have inside : (Segment.index (toString i), v) ∈ below (.arr items) :=
        (mem_below_arr _ _ _).mpr ⟨i, rfl, found⟩
      rw [locate, (lookup_below_iff proper _ _).mpr inside]
      exact ih (proper_below proper inside)
  · intro found
    induction ss generalizing v with
    | nil =>
      obtain rfl := Option.some.inj found
      exact .here v
    | cons s rest ih =>
      rw [locate, Option.bind_eq_some_iff] at found
      obtain ⟨next, child, found⟩ := found
      have member := (lookup_below_iff proper _ _).mp child
      have leads := ih (proper_below proper member) found
      cases v with
      | arr items =>
        obtain ⟨i, rfl, place⟩ := (mem_below_arr _ _ _).mp member
        exact .item place leads
      | obj members =>
        obtain ⟨key, rfl, named⟩ := (mem_below_obj _ _ _).mp member
        exact .member named leads
      | _ => simp [below] at member

theorem canonical_of_locate {v w : Json} {ss : List Segment} (proper : Proper v)
    (found : locate ss v = some w) : ∀ s ∈ ss, Canonical s := by
  induction ss generalizing v with
  | nil => simp
  | cons s rest ih =>
    rw [locate, Option.bind_eq_some_iff] at found
    obtain ⟨next, child, found⟩ := found
    have member := (lookup_below_iff proper _ _).mp child
    intro t inside
    rcases List.mem_cons.mp inside with rfl | later
    · exact canonical_below proper member
    · exact ih (proper_below proper member) found t later

theorem proper_of_locate {v w : Json} {ss : List Segment} (proper : Proper v) (found : locate ss v = some w) :
    Proper w := by
  induction ss generalizing v with
  | nil =>
    obtain rfl := Option.some.inj found
    exact proper
  | cons s rest ih =>
    rw [locate, Option.bind_eq_some_iff] at found
    obtain ⟨next, child, found⟩ := found
    have member := (lookup_below_iff proper _ _).mp child
    exact ih (proper_below proper member) found

theorem locate_concat (ss : List Segment) (s : Segment) (v : Json) :
    locate (ss ++ [s]) v = (locate ss v).bind fun w => (below w).lookup s := by
  induction ss generalizing v with
  | nil => simp [locate]
  | cons t rest ih =>
    rw [List.cons_append, locate, locate]
    cases (below v).lookup t with
    | none => rfl
    | some w => exact ih w

/-! ## Matches of a location -/

/-- The step of a segment selects the one value that stands there. -/
theorem select_token {v : Json} {s : Segment} (proper : Proper v) (canonical : Canonical s) :
    select v (token s) = ((below v).lookup s).toList := by
  have same (found : Option Json) (each : ∀ w, found = some w ↔ (s, w) ∈ below v) :
      found.toList = ((below v).lookup s).toList :=
    congrArg Option.toList (Option.ext fun w =>
      (each w).trans (lookup_below_iff proper s w).symm)
  cases s with
  | key name =>
    cases v with
    | obj members =>
      refine same _ fun w => ?_
      cases proper with
      | obj distinct _ => simp [mem_below_obj, lookup_iff_mem distinct]
    | arr items => exact same none fun w => by simp [mem_below_arr]
    | _ => rfl
  | index digits =>
    obtain ⟨i, fits, rfl⟩ := canonical
    cases v with
    | arr items =>
      refine same _ fun w => ?_
      rw [indexValue_toString fits, mem_below_arr]
      constructor
      · exact fun found => ⟨i, rfl, found⟩
      · rintro ⟨j, equal, found⟩
        rwa [toString_injective (Segment.index.inj equal)]
    | obj members => exact same none fun w => by simp [mem_below_obj]
    | _ => rfl

theorem selectAll_nil (ts : List Token) : selectAll [] ts = [] := by
  induction ts with
  | nil => rfl
  | cons t rest ih => rw [selectAll, List.flatMap_nil, ih]

theorem selectAll_token {v : Json} {ss : List Segment} (proper : Proper v) (canonical : ∀ s ∈ ss, Canonical s) :
    selectAll [v] (ss.map token) = (locate ss v).toList := by
  induction ss generalizing v with
  | nil => rfl
  | cons s rest ih =>
    rw [List.map_cons, selectAll, List.flatMap_singleton, select_token proper (canonical s (by simp)), locate]
    cases child : (below v).lookup s with
    | none => exact selectAll_nil _
    | some next =>
      have member := (lookup_below_iff proper _ _).mp child
      exact ih (proper_below proper member) fun t later => canonical t (by simp [later])

/-- The text of a location selects the value that stands there and nothing else. -/
theorem findAll_render {d : Json} {ss : List Segment} (proper : Proper d) (canonical : ∀ s ∈ ss, Canonical s) :
    findAll (render (Segment.root :: ss)) d = .ok (locate ss d).toList := by
  rw [findAll, tokenize_render fun s member => written_of_canonical (canonical s member)]
  exact congrArg Except.ok (selectAll_token proper canonical)

end RecordMapper.Proofs.Documents
