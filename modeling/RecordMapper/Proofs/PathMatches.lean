import Mathlib.Data.List.Forall2
import Mathlib.Data.List.Pairwise
import RecordMapper.Proofs.PathReading
import RecordMapper.Proofs.Documents

/-!
# Matches of a path

A path with wildcards matches locations: those as long as the path of which each step matches the step of the
path at its place. Main statement: `findAll_matching_locations`, by which the values found are those at all
locations that match, each once, in the order of the document, and the search may stop as soon as nothing is
left. One step selects the values one step below that match it (`select_eq_filter`).
-/

namespace RecordMapper.Proofs.PathMatches
open RecordMapper.JsonPath RecordMapper.Proofs.PathTexts RecordMapper.Proofs.PathReading RecordMapper.Proofs.Documents

/-! ## Matching and order of locations -/

/-- A step of a path matches a step of a location: a key the same key, an index the place of the same number,
and a wildcard any step. -/
def Matches : Token → Segment → Prop
  | .key name, .key own => name = own
  | .index digits, .index own => Text.digitsValue digits.toList = Text.digitsValue own.toList
  | .wildcard, _ => True
  | _, _ => False

instance (t : Token) (s : Segment) : Decidable (Matches t s) :=
  match t, s with
  | .key name, .key own => inferInstanceAs (Decidable (name = own))
  | .index digits, .index own =>
    inferInstanceAs (Decidable (Text.digitsValue digits.toList = Text.digitsValue own.toList))
  | .wildcard, _ => inferInstanceAs (Decidable True)
  | .key _, .index _ => inferInstanceAs (Decidable False)
  | .index _, .key _ => inferInstanceAs (Decidable False)

/-- A location comes before another one in a document: the two part at a value in which the first goes on to
an earlier member or item. -/
inductive Precedes : Json → List Segment → List Segment → Prop
  | here {v : Json} {s t : Segment} {ss ts : List Segment} :
      [s, t].Sublist ((below v).map (·.1)) → Precedes v (s :: ss) (t :: ts)
  | further {v w : Json} {s : Segment} {ss ts : List Segment} :
      (s, w) ∈ below v → Precedes w ss ts → Precedes v (s :: ss) (s :: ts)

/-- The locations below a value that match steps, with the values that stand there. -/
def matching : List Token → Json → List (List Segment × Json)
  | [], v => [([], v)]
  | t :: rest, v => ((below v).filter fun c => Matches t c.1).flatMap fun c =>
      (matching rest c.2).map fun found => (c.1 :: found.1, found.2)

/-- The values that steps select, where no step is taken any more once nothing is left. -/
def selectWhileAny (values : List Json) : List Token → List Json
  | [] => values
  | t :: rest =>
    let next := values.flatMap fun v => select v t
    if next.isEmpty then next else selectWhileAny next rest

/-- Two locations do not both come before each other, and none before itself. -/
theorem not_precedes_self {v : Json} {ss : List Segment} (proper : Proper v) : ¬ Precedes v ss ss := by
  intro precedes
  induction ss generalizing v with
  | nil => cases precedes
  | cons s rest ih =>
    cases precedes with
    | here twice => exact absurd (twice.nodup (distinct_below proper)) (by simp)
    | further member later => exact ih (proper_below proper member) later

/-! ## One step -/

/-- Where no key is repeated, looking for a key keeps the one entry under it. -/
theorem toList_lookup {α β : Type} [BEq α] [LawfulBEq α] {entries : List (α × β)}
    (distinct : (entries.map (·.1)).Nodup) (a : α) :
    (entries.lookup a).toList = (entries.filter fun e => a == e.1).map (·.2) := by
  induction entries with
  | nil => rfl
  | cons e rest ih =>
    obtain ⟨b, x⟩ := e
    rw [List.map_cons, List.nodup_cons] at distinct
    rw [List.lookup_cons, List.filter_cons]
    cases same : a == b with
    | false => simpa using ih distinct.2
    | true =>
      obtain rfl := eq_of_beq same
      have others : (rest.filter fun e => a == e.1) = [] := by
        rw [List.filter_eq_nil_iff]
        intro e later equal
        exact distinct.1 (List.mem_map.mpr ⟨e, later, (eq_of_beq equal).symm⟩)
      simp [others]

theorem select_wildcard (v : Json) : select v .wildcard = (below v).map (·.2) := by
  cases v with
  | arr items => simp [select, below, List.map_map, Function.comp_def]
  | obj members => simp [select, below, List.map_map, Function.comp_def]
  | _ => rfl

/-- A step that matches one segment among those below a value selects what stands there. -/
theorem filter_of_segment {v : Json} {t : Token} {s : Segment} (proper : Proper v)
    (only : ∀ c ∈ below v, Matches t c.1 ↔ s = c.1) :
    ((below v).filter fun c => Matches t c.1).map (·.2) = ((below v).lookup s).toList := by
  rw [toList_lookup (distinct_below proper)]
  congr 1
  refine List.filter_congr fun c inside => ?_
  rw [Bool.eq_iff_iff, decide_eq_true_iff, beq_iff_eq]
  exact only c inside

theorem select_key {v : Json} (proper : Proper v) (name : String) :
    select v (.key name) = ((below v).filter fun c => Matches (.key name) c.1).map (·.2) := by
  rw [filter_of_segment (s := .key name) proper]
  · exact select_token (s := .key name) proper trivial
  · rintro ⟨s, w⟩ _
    cases s <;> simp [Matches]

/-- Digits alone denote the place of their number, where one exists. -/
theorem indexValue_of_digits {digits : String} (read : Text.isDigits digits.toList = true) :
    indexValue? digits =
      if Text.digitsValue digits.toList < placeLimit then some (Text.digitsValue digits.toList) else none := by
  rw [indexValue?]
  split
  · -- a plus sign is no digit
    next signed =>
      rw [signed] at read
      simp [Text.isDigits] at read
  · simp [read]

/-- An index selects the item at the place of its number, however many zeros it begins with. -/
theorem select_index {v : Json} (proper : Proper v) {digits : String} (read : Text.isDigits digits.toList = true) :
    select v (.index digits) = ((below v).filter fun c => Matches (.index digits) c.1).map (·.2) := by
  have only : ∀ c ∈ below v,
      Matches (.index digits) c.1 ↔ Segment.index (toString (Text.digitsValue digits.toList)) = c.1 := by
    rintro ⟨s, w⟩ inside
    cases s with
    | key name => simp [Matches]
    | index own =>
      have canonical : Canonical (.index own) := canonical_below proper inside
      obtain ⟨i, _, rfl⟩ := canonical
      rw [Matches, digitsValue_toString]
      constructor
      · intro same
        rw [same]
      · intro same
        exact toString_injective (Segment.index.inj same)
  rw [filter_of_segment proper only]
  by_cases fits : Text.digitsValue digits.toList < placeLimit
  · have place : indexValue? digits = indexValue? (toString (Text.digitsValue digits.toList)) := by
      rw [indexValue_toString fits, indexValue_of_digits read, if_pos fits]
    rw [← select_token (s := .index (toString (Text.digitsValue digits.toList))) proper ⟨_, fits, rfl⟩]
    simp only [select, token, place]
  · -- an array has no place that far, so the index finds nothing and matches nothing
    have nothing : (below v).lookup (.index (toString (Text.digitsValue digits.toList))) = none := by
      rw [Option.eq_none_iff_forall_ne_some]
      intro w found
      obtain ⟨i, small, same⟩ := canonical_below proper ((lookup_below_iff proper _ w).mp found)
      obtain rfl := toString_injective same
      exact fits small
    have unread : indexValue? digits = none := by rw [indexValue_of_digits read, if_neg fits]
    rw [nothing]
    cases v <;> simp [select, unread]

theorem select_eq_filter {v : Json} (proper : Proper v) {t : Token} (indexed : Indexed t) :
    select v t = ((below v).filter fun c => Matches t c.1).map (·.2) := by
  cases t with
  | key name => exact select_key proper name
  | index digits => exact select_index proper (indexed digits rfl)
  | wildcard =>
    have all : (below v).filter (fun c => Matches .wildcard c.1) = below v := by
      rw [List.filter_eq_self]
      intro c _
      rfl
    rw [all, select_wildcard]

/-! ## All steps -/

theorem selectAll_eq_flatMap (values : List Json) (ts : List Token) :
    selectAll values ts = values.flatMap fun v => selectAll [v] ts := by
  induction ts generalizing values with
  | nil => simp [selectAll]
  | cons t rest ih =>
    rw [selectAll, ih, List.flatMap_assoc]
    refine List.flatMap_congr fun v _ => ?_
    rw [selectAll, List.flatMap_singleton, ih]

theorem selectAll_eq_matching {v : Json} {ts : List Token} (proper : Proper v) (indexed : ∀ t ∈ ts, Indexed t) :
    selectAll [v] ts = (matching ts v).map (·.2) := by
  induction ts generalizing v with
  | nil => rfl
  | cons t rest ih =>
    obtain ⟨first, later⟩ := List.forall_mem_cons.mp indexed
    rw [selectAll, List.flatMap_singleton, selectAll_eq_flatMap, select_eq_filter proper first, matching,
      List.flatMap_map, List.map_flatMap]
    refine List.flatMap_congr fun c inside => ?_
    rw [ih (proper_below proper (List.mem_of_mem_filter inside)) later, List.map_map]
    rfl

/-- Stopping where nothing is left changes nothing, since no step selects anything from nothing. -/
theorem selectWhileAny_eq (values : List Json) (ts : List Token) : selectWhileAny values ts = selectAll values ts := by
  induction ts generalizing values with
  | nil => rfl
  | cons t rest ih =>
    rw [selectWhileAny, selectAll]
    split
    · next left =>
      rw [List.isEmpty_iff] at left
      rw [left, selectAll_nil]
    · exact ih _

theorem leads_cons_iff {v w : Json} {s : Segment} {ss : List Segment} :
    Leads v (s :: ss) w ↔ ∃ u, (s, u) ∈ below v ∧ Leads u ss w := by
  constructor
  · intro leads
    cases leads with
    | member inside later => exact ⟨_, (mem_below_obj _ _ _).mpr ⟨_, rfl, inside⟩, later⟩
    | item place later => exact ⟨_, (mem_below_arr _ _ _).mpr ⟨_, rfl, place⟩, later⟩
  · rintro ⟨u, inside, later⟩
    cases v with
    | arr items =>
      obtain ⟨i, rfl, place⟩ := (mem_below_arr _ _ _).mp inside
      exact .item place later
    | obj members =>
      obtain ⟨key, rfl, named⟩ := (mem_below_obj _ _ _).mp inside
      exact .member named later
    | _ => simp [below] at inside

theorem mem_matching_iff {v w : Json} {ts : List Token} {ss : List Segment} :
    (ss, w) ∈ matching ts v ↔ Leads v ss w ∧ List.Forall₂ Matches ts ss := by
  induction ts generalizing v ss with
  | nil =>
    rw [matching, List.mem_singleton, Prod.mk.injEq, List.forall₂_nil_left_iff]
    constructor
    · rintro ⟨rfl, rfl⟩
      exact ⟨.here w, rfl⟩
    · rintro ⟨leads, rfl⟩
      cases leads
      exact ⟨rfl, rfl⟩
  | cons t rest ih =>
    simp only [matching, List.mem_flatMap, List.mem_filter, decide_eq_true_iff, List.mem_map, Prod.mk.injEq]
    constructor
    · rintro ⟨⟨s, u⟩, ⟨inside, fits⟩, ⟨tail, x⟩, found, rfl, rfl⟩
      obtain ⟨leads, others⟩ := ih.mp found
      exact ⟨leads_cons_iff.mpr ⟨u, inside, leads⟩, .cons fits others⟩
    · rintro ⟨leads, fits⟩
      cases fits with
      | cons first others =>
        obtain ⟨u, inside, later⟩ := leads_cons_iff.mp leads
        exact ⟨(_, u), ⟨inside, first⟩, (_, w), ih.mpr ⟨later, others⟩, rfl, rfl⟩

/-- The locations that match are listed in the order of the document. -/
theorem pairwise_matching (ts : List Token) (v : Json) : ((matching ts v).map (·.1)).Pairwise (Precedes v) := by
  induction ts generalizing v with
  | nil => simp [matching]
  | cons t rest ih =>
    rw [matching, List.pairwise_map, List.pairwise_flatMap]
    constructor
    · rintro ⟨s, w⟩ kept
      rw [List.pairwise_map]
      have inside : (s, w) ∈ below v := List.mem_of_mem_filter kept
      exact (List.pairwise_map.mp (ih w)).imp fun earlier => .further inside earlier
    · have ordered : (below v).Pairwise fun a b => [a.1, b.1].Sublist ((below v).map (·.1)) :=
        List.pairwise_iff_forall_sublist.mpr fun two => two.map fun c : Segment × Json => c.1
      refine (ordered.sublist List.filter_sublist).imp ?_
      rintro ⟨s, w⟩ ⟨t, u⟩ two a first b second
      obtain ⟨x, _, rfl⟩ := List.mem_map.mp first
      obtain ⟨y, _, rfl⟩ := List.mem_map.mp second
      exact .here two

theorem nodup_matching {v : Json} (proper : Proper v) (ts : List Token) : ((matching ts v).map (·.1)).Nodup := by
  refine (pairwise_matching ts v).imp ?_
  rintro ss _ precedes rfl
  exact not_precedes_self proper precedes

/-! ## Queries -/

/-- A path that is read finds in a document the values at all locations that match it, each once and in the
order of the document, and never fails. Nothing else is found if the search stops once nothing is left. -/
theorem findAll_matching_locations {path : String} {ts : List Token} (tokenized : tokenize path = .ok ts) {d : Json}
    (proper : Proper d) :
    ∃ found : List (List Segment × Json), findAll path d = .ok (found.map (·.2)) ∧
      (∀ ss v, (ss, v) ∈ found ↔ Leads d ss v ∧ List.Forall₂ Matches ts ss) ∧
      (found.map (·.1)).Nodup ∧ (found.map (·.1)).Pairwise (Precedes d) ∧
      selectWhileAny [d] ts = found.map (·.2) := by
  have selected := selectAll_eq_matching proper (indexed_of_tokenize tokenized)
  refine ⟨matching ts d, ?_, fun ss v => mem_matching_iff, nodup_matching proper ts, pairwise_matching ts d, ?_⟩
  · rw [findAll, tokenized, ← selected]
  · rw [selectWhileAny_eq, selected]

/-- A list in which only some items have a name. -/
def named : Json := .obj [("items", .arr [.obj [("name", .str "a")], .null, .obj [("id", .null), ("name", .str "b")]])]

/-- The item without a name is passed over, and the others keep their order. -/
theorem named_items :
    tokenize "$.items[*].name" = .ok [.key "items", .wildcard, .key "name"] ∧ Proper named ∧
      ∃ found : List (List Segment × Json), findAll "$.items[*].name" named = .ok (found.map (·.2)) ∧
        found.map (·.2) = [.str "a", .str "b"] ∧ (found.map (·.1)).Nodup ∧
        ([.key "items", .index "2", .key "name"], .str "b") ∈ found := by
  have tokenized : tokenize "$.items[*].name" = .ok [.key "items", .wildcard, .key "name"] := by cbv
  have proper : Proper named := by
    refine .obj (by decide) (List.forall_mem_singleton.mpr (.arr (by decide) ?_))
    simp only [List.forall_mem_cons]
    refine ⟨.obj (by decide) ?_, .null, .obj (by decide) ?_, by simp⟩
    · exact List.forall_mem_singleton.mpr (.str _)
    · exact List.forall_mem_cons.mpr ⟨.null, List.forall_mem_singleton.mpr (.str _)⟩
  obtain ⟨found, came, locations, distinct, _, stopped⟩ := findAll_matching_locations tokenized proper
  refine ⟨tokenized, proper, found, came, ?_, distinct, (locations _ _).mpr ⟨?_, ?_⟩⟩
  · rw [← stopped]
    rfl
  · exact .member (.head _) (.item (i := 2) rfl (.member (.tail _ (.head _)) (.here _)))
  · exact .cons rfl (.cons trivial (.cons rfl .nil))

end RecordMapper.Proofs.PathMatches
