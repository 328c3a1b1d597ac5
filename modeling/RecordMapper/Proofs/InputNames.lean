import Mathlib.Data.List.Infix
import RecordMapper.Block.Profile

/-!
# Input names with a suffix

An input of a profile is named for a property, perhaps with something behind the name. With a suffix that
makes no longer property name fit, the input is for a property of the same name (`propertyFor_suffixed`), but
not always for the same property: a name alone means the first property of that name, and a name with a suffix
means the last one. So the suffix changes nothing in the identifier exactly if the first and the last property
of the name have one identifier (`suffix_kept_iff`), as they have when no name comes twice.
-/

namespace RecordMapper.Proofs.InputNames
open RecordMapper.Descriptor

/-- The properties of a name, in order. -/
def named (n : String) (d : Descriptor) : List Property := d.properties.filter (·.name == n)

/-- The identifiers of the properties of a name, in order. -/
def identifiers (n : String) (d : Descriptor) : List String := (named n d).map (·.identifier)

/-- A property name that begins an input name, when no longer one does. -/
structure Fits (d : Descriptor) (n s : String) : Prop where
  told : n ≠ ""
  known : ∃ p ∈ d.properties, p.name = n
  longest : ∀ p ∈ d.properties, p.name.toList <+: (n ++ s).toList → p.name.length ≤ n.length

/-! ## The longest name -/

theorem mem_of_longest {ps : List Property} {p : Property} (found : longest ps = some p) : p ∈ ps := by
  induction ps generalizing p with
  | nil => cases found
  | cons first rest ih =>
    rw [longest] at found
    cases later : longest rest with
    | none =>
      rw [later] at found
      obtain rfl := Option.some.inj found
      exact List.mem_cons_self
    | some q =>
      rw [later] at found
      simp only at found
      split at found
      · obtain rfl := Option.some.inj found
        exact List.mem_cons_self
      · obtain rfl := Option.some.inj found
        exact List.mem_cons_of_mem _ (ih later)

/-- If no name is longer than a certain size and some name has it, the last such property is taken. -/
theorem longest_eq_getLast {ps : List Property} {k : Nat} (bounded : ∀ p ∈ ps, p.name.utf8ByteSize ≤ k)
    (reached : ∃ p ∈ ps, p.name.utf8ByteSize = k) :
    longest ps = (ps.filter fun p => p.name.utf8ByteSize = k).getLast? := by
  induction ps with
  | nil => simp at reached
  | cons first rest ih =>
    obtain ⟨bound, bounds⟩ := List.forall_mem_cons.mp bounded
    by_cases later : ∃ p ∈ rest, p.name.utf8ByteSize = k
    · -- one further on is at least as long as the first
      obtain ⟨p, member, reaches⟩ := later
      have some : (rest.filter fun p => p.name.utf8ByteSize = k) ≠ [] :=
        List.ne_nil_of_mem (List.mem_filter.mpr ⟨member, by simpa using reaches⟩)
      obtain ⟨q, last⟩ : ∃ q, (rest.filter fun p => p.name.utf8ByteSize = k).getLast? = .some q :=
        ⟨_, List.getLast?_eq_some_getLast some⟩
      have size_q := (List.mem_filter.mp (List.mem_of_getLast? last)).2
      rw [decide_eq_true_eq] at size_q
      have kept : ¬ q.name.utf8ByteSize < first.name.utf8ByteSize := by omega
      have behind := List.getLast?_append_of_ne_nil [first] some
      rw [longest, ih bounds ⟨p, member, reaches⟩, last, List.filter_cons]
      simp only [kept, if_false]
      split
      · exact (behind.trans last).symm
      · exact last.symm
    · have reaches : first.name.utf8ByteSize = k := by
        obtain ⟨p, member, reaches⟩ := reached
        rcases List.mem_cons.mp member with rfl | inside
        · exact reaches
        · exact absurd ⟨p, inside, reaches⟩ later
      have none : (rest.filter fun p => p.name.utf8ByteSize = k) = [] := by
        rw [List.filter_eq_nil_iff]
        intro p member reaches
        exact later ⟨p, member, by simpa using reaches⟩
      have alone : ((first :: rest).filter fun p => p.name.utf8ByteSize = k) = [first] := by
        rw [List.filter_cons, none]
        simp [reaches]
      rw [longest, alone]
      cases found : longest rest with
      | none => rfl
      | some q =>
        have inside := mem_of_longest found
        have shorter : q.name.utf8ByteSize < first.name.utf8ByteSize := by
          have bound := bounds q inside
          have other : q.name.utf8ByteSize ≠ k := fun reaches => later ⟨q, inside, reaches⟩
          omega
        simp [shorter]

/-! ## Names that begin an input name -/

/-- A name that begins another one is shorter or the same, counted in bytes as well. -/
theorem size_of_begins {a b : String} (begins : a.toList <+: b.toList) :
    a.utf8ByteSize ≤ b.utf8ByteSize ∧ (a.utf8ByteSize = b.utf8ByteSize ↔ a = b) := by
  obtain ⟨rest, whole⟩ := begins
  obtain rfl : b = a ++ String.ofList rest := by
    rw [← String.toList_inj, String.toList_append, String.toList_ofList, whole]
  rw [String.utf8ByteSize_append]
  refine ⟨by omega, ?_⟩
  constructor
  · intro same
    have none : (String.ofList rest).utf8ByteSize = 0 := by omega
    rw [String.utf8ByteSize_eq_zero_iff] at none
    rw [none, String.append_empty]
  · intro same
    rw [← String.utf8ByteSize_append, ← same]

section

variable {d : Descriptor} {n s : String}

theorem named_ne_nil (known : ∃ p ∈ d.properties, p.name = n) : named n d ≠ [] := by
  obtain ⟨p, member, rfl⟩ := known
  exact List.ne_nil_of_mem (List.mem_filter.mpr ⟨member, by simp⟩)

theorem name_of_named {p : Property} (member : p ∈ named n d) : p.name = n := by
  simpa using (List.mem_filter.mp member).2

/-- Without a suffix, the first property of the name is taken. -/
theorem propertyFor_name (known : ∃ p ∈ d.properties, p.name = n) : d.propertyFor? n = (named n d).head? := by
  obtain ⟨p, rest, cons⟩ := List.exists_cons_of_ne_nil (named_ne_nil known)
  have found : d.properties.find? (·.name == n) = some p := by
    rw [← List.head?_filter, ← named, cons, List.head?_cons]
  rw [propertyFor?, found, cons, List.head?_cons]

theorem startsWith_iff (fits : Fits d n s) {p : Property} (member : p ∈ d.properties) :
    startsWith (n ++ s) p = true → p.name.toList <+: n.toList := by
  intro starts
  rw [startsWith, Bool.and_eq_true, List.isPrefixOf_iff_prefix] at starts
  have shorter := fits.longest p member starts.2
  rw [← String.length_toList, ← String.length_toList] at shorter
  refine List.prefix_of_prefix_length_le starts.2 ?_ shorter
  rw [String.toList_append]
  exact List.prefix_append _ _

/-- With a suffix, the last property of the name is taken. -/
theorem propertyFor_suffixed (fits : Fits d n s) (more : s ≠ "") : d.propertyFor? (n ++ s) = (named n d).getLast? := by
  have longer : n.length < (n ++ s).length := by
    have size : s.length ≠ 0 := by simpa using more
    rw [String.length_append]
    omega
  have inexact : d.properties.find? (·.name == n ++ s) = none := by
    rw [List.find?_eq_none]
    intro p member whole
    have same : p.name = n ++ s := by simpa using whole
    have shorter := fits.longest p member (by rw [same])
    rw [same] at shorter
    omega
  have begins {p : Property} (member : p ∈ d.properties.filter (startsWith (n ++ s))) : p.name.toList <+: n.toList :=
    startsWith_iff fits (List.mem_filter.mp member).1 (List.mem_filter.mp member).2
  have starts {p : Property} (name : p.name = n) : startsWith (n ++ s) p = true := by
    simp [startsWith, name, fits.told]
  rw [propertyFor?, inexact]
  simp only
  rw [longest_eq_getLast (k := n.utf8ByteSize)]
  · -- among the names that begin the input name, those of full size are the name itself
    congr 1
    rw [named, List.filter_filter]
    refine List.filter_congr fun p member => ?_
    by_cases name : p.name = n
    · simp [name, starts name]
    · have other : (p.name.utf8ByteSize = n.utf8ByteSize) → startsWith (n ++ s) p = false := by
        intro size
        rw [← Bool.not_eq_true]
        intro begun
        exact name ((size_of_begins (startsWith_iff fits member begun)).2.mp size)
      by_cases size : p.name.utf8ByteSize = n.utf8ByteSize
      · simp [name, size, other size]
      · simp [name, size]
  · intro p member
    exact (size_of_begins (begins member)).1
  · obtain ⟨p, member, name⟩ := fits.known
    exact ⟨p, List.mem_filter.mpr ⟨member, starts name⟩, by rw [name]⟩

/-- With or without a suffix, the property has the name. -/
theorem property_named (fits : Fits d n s) :
    ∃ p q, d.propertyFor? n = some p ∧ d.propertyFor? (n ++ s) = some q ∧ p.name = n ∧ q.name = n := by
  have told := named_ne_nil fits.known
  obtain ⟨p, first⟩ : ∃ p, (named n d).head? = some p := ⟨_, List.head?_eq_some_head told⟩
  obtain ⟨q, last⟩ : ∃ q, (named n d).getLast? = some q := ⟨_, List.getLast?_eq_some_getLast told⟩
  have name := name_of_named (List.mem_of_head? first)
  have name' := name_of_named (List.mem_of_getLast? last)
  rw [← propertyFor_name fits.known] at first
  by_cases none : s = ""
  · subst none
    rw [String.append_empty]
    exact ⟨p, p, first, first, name, name⟩
  · rw [← propertyFor_suffixed fits none] at last
    exact ⟨p, q, first, last, name, name'⟩

/-- Of properties with different names, one alone has a certain name. -/
theorem identifiers_of_distinct (known : ∃ p ∈ d.properties, p.name = n) (distinct : (d.properties.map (·.name)).Nodup) :
    (identifiers n d).getLast? = (identifiers n d).head? := by
  obtain ⟨p, rest, cons⟩ := List.exists_cons_of_ne_nil (named_ne_nil known)
  have alone : rest = [] := by
    have among : (named n d).Sublist d.properties := List.filter_sublist
    have different := (among.map Property.name).nodup distinct
    have names : ∀ q ∈ named n d, q.name = n := fun q => name_of_named
    rw [cons] at different names
    rw [List.map_cons, List.nodup_cons] at different
    obtain ⟨first, others⟩ := List.forall_mem_cons.mp names
    rw [List.eq_nil_iff_forall_not_mem]
    intro q later
    exact different.1 (List.mem_map.mpr ⟨q, later, (others q later).trans first.symm⟩)
  rw [identifiers, cons, alone]
  rfl

theorem pidFor_name (known : ∃ p ∈ d.properties, p.name = n) : d.pidFor? n = (identifiers n d).head?.bind nonEmpty := by
  rw [pidFor?, propertyFor_name known, identifiers, List.head?_map, Option.bind_map]
  rfl

theorem pidFor_suffixed (fits : Fits d n s) (more : s ≠ "") :
    d.pidFor? (n ++ s) = (identifiers n d).getLast?.bind nonEmpty := by
  rw [pidFor?, propertyFor_suffixed fits more, identifiers, List.getLast?_map, Option.bind_map]
  rfl

end

theorem nonEmpty_injective : Function.Injective nonEmpty := by
  intro a b same
  rw [nonEmpty, nonEmpty] at same
  by_cases first : a = "" <;> by_cases second : b = "" <;> simp_all

/-- An input name that is a property name and a suffix, with which no longer property name fits, is for a
property of that name. It has the identifier that the name alone has exactly if there is no suffix or the
first and the last property of the name have one identifier; so it has if no name comes twice. -/
theorem suffix_kept_iff (d : Descriptor) (n s : String) (fits : Fits d n s) :
    (∃ p q, d.propertyFor? n = some p ∧ d.propertyFor? (n ++ s) = some q ∧ p.name = n ∧ q.name = n) ∧
    (d.pidFor? (n ++ s) = d.pidFor? n ↔ s = "" ∨ (identifiers n d).getLast? = (identifiers n d).head?) ∧
    ((d.properties.map (·.name)).Nodup → d.pidFor? (n ++ s) = d.pidFor? n) := by
  have kept_iff : d.pidFor? (n ++ s) = d.pidFor? n ↔ s = "" ∨ (identifiers n d).getLast? = (identifiers n d).head? := by
    by_cases none : s = ""
    · simp [none]
    · have told : identifiers n d ≠ [] := by simpa [identifiers] using named_ne_nil fits.known
      rw [pidFor_suffixed fits none, pidFor_name fits.known, List.getLast?_eq_some_getLast told, List.head?_eq_some_head told,
        Option.bind_some, Option.bind_some, nonEmpty_injective.eq_iff, Option.some_inj]
      simp [none]
  exact ⟨property_named fits, kept_iff, fun distinct => kept_iff.mpr (.inr (identifiers_of_distinct fits.known distinct))⟩

/-- A profile in which one property name begins another. -/
def topics : Descriptor :=
  ⟨"21.T1/profile", none, none, [⟨"topic", "21.T1/topic"⟩, ⟨"topicScheme", "21.T1/scheme"⟩]⟩

theorem suffixed_topic : Fits topics "topic" "2" ∧ topics.pidFor? "topic2" = topics.pidFor? "topic" := by
  have fits : Fits topics "topic" "2" := by
    refine ⟨by decide, ⟨⟨"topic", "21.T1/topic"⟩, .head _, rfl⟩, ?_⟩
    intro p member begins
    simp only [topics, List.mem_cons, List.not_mem_nil, or_false] at member
    rcases member with rfl | rfl
    · decide
    · revert begins
      decide
  exact ⟨fits, (suffix_kept_iff topics "topic" "2" fits).2.2 (by decide)⟩

/-- A profile with two properties of one name. -/
def twins : Descriptor := ⟨"21.T1/profile", none, none, [⟨"topic", "21.T1/a"⟩, ⟨"topic", "21.T1/b"⟩]⟩

/-- The suffix changes the identifier when a name comes twice. -/
theorem repeated_name_differs : ¬ ∀ d n s, Fits d n s → d.pidFor? (n ++ s) = d.pidFor? n := by
  intro kept
  have fits : Fits twins "topic" "2" := by
    refine ⟨by decide, ⟨⟨"topic", "21.T1/a"⟩, .head _, rfl⟩, ?_⟩
    intro p member _
    simp only [twins, List.mem_cons, List.not_mem_nil, or_false] at member
    rcases member with rfl | rfl <;> decide
  have differs : twins.pidFor? ("topic" ++ "2") ≠ twins.pidFor? "topic" := by decide
  exact differs (kept twins "topic" "2" fits)

end RecordMapper.Proofs.InputNames
