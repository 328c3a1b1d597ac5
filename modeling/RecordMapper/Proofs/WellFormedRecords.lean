import RecordMapper.Design.Lowering
import RecordMapper.Proofs.Orders

/-!
# Well-formed records

What a record must not hold is kept out at different places: empty keys where a graph is made into
designs, empty ids where a design is applied, empty texts and whole numbers in the guise of doubles where
a value is taken apart, repeated entries where one is added. No later step undoes any of it, and what is
inferred has keys and ids that were looked at already: so every record that a run hands on is well formed
(`graph_well_formed`).
-/

namespace RecordMapper.Proofs.WellFormedRecords
open RecordMapper.Block RecordMapper.Run RecordMapper.Proofs.Runs RecordMapper.Proofs.InferencePass

/-- What can stand in a record as a value: no empty text, and no double that is a whole number of at most
53 bits. -/
def Admissible : Atom → Prop
  | .text s => s ≠ ""
  | .number (.float x) => ∀ n, x.toInt? = some n → 2 ^ 53 - 1 < n.natAbs
  | .number (.int _) => True
  | .truth _ => True

/-- A well-formed record. -/
structure WellFormed (r : Record) : Prop where
  id : r.id ≠ ""
  pid : r.pid ≠ ""
  distinct : r.entries.Pairwise fun a b => a.same b = false
  keys : ∀ e ∈ r.entries, e.key ≠ ""
  values : ∀ e ∈ r.entries, Admissible e.value

/-! ## Values -/

theorem admissible_normalize (n : Number) : Admissible (.number n.normalize) := by
  cases n with
  | int n => trivial
  | float x =>
    rw [Number.normalize]
    cases whole : x.toInt? with
    | none =>
      intro n isWhole
      rw [whole] at isWhole
      cases isWhole
    | some n =>
      dsimp only
      split_ifs with small
      · trivial
      · intro m isWhole
        rw [whole] at isWhole
        cases isWhole
        exact Nat.lt_of_not_le small

mutual

theorem admissible_atoms : ∀ (j : Json), ∀ a ∈ j.atoms, Admissible a
  | .null, a, inside => nomatch inside
  | .bool b, a, inside => by
    rw [Json.atoms, List.mem_singleton] at inside
    subst inside
    trivial
  | .num n, a, inside => by
    rw [Json.atoms, List.mem_singleton] at inside
    subst inside
    exact admissible_normalize n
  | .str s, a, inside => by
    rw [Json.atoms] at inside
    split_ifs at inside with empty
    · cases inside
    · rw [List.mem_singleton] at inside
      subst inside
      simpa [Admissible] using empty
  | .arr items, a, inside => admissible_atomsOfItems items a inside
  | .obj members, a, inside => by
    rw [Json.atoms, List.mem_singleton] at inside
    subst inside
    -- the text of an object has at least its braces
    intro empty
    have size := congrArg (fun s => s.toList.length) empty
    simp [Json.render] at size

theorem admissible_atomsOfItems : ∀ (items : List Json), ∀ a ∈ Json.atomsOfItems items, Admissible a
  | [], a, inside => nomatch inside
  | j :: rest, a, inside => by
    rw [Json.atomsOfItems, List.mem_append] at inside
    rcases inside with first | later
    · exact admissible_atoms j a first
    · exact admissible_atomsOfItems rest a later

end

/-! ## Records -/

section

variable {r : Record}

theorem wellFormed_addEntry (fit : WellFormed r) {e : Entry} (key : e.key ≠ "") (value : Admissible e.value) :
    WellFormed (r.addEntry e) := by
  by_cases held : r.holds e = true
  · rw [Record.addEntry_of_holds held]
    exact fit
  · have new : ∀ x ∈ r.entries, x.same e = false := by
      intro x inside
      rw [← Bool.not_eq_true]
      intro same
      exact held (List.any_eq_true.mpr ⟨x, inside, Sameness.entry_same_symm same⟩)
    have extended : (r.addEntry e).entries = r.entries ++ [e] := by
      rw [Record.entries_addEntry, if_neg held]
    refine ⟨by rw [Record.id_addEntry]; exact fit.id, by rw [Record.pid_addEntry]; exact fit.pid, ?_, ?_, ?_⟩
    · rw [extended]
      refine List.pairwise_append.mpr ⟨fit.distinct, List.pairwise_singleton _ _, fun x inside y last => ?_⟩
      rw [List.mem_singleton.mp last]
      exact new x inside
    · rw [extended]
      exact List.forall_mem_append.mpr ⟨fit.keys, List.forall_mem_singleton.mpr key⟩
    · rw [extended]
      exact List.forall_mem_append.mpr ⟨fit.values, List.forall_mem_singleton.mpr value⟩

theorem wellFormed_addEntries (fit : WellFormed r) {es : List Entry} (keys : ∀ e ∈ es, e.key ≠ "")
    (values : ∀ e ∈ es, Admissible e.value) : WellFormed (r.addEntries es) := by
  induction es generalizing r with
  | nil => exact fit
  | cons e rest ih =>
    obtain ⟨key, keys⟩ := List.forall_mem_cons.mp keys
    obtain ⟨value, values⟩ := List.forall_mem_cons.mp values
    exact ih (wellFormed_addEntry fit key value) keys values

theorem wellFormed_addValue (fit : WellFormed r) {key : String} (named : key ≠ "") (value : Json) :
    WellFormed (r.addValue key value) := by
  refine wellFormed_addEntries fit ?_ ?_
  · intro e inside
    obtain ⟨_, _, rfl⟩ := List.mem_map.mp inside
    exact named
  · intro e inside
    obtain ⟨a, member, rfl⟩ := List.mem_map.mp inside
    exact admissible_atoms value a member

end

/-! ## Designs -/

/-- A design all of whose keys say something. -/
structure Keyed (d : Design) : Prop where
  values : ∀ key ∈ d.keys, key ≠ ""
  backlinks : ∀ link ∈ d.backlinks, link.2 ≠ ""

section

variable {d d' : Design}

theorem keyed_add (keyed : Keyed d) {key : String} (named : key ≠ "") (source : Source) : Keyed (d.add key source) := by
  cases source with
  | value e =>
    refine ⟨?_, keyed.backlinks⟩
    change ∀ k ∈ (Design.addEvaluator key e d.attributes).map (·.1), k ≠ ""
    rw [Design.keys_addEvaluator]
    split_ifs
    · exact keyed.values
    · exact List.forall_mem_append.mpr ⟨keyed.values, List.forall_mem_singleton.mpr named⟩
  | backlink forward =>
    rw [Design.add]
    split_ifs
    · exact keyed
    · exact ⟨keyed.values, List.forall_mem_append.mpr ⟨keyed.backlinks, List.forall_mem_singleton.mpr named⟩⟩

theorem keyed_addBlock (keyed : Keyed d) {key : String} (named : key ≠ "") {b : Block}
    (came : d.addBlock key b = .ok d') : Keyed d' := by
  obtain ⟨registered, _, came⟩ := bind_eq_ok came
  cases came
  cases registered with
  | none => exact keyed
  | some s => exact keyed_add keyed named s

theorem static_named {b : Block} {key : String} (static : staticText b = .ok (some key)) : key ≠ "" := by
  rw [staticText] at static
  obtain ⟨e, _, static⟩ := bind_eq_ok static
  cases e with
  | none => cases static
  | some e =>
    dsimp only at static
    split at static
    · split_ifs at static with empty
      · cases static
      · injection static with same
        injection same with same
        rw [← same]
        simpa using empty
    · cases static
    · cases static

theorem nonEmpty_named {s key : String} (found : Descriptor.nonEmpty s = some key) : key ≠ "" := by
  rw [Descriptor.nonEmpty] at found
  split_ifs at found with empty
  cases found
  simpa using empty

theorem pidFor_named {p : Descriptor} {input key : String} (found : p.pidFor? input = some key) : key ≠ "" := by
  obtain ⟨_, _, found⟩ := Option.bind_eq_some_iff.mp found
  exact nonEmpty_named found

theorem contract_named {descriptor : Option Descriptor} {p : Descriptor} {key : String}
    (complete : contract descriptor = .ok (p, key)) : key ≠ "" := by
  cases descriptor with
  | none => cases complete
  | some q =>
    rw [contract] at complete
    split_ifs at complete
    cases found : q.referenceKey? with
    | none =>
      rw [found] at complete
      cases complete
    | some own =>
      rw [found] at complete
      cases complete
      rw [Descriptor.referenceKey?] at found
      split at found
      · next given =>
        cases found
        obtain ⟨_, _, given⟩ := Option.bind_eq_some_iff.mp given
        exact nonEmpty_named given
      · obtain ⟨_, _, found⟩ := Option.bind_eq_some_iff.mp found
        exact nonEmpty_named found

theorem keyed_addAttr (keyed : Keyed d) {key value : Option Block} (came : d.addAttr key value = .ok d') :
    Keyed d' := by
  unfold Design.addAttr at came
  split at came
  · split_ifs at came
    · cases came
      exact keyed
    · obtain ⟨text, static, came⟩ := bind_eq_ok came
      cases text with
      | none =>
        cases came
        exact keyed
      | some text => exact keyed_addBlock keyed (static_named static) came
  · cases came
    exact keyed

theorem keyed_addInputs (keyed : Keyed d) {p : Descriptor} {inputs : List (String × Block)}
    (came : Design.addInputs p d inputs = .ok d') : Keyed d' := by
  induction inputs generalizing d with
  | nil =>
    cases came
    exact keyed
  | cons input rest ih =>
    obtain ⟨name, b⟩ := input
    rw [Design.addInputs] at came
    cases property : p.pidFor? name with
    | none =>
      rw [property] at came
      exact ih keyed came
    | some pid =>
      rw [property] at came
      dsimp only at came
      split_ifs at came
      · exact ih keyed came
      · obtain ⟨mid, added, came⟩ := bind_eq_ok came
        exact ih (keyed_addBlock keyed (pidFor_named property) added) came

theorem keyed_addStatement (keyed : Keyed d) {b : Block} (came : d.addStatement b = .ok d') : Keyed d' := by
  cases b with
  | attr id key value => exact keyed_addAttr keyed came
  | profile id descriptor inputs =>
    rw [Design.addStatement] at came
    cases complete : contract descriptor with
    | error gap =>
      rw [complete] at came
      cases came
    | ok found =>
      rw [complete] at came
      exact keyed_addInputs (keyed_add keyed (contract_named complete) _) came
  | _ => cases came

theorem keyed_body (keyed : Keyed d) {body : List Block} (came : body.foldlM Design.addStatement d = .ok d') :
    Keyed d' :=
  foldlM_keeps came (fun _ _ _ _ first keyed => keyed_addStatement keyed first) keyed

theorem keyed_ofRecord {id : String} {localId : Option Block} {skip : Option (Option Block)} {body : List Block}
    (came : Design.ofRecord id localId skip body = .ok d) : Keyed d := by
  obtain ⟨_, _, _, _, _, came⟩ := SameDrops.lowered_record came
  exact keyed_body ⟨List.forall_mem_nil _, List.forall_mem_nil _⟩ came

end

theorem keyed_of_lower {g : Graph} {designs : List Design} (lowered : g.lower = .ok designs) :
    ∀ d ∈ designs, Keyed d := by
  intro d member
  obtain ⟨_, _, _, _, _, _, _, own⟩ := Origins.record_of_design lowered member
  exact keyed_ofRecord own

/-! ## What a design makes of a document -/

section

variable {d : Design} {context : Context}

theorem idFor_named {id : String} (came : d.idFor context = .ok id) : id ≠ "" := by
  unfold Design.idFor at came
  split at came
  · cases came
  · split at came
    · cases came
    · split at came
      · cases came
      · split_ifs at came with empty
        cases came
        simpa using empty

theorem pidFor_design_named {pid : String} (came : d.pidFor context = .ok (some pid)) : pid ≠ "" := by
  unfold Design.pidFor at came
  split at came
  · cases came
  · split at came
    · injection came with found
      simpa using (Option.filter_eq_some_iff.mp found).2
    · cases came

theorem wellFormed_values {tolerable : List ErrorKind} {entries : List (String × Evaluator)} {acc acc' : Record × Nat}
    (fit : WellFormed acc.1) (named : ∀ entry ∈ entries, entry.1 ≠ "")
    (added : entries.foldlM (d.addTo tolerable context) acc = .ok acc') : WellFormed acc'.1 := by
  refine foldlM_keeps (P := fun now => WellFormed now.1) added (fun entry inside before after came fit => ?_) fit
  unfold Design.addTo at came
  split at came
  · cases came
    exact wellFormed_addValue fit (named entry inside) _
  · split_ifs at came
    cases came
    exact fit

end

/-- A design with keys records well-formed records. -/
theorem wellFormed_of_made {tolerable : List ErrorKind} {pair : Design × Nat × Json} {d : Design} {record : Record}
    (keyed : Keyed pair.1) (made : made? tolerable pair = some (d, record)) : WellFormed record := by
  unfold made? applyPair at made
  split at made
  · next rules dropped applied =>
    cases made
    obtain ⟨pid, _, named, identified, folded, _⟩ := apply_recorded applied
    have id : record.id ≠ "" := idFor_named named
    have fresh : WellFormed ⟨record.id, pid, []⟩ := by
      refine ⟨id, ?_, .nil, List.forall_mem_nil _, List.forall_mem_nil _⟩
      cases pid with
      | none => exact id
      | some pid => exact pidFor_design_named identified
    refine wellFormed_values fresh ?_ folded
    intro entry inside
    obtain ⟨group, member, inside⟩ := List.mem_flatMap.mp inside
    obtain ⟨_, _, rfl⟩ := List.mem_map.mp inside
    exact keyed.values _ (List.mem_map_of_mem member)
  · cases made

/-! ## Runs -/

theorem mem_putAll {new rules : List Rule} {rule : Rule} (member : rule ∈ Rule.putAll new rules) :
    rule ∈ new ∨ rule ∈ rules := by
  induction new generalizing rules with
  | nil => exact .inr member
  | cons r rest ih =>
    rcases @ih (r.put rules) member with later | earlier
    · exact .inl (List.mem_cons_of_mem _ later)
    · rcases mem_put earlier with rfl | old
      · exact .inl List.mem_cons_self
      · exact .inr old

theorem mem_putRecord {record r : Record} {rs : List Record} (member : r ∈ putRecord record rs) :
    r = record ∨ r ∈ rs := by
  induction rs with
  | nil => exact .inl (List.mem_singleton.mp member)
  | cons first rest ih =>
    unfold putRecord at member
    split_ifs at member
    · exact (List.mem_cons.mp member).imp_right (List.mem_cons_of_mem _)
    · rcases List.mem_cons.mp member with rfl | member
      · exact .inr List.mem_cons_self
      · exact (ih member).imp_right (List.mem_cons_of_mem _)

/-- A state of a run with well-formed records, whose rules say under which key to link back. -/
structure Fit (s : State) : Prop where
  records : ∀ r ∈ s.records, WellFormed r
  rules : ∀ rule ∈ s.rules, rule.backward ≠ ""

section

variable {tolerable : List ErrorKind} {s s' : State}

theorem fit_step {pair : Design × Nat × Json} (keyed : Keyed pair.1) (fit : Fit s)
    (stepped : step tolerable s pair = .ok s') : Fit s' := by
  rcases step_cases stepped with ⟨_, records, rules⟩ | ⟨record, made, records, rules⟩
  · refine ⟨?_, ?_⟩
    · rw [records]
      exact fit.records
    · rw [rules]
      exact fit.rules
  · refine ⟨?_, ?_⟩
    · intro r member
      rw [records] at member
      rcases mem_putRecord member with rfl | old
      · exact wellFormed_of_made keyed made
      · exact fit.records r old
    · intro rule member
      rw [rules] at member
      rcases mem_putAll member with own | old
      · rcases mem_putAll own with declared | none
        · obtain ⟨link, inside, rfl⟩ := List.mem_map.mp declared
          exact keyed.backlinks link inside
        · cases none
      · exact fit.rules rule old

theorem fit_pairs {ps : List (Design × Nat × Json)} (keyed : ∀ pair ∈ ps, Keyed pair.1) (fit : Fit s)
    (ran : ps.foldlM (step tolerable) s = .ok s') : Fit s' :=
  foldlM_keeps ran (fun pair inside _ _ stepped fit => fit_step (keyed pair inside) fit stepped) fit

/-- What is inferred has the key of a rule and the id of a record. -/
theorem wellFormed_inferBacklinks (fit : Fit s) (distinct : DistinctIds s.records) :
    ∀ r ∈ (inferBacklinks s.records s.rules).1, WellFormed r := by
  rw [inferBacklinks, records_addLinks distinct]
  intro r extended
  obtain ⟨own, member, rfl⟩ := List.mem_map.mp extended
  rw [received_links]
  refine wellFormed_addEntries (fit.records own member) ?_ ?_
  · intro e inside
    obtain ⟨link, isAsked, rfl⟩ := List.mem_map.mp inside
    obtain ⟨_, _, rule, inForce, _, _, rfl⟩ := mem_asked.mp isAsked
    exact fit.rules rule inForce
  · intro e inside
    obtain ⟨link, isAsked, rfl⟩ := List.mem_map.mp inside
    obtain ⟨sender, sends, _, _, _, _, rfl⟩ := mem_asked.mp isAsked
    exact (fit.records sender sends).id

end

/-- The records that the designs of a graph make of documents are well formed, backlinks included, and each is
found under its own id alone. -/
theorem graph_well_formed {g : Graph} {designs : List Design} (lowered : g.lower = .ok designs)
    {tolerable : List ErrorKind} {documents : List Json} {result : RecordGraph}
    (ran : run designs tolerable documents = .ok result) :
    (∀ r ∈ result.records, WellFormed r) ∧
      ∀ id r, result.get? id = some r ↔ r ∈ result.records ∧ r.id = id := by
  obtain ⟨s, folded, records⟩ := run_eq_ok ran
  have distinct : DistinctIds s.records := distinctIds_of_pairs folded List.nodup_nil
  have keyed := keyed_of_lower lowered
  have fit : Fit s := fit_pairs (fun pair inside => keyed pair.1 (Orders.design_of_pairs pair inside))
    ⟨List.forall_mem_nil _, List.forall_mem_nil _⟩ folded
  constructor
  · rw [records]
    exact wellFormed_inferBacklinks fit distinct
  · have distinct' : DistinctIds result.records := by
      rw [records, DistinctIds, records_inferBacklinks distinct, List.map_map]
      exact distinct
    exact find_iff_of_distinctIds distinct'

/-- A record with a value of each kind, and a link that is answered. -/
def measurement : Graph :=
  ⟨[[.record "measurement" (some (.fieldQuery "i" .pointer "/id")) none
      [.attr "a" (some (.literal "k" (.text "value"))) (some (.fieldQuery "v" .pointer "/values")),
        .attr "b" (some (.literal "l" (.text "repeats"))) (some (.fieldQuery "w" .pointer "/repeats")),
        .attr "c" (some (.literal "m" (.text "repeatedBy"))) (some (.backlink "x" (some (.literal "n" (.text "repeats")))))]]]⟩

/-- Measurements of which the second repeats the first; the double `1.0` is the number 1 once more. -/
def measured : List Json :=
  [.obj [("id", .str "A"), ("repeats", .null),
      ("values", .arr [.num (.int 1), .num (.float ⟨false, 1023 * 2 ^ 52, by decide⟩), .str "", .arr [.bool true, .null]])],
    .obj [("id", .num (.int 2)), ("repeats", .str "A"), ("values", .obj [("unit", .str "m")])]]

theorem measured_well_formed :
    ∃ designs result, measurement.lower = .ok designs ∧ run designs [] measured = .ok result ∧
      result.records.map Record.entries =
        [[⟨"value", .number (.int 1)⟩, ⟨"value", .truth true⟩, ⟨"repeatedBy", .text "2"⟩],
          [⟨"value", .text "\x7b\x22unit\x22:\x22m\x22\x7d"⟩, ⟨"repeats", .text "A"⟩]] ∧
      (∀ r ∈ result.records, WellFormed r) := by
  obtain ⟨designs, result, lowered, ran, entries⟩ : ∃ designs result, measurement.lower = .ok designs ∧
      run designs [] measured = .ok result ∧ result.records.map Record.entries =
        [[⟨"value", .number (.int 1)⟩, ⟨"value", .truth true⟩, ⟨"repeatedBy", .text "2"⟩],
          [⟨"value", .text "\x7b\x22unit\x22:\x22m\x22\x7d"⟩, ⟨"repeats", .text "A"⟩]] :=
    ⟨_, _, rfl, rfl, rfl⟩
  exact ⟨designs, result, lowered, ran, entries, (graph_well_formed lowered ran).1⟩

end RecordMapper.Proofs.WellFormedRecords
