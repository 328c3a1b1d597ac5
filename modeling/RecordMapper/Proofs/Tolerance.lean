import RecordMapper.Proofs.Orders

/-!
# Tolerated failures

Evaluators that are registered one after the other are evaluated key by key (`evaluators_built`). A record is
made if none of them fails in a way that is not tolerated, and then holds what the others come to
(`foldlM_addTo_iff`): the same as if those that fail were not there. So what is tolerated decides whether a
result is handed on, and never what it is (`tolerance_only_drops`).
-/

namespace RecordMapper.Proofs.Tolerance
open RecordMapper.Run RecordMapper.Proofs.Runs RecordMapper.Proofs.InferencePass RecordMapper.Proofs.Orders
  RecordMapper.Proofs.SameDrops

/-! ## What is registered -/

/-- The evaluators among sources, each with its key, in order. -/
def valuesIn : List (String × Source) → List (String × Evaluator)
  | [] => []
  | (key, .value e) :: rest => (key, e) :: valuesIn rest
  | (_, .backlink _) :: rest => valuesIn rest

/-- The backlinks among sources, in order. -/
def linksIn : List (String × Source) → List (String × String)
  | [] => []
  | (_, .value _) :: rest => linksIn rest
  | (key, .backlink forward) :: rest => (forward, key) :: linksIn rest

/-- Evaluators key by key: the keys in the order in which they first come, and under each its evaluators in
order. -/
def keyByKey (values : List (String × Evaluator)) : List (String × Evaluator) :=
  (values.map (·.1)).eraseDups.flatMap fun key => values.filter fun entry => entry.1 == key

/-- The evaluators of a key. -/
def underKey (values : List (String × Evaluator)) (key : String) : List Evaluator :=
  (values.filter fun entry => entry.1 == key).map (·.2)

/-- The groups of evaluators by key. -/
def groupsOf (values : List (String × Evaluator)) : List (String × List Evaluator) :=
  (values.map (·.1)).eraseDups.map fun key => (key, underKey values key)

theorem flatMap_filter_perm {keys : List String} (distinct : keys.Nodup) (values : List (String × Evaluator)) :
    (keys.flatMap fun key => values.filter fun entry => entry.1 == key).Perm
      (values.filter fun entry => decide (entry.1 ∈ keys)) := by
  induction keys with
  | nil => simp
  | cons key rest ih =>
    obtain ⟨alone, distinct⟩ := List.nodup_cons.mp distinct
    -- what stands under the first key stands under none of the others
    have first : (values.filter fun entry => decide (entry.1 ∈ key :: rest)).filter (fun entry => entry.1 == key) =
        values.filter fun entry => entry.1 == key := by
      rw [List.filter_filter]
      exact List.filter_congr fun entry _ => by simp +contextual
    have others : (values.filter fun entry => decide (entry.1 ∈ key :: rest)).filter
        (fun entry => !(entry.1 == key)) = values.filter fun entry => decide (entry.1 ∈ rest) := by
      rw [List.filter_filter]
      refine List.filter_congr fun entry _ => ?_
      by_cases same : entry.1 = key
      · simp [same, alone]
      · simp [same]
    rw [List.flatMap_cons]
    refine ((ih distinct).append_left _).trans ?_
    rw [← first, ← others]
    exact List.filter_append_perm _ _

theorem keyByKey_perm (values : List (String × Evaluator)) : (keyByKey values).Perm values := by
  refine (flatMap_filter_perm (nodup_eraseDups _) values).trans (.of_eq ?_)
  rw [List.filter_eq_self]
  intro entry inside
  rw [decide_eq_true_iff, List.mem_eraseDups]
  exact List.mem_map_of_mem inside

theorem eraseDups_concat (xs : List String) (x : String) :
    (xs ++ [x]).eraseDups = if x ∈ xs then xs.eraseDups else xs.eraseDups ++ [x] := by
  rw [List.eraseDups_append]
  split_ifs with present
  · simp [List.removeAll, present]
  · simp [List.removeAll, present, List.eraseDups_cons]

theorem addEvaluator_map {keys : List String} (distinct : keys.Nodup) {key : String} (e : Evaluator)
    {group : String → List Evaluator} (fresh : key ∉ keys → group key = []) :
    Design.addEvaluator key e (keys.map fun k => (k, group k)) =
      (if key ∈ keys then keys else keys ++ [key]).map fun k => (k, group k ++ if k = key then [e] else []) := by
  induction keys with
  | nil => simp [Design.addEvaluator, fresh]
  | cons k rest ih =>
    obtain ⟨alone, distinct⟩ := List.nodup_cons.mp distinct
    rw [List.map_cons, Design.addEvaluator]
    split_ifs with here inside inside
    · subst here
      have others : ∀ k' ∈ rest, (k', group k') = (k', group k' ++ if k' = k then [e] else []) := by
        intro k' member
        have apart : k' ≠ k := fun same => alone (same ▸ member)
        rw [if_neg apart, List.append_nil]
      rw [List.map_cons, if_pos rfl, List.map_congr_left others]
    · exact absurd (here ▸ List.mem_cons_self) inside
    · have below := (List.mem_cons.mp inside).resolve_left (Ne.symm here)
      rw [ih distinct fun absent => absurd below absent, if_pos below, List.map_cons, if_neg here, List.append_nil]
    · have below := (not_or.mp (List.mem_cons.not.mp inside)).2
      rw [ih distinct fun _ => fresh inside, if_neg below, List.cons_append, List.map_cons, if_neg here,
        List.append_nil]

theorem addEvaluator_groupsOf (values : List (String × Evaluator)) (key : String) (e : Evaluator) :
    Design.addEvaluator key e (groupsOf values) = groupsOf (values ++ [(key, e)]) := by
  have fresh : key ∉ (values.map (·.1)).eraseDups → underKey values key = [] := by
    intro absent
    rw [underKey, List.map_eq_nil_iff, List.filter_eq_nil_iff]
    intro entry inside same
    exact absent (List.mem_eraseDups.mpr (List.mem_map.mpr ⟨entry, inside, by simpa using same⟩))
  have under (k : String) :
      underKey (values ++ [(key, e)]) k = underKey values k ++ if k = key then [e] else [] := by
    rw [underKey, List.filter_append, List.map_append, ← underKey]
    by_cases same : k = key
    · simp [same]
    · simp [same, Ne.symm same]
  rw [groupsOf, addEvaluator_map (nodup_eraseDups _) e fresh, groupsOf, List.map_append, List.map_singleton,
    eraseDups_concat]
  simp only [under, List.mem_eraseDups]

theorem attributes_addSources (sources : List (String × Source)) {d : Design} {values : List (String × Evaluator)}
    (grouped : d.attributes = groupsOf values) :
    (addSources sources d).attributes = groupsOf (values ++ valuesIn sources) := by
  induction sources generalizing d values with
  | nil => simpa [addSources, valuesIn] using grouped
  | cons entry rest ih =>
    obtain ⟨key, source⟩ := entry
    have later : addSources ((key, source) :: rest) d = addSources rest (d.add key source) := rfl
    rw [later]
    cases source with
    | value e =>
      have added : (d.add key (.value e)).attributes = groupsOf (values ++ [(key, e)]) := by
        rw [← addEvaluator_groupsOf, ← grouped]
        rfl
      rw [ih added, valuesIn, List.append_assoc, List.singleton_append]
    | backlink forward =>
      have unchanged : (d.add key (.backlink forward)).attributes = groupsOf values := by
        rw [← grouped, Design.add]
        split_ifs <;> rfl
      rw [ih unchanged, valuesIn]

theorem backlinks_addSources (sources : List (String × Source)) (d : Design) :
    (addSources sources d).backlinks =
      (linksIn sources).foldl (fun links link => if link ∈ links then links else links ++ [link]) d.backlinks := by
  induction sources generalizing d with
  | nil => rfl
  | cons entry rest ih =>
    obtain ⟨key, source⟩ := entry
    have later : addSources ((key, source) :: rest) d = addSources rest (d.add key source) := rfl
    rw [later, ih]
    cases source with
    | value e => rfl
    | backlink forward =>
      rw [linksIn, List.foldl_cons, Design.add]
      split_ifs <;> rfl

/-- A design as it is built: sources registered under keys one after the other. -/
def built (name : String) (own pid skip : Option Evaluator) (sources : List (String × Source)) : Design :=
  addSources sources ⟨name, own, pid, skip, [], []⟩

section

variable (name : String) (own pid skip : Option Evaluator) (sources : List (String × Source))

/-- The evaluators of a design come key by key. -/
theorem evaluators_built : (built name own pid skip sources).evaluators = keyByKey (valuesIn sources) := by
  have grouped : (built name own pid skip sources).attributes = groupsOf ([] ++ valuesIn sources) :=
    attributes_addSources sources rfl
  rw [Design.evaluators, grouped, groupsOf, List.nil_append, List.flatMap_map, keyByKey]
  refine List.flatMap_congr fun key _ => ?_
  -- what stands under a key has that key
  have keyed : ∀ entry ∈ (valuesIn sources).filter fun entry => entry.1 == key, (key, entry.2) = id entry := by
    intro entry inside
    obtain rfl : entry.1 = key := by simpa using (List.mem_filter.mp inside).2
    rfl
  calc (underKey (valuesIn sources) key).map (key, ·)
    _ = ((valuesIn sources).filter fun entry => entry.1 == key).map id := by
      rw [underKey, List.map_map]
      exact List.map_congr_left keyed
    _ = (valuesIn sources).filter fun entry => entry.1 == key := List.map_id _

end

/-! ## One document -/

/-- The entries that evaluators offer: those of the values that they come to, in order. -/
def offered (c : Context) (entries : List (String × Evaluator)) : List Entry :=
  entries.flatMap fun entry =>
    match entry.2 c with
    | .ok value => Record.entriesOf entry.1 value
    | .error _ => []

/-- Whether an evaluator fails. -/
def fails (c : Context) (entry : String × Evaluator) : Bool := !(entry.2 c).isOk

/-- No evaluator fails in a way that is not tolerated. -/
def Tolerated (tolerable : List ErrorKind) (c : Context) (entries : List (String × Evaluator)) : Prop :=
  ∀ entry ∈ entries, ∀ cause, entry.2 c = .error cause → cause.kind ∈ tolerable

section

variable {c : Context} {entry : String × Evaluator}

theorem offered_cons_of_ok {value : Json} (outcome : entry.2 c = .ok value) (rest : List (String × Evaluator)) :
    offered c (entry :: rest) = Record.entriesOf entry.1 value ++ offered c rest := by
  rw [offered, List.flatMap_cons, outcome, ← offered]

theorem offered_cons_of_error {cause : EvalError} (outcome : entry.2 c = .error cause)
    (rest : List (String × Evaluator)) : offered c (entry :: rest) = offered c rest := by
  rw [offered, List.flatMap_cons, outcome, List.nil_append, ← offered]

theorem fails_of_ok {value : Json} (outcome : entry.2 c = .ok value) : fails c entry = false := by
  rw [fails, outcome]
  rfl

theorem fails_of_error {cause : EvalError} (outcome : entry.2 c = .error cause) : fails c entry = true := by
  rw [fails, outcome]
  rfl

end

theorem foldlM_addTo_iff {d : Design} {tolerable : List ErrorKind} {c : Context}
    {entries : List (String × Evaluator)} {acc acc' : Record × Nat} :
    entries.foldlM (d.addTo tolerable c) acc = .ok acc' ↔
      Tolerated tolerable c entries ∧
        acc' = (acc.1.addEntries (offered c entries), acc.2 + entries.countP (fails c)) := by
  induction entries generalizing acc with
  | nil =>
    rw [Tolerated]
    simp [Record.addEntries, offered, pure, Except.pure, eq_comm]
  | cons entry rest ih =>
    rw [List.foldlM_cons, Tolerated, List.forall_mem_cons, ← Tolerated, List.countP_cons, Design.addTo]
    cases outcome : entry.2 c with
    | ok value =>
      refine (@ih (acc.1.addValue entry.1 value, acc.2)).trans ?_
      simp [fails_of_ok outcome, offered_cons_of_ok outcome, Record.addValue, Record.addEntries]
    | error cause =>
      rw [fails_of_error outcome, if_pos rfl]
      by_cases kind : cause.kind ∈ tolerable
      · dsimp only
        rw [if_pos kind]
        refine (@ih (acc.1, acc.2 + 1)).trans ?_
        have counted : acc.2 + 1 + rest.countP (fails c) = acc.2 + (rest.countP (fails c) + 1) := by omega
        simp [offered_cons_of_error outcome, kind, counted]
      · simp [kind, bind, Except.bind]

/-- A design does not skip a document, and gives its record an id and perhaps a persistent identifier. -/
structure TakesOn (d : Design) (c : Context) (id : String) (pid : Option String) : Prop where
  unskipped : d.skips c = .ok false
  named : d.idFor c = .ok id
  identified : d.pidFor c = .ok pid

/-- A record is made exactly if the document is taken on and all failures are tolerated; it holds what the
evaluators offer. -/
theorem apply_recorded_iff {d : Design} {tolerable : List ErrorKind} {index : Nat} {document : Json}
    {record : Record} {rules : List Rule} {dropped : Nat} :
    d.apply tolerable index document = .ok (.recorded record rules dropped) ↔
      ∃ id pid, TakesOn d ⟨document, index, d.name⟩ id pid ∧
        Tolerated tolerable ⟨document, index, d.name⟩ d.evaluators ∧
        record = (⟨id, pid, []⟩ : Record).addEntries (offered ⟨document, index, d.name⟩ d.evaluators) ∧
        rules = d.rulesFor id ∧ dropped = d.evaluators.countP (fails ⟨document, index, d.name⟩) := by
  constructor
  · intro applied
    obtain ⟨pid, skips, named, identified, folded, rules⟩ := apply_recorded applied
    obtain ⟨tolerated, made⟩ := foldlM_addTo_iff.mp folded
    obtain ⟨filled, counted⟩ := Prod.ext_iff.mp made
    rw [Nat.zero_add] at counted
    exact ⟨_, pid, ⟨skips, named, identified⟩, tolerated, filled, rules, counted⟩
  · rintro ⟨id, pid, ⟨skips, named, identified⟩, tolerated, rfl, rfl, rfl⟩
    have folded := (@foldlM_addTo_iff d tolerable _ _ (⟨id, pid, []⟩, 0) _).mpr ⟨tolerated, rfl⟩
    rw [Nat.zero_add] at folded
    simp [Design.apply, skips, named, identified, folded, bind, Except.bind]

theorem apply_skipped_iff {d : Design} {tolerable : List ErrorKind} {index : Nat} {document : Json} :
    d.apply tolerable index document = .ok .skipped ↔ d.skips ⟨document, index, d.name⟩ = .ok true := by
  constructor
  · intro applied
    obtain ⟨skipped, skips, applied⟩ := bind_eq_ok applied
    cases skipped with
    | true => exact skips
    | false =>
      obtain ⟨_, _, applied⟩ := bind_eq_ok applied
      obtain ⟨_, _, applied⟩ := bind_eq_ok applied
      obtain ⟨_, _, applied⟩ := bind_eq_ok applied
      cases applied
  · intro skips
    simp [Design.apply, skips, bind, Except.bind]

/-! ## Tolerating more -/

section

variable {tolerable more : List ErrorKind} (wider : tolerable ⊆ more)
include wider

theorem apply_mono {d : Design} {index : Nat} {document : Json} {applied : Applied}
    (came : d.apply tolerable index document = .ok applied) : d.apply more index document = .ok applied := by
  cases applied with
  | skipped => exact apply_skipped_iff.mpr (apply_skipped_iff.mp came)
  | recorded record rules dropped =>
    obtain ⟨id, pid, takesOn, tolerated, made⟩ := apply_recorded_iff.mp came
    have all : Tolerated more ⟨document, index, d.name⟩ d.evaluators := fun entry inside cause failed =>
      wider (tolerated entry inside cause failed)
    exact apply_recorded_iff.mpr ⟨id, pid, takesOn, all, made⟩

theorem run_mono {designs : List Design} {documents : List Json} {g : RecordGraph}
    (ran : run designs tolerable documents = .ok g) : run designs more documents = .ok g := by
  obtain ⟨as, came, made⟩ := run_eq_ok_iff.mp ran
  exact run_eq_ok_iff.mpr ⟨as, came.imp fun _ _ => apply_mono wider, made⟩

end

/-! ## Leaving out what fails -/

/-- The design without some of its evaluators. -/
def without (drop : String × Evaluator → Bool) (d : Design) : Design :=
  { d with attributes := d.attributes.map fun (key, es) => (key, es.filter fun e => !drop (key, e)) }

theorem evaluators_without (drop : String × Evaluator → Bool) (d : Design) :
    (without drop d).evaluators = d.evaluators.filter fun entry => !drop entry := by
  rw [Design.evaluators, Design.evaluators, without, List.flatMap_map, List.filter_flatMap]
  refine List.flatMap_congr fun group _ => ?_
  obtain ⟨key, es⟩ := group
  rw [List.filter_map]
  rfl

/-- The sources without the evaluators that fail. -/
def spared (c : Context) (sources : List (String × Source)) : List (String × Source) :=
  sources.filter fun
    | (key, .value e) => !fails c (key, e)
    | (_, .backlink _) => true

theorem valuesIn_spared (c : Context) (sources : List (String × Source)) :
    valuesIn (spared c sources) = (valuesIn sources).filter fun entry => !fails c entry := by
  induction sources with
  | nil => rfl
  | cons entry rest ih =>
    obtain ⟨key, e | forward⟩ := entry
    · rw [spared, List.filter_cons, valuesIn, List.filter_cons]
      split_ifs
      · rw [valuesIn, ← ih]
        rfl
      · exact ih
    · exact ih

theorem linksIn_spared (c : Context) (sources : List (String × Source)) :
    linksIn (spared c sources) = linksIn sources := by
  induction sources with
  | nil => rfl
  | cons entry rest ih =>
    obtain ⟨key, e | forward⟩ := entry
    · rw [spared, List.filter_cons, linksIn, ← ih]
      split_ifs <;> rfl
    · exact congrArg ((forward, key) :: ·) ih

theorem offered_spared (c : Context) (entries : List (String × Evaluator)) :
    offered c (entries.filter fun entry => !fails c entry) = offered c entries := by
  induction entries with
  | nil => rfl
  | cons entry rest ih =>
    cases outcome : entry.2 c with
    | ok value =>
      rw [List.filter_cons_of_pos (by simp [fails_of_ok outcome]), offered_cons_of_ok outcome, ih,
        offered_cons_of_ok outcome]
    | error cause =>
      rw [List.filter_cons_of_neg (by simp [fails_of_error outcome]), ih, offered_cons_of_error outcome]

theorem tolerated_spared (tolerable : List ErrorKind) (c : Context) (entries : List (String × Evaluator)) :
    Tolerated tolerable c (entries.filter fun entry => !fails c entry) := by
  intro entry inside cause failed
  have fine := (List.mem_filter.mp inside).2
  rw [fails_of_error failed] at fine
  cases fine

theorem countP_spared (c : Context) (entries : List (String × Evaluator)) :
    (entries.filter fun entry => !fails c entry).countP (fails c) = 0 := by
  rw [List.countP_eq_zero]
  intro entry inside
  simpa using (List.mem_filter.mp inside).2

theorem takesOn_congr {d d' : Design} (own : d'.id = d.id) (pid : d'.pid = d.pid) (skip : d'.skip = d.skip)
    (name : d'.name = d.name) {c : Context} {id : String} {identifier : Option String}
    (taken : TakesOn d c id identifier) : TakesOn d' c id identifier := by
  obtain ⟨skips, named, identified⟩ := taken
  refine ⟨?_, ?_, ?_⟩
  · rwa [Design.skips, skip, name]
  · rwa [Design.idFor, own, name]
  · rwa [Design.pidFor, pid, name]

/-- What fails adds nothing: with the evaluators that fail left out of it, a design makes the same record. -/
theorem apply_without {d : Design} {tolerable : List ErrorKind} {index : Nat} {document : Json} {record : Record}
    {rules : List Rule} {dropped : Nat}
    (applied : d.apply tolerable index document = .ok (.recorded record rules dropped)) (others : List ErrorKind) :
    (without (fails ⟨document, index, d.name⟩) d).apply others index document = .ok (.recorded record rules 0) := by
  obtain ⟨id, identifier, taken, _, filled, ruled, _⟩ := apply_recorded_iff.mp applied
  have same : (without (fails ⟨document, index, d.name⟩) d).name = d.name := rfl
  refine apply_recorded_iff.mpr ⟨id, identifier, ?_⟩
  rw [same, evaluators_without, offered_spared, countP_spared]
  refine ⟨takesOn_congr ?_ ?_ ?_ ?_ taken, tolerated_spared others _ _, filled, ruled, rfl⟩ <;> rfl

/-! ## Built designs -/

section

variable (name : String) (own pid skip : Option Evaluator) (sources : List (String × Source))

theorem name_built : (built name own pid skip sources).name = name :=
  (own_addSources sources _).1

theorem rulesFor_spared (c : Context) (id : String) :
    (built name own pid skip (spared c sources)).rulesFor id = (built name own pid skip sources).rulesFor id := by
  rw [Design.rulesFor, built, backlinks_addSources, linksIn_spared, Design.rulesFor, built, backlinks_addSources]

theorem takesOn_built {sources' : List (String × Source)} {c : Context} {id : String} {identifier : Option String}
    (taken : TakesOn (built name own pid skip sources) c id identifier) :
    TakesOn (built name own pid skip sources') c id identifier := by
  obtain ⟨nameBefore, ownBefore, pidBefore, skipBefore⟩ := own_addSources sources ⟨name, own, pid, skip, [], []⟩
  obtain ⟨nameAfter, ownAfter, pidAfter, skipAfter⟩ := own_addSources sources' ⟨name, own, pid, skip, [], []⟩
  exact takesOn_congr (ownAfter.trans ownBefore.symm) (pidAfter.trans pidBefore.symm)
    (skipAfter.trans skipBefore.symm) (nameAfter.trans nameBefore.symm) taken

end

theorem entries_fresh (id : String) (pid : Option String) (es : List Entry) :
    ((⟨id, pid, []⟩ : Record).addEntries es).entries = es.eraseDupsBy Entry.same := by
  have all : (es.filter fun e => (⟨id, pid, []⟩ : Record).lacks e) = es :=
    List.filter_eq_self.mpr fun _ _ => rfl
  rw [addEntries_eq, all, List.nil_append]

theorem tolerated_of_perm {tolerable : List ErrorKind} {c : Context} {entries entries' : List (String × Evaluator)}
    (moved : entries.Perm entries') (tolerated : Tolerated tolerable c entries) : Tolerated tolerable c entries' :=
  fun entry inside => tolerated entry (moved.mem_iff.mpr inside)

/-- Two records that hold the same, in whatever order. -/
structure SameContent (r r' : Record) : Prop where
  id : r.id = r'.id
  pid : r.ownPid = r'.ownPid
  holds : ∀ e, r.holds e = r'.holds e

theorem sameContent_of_perm (r : Record) {es es' : List Entry} (moved : es.Perm es') :
    SameContent (r.addEntries es) (r.addEntries es') := by
  refine ⟨?_, ?_, fun e => ?_⟩
  · rw [addEntries_eq, addEntries_eq]
  · rw [addEntries_eq, addEntries_eq]
  · rw [Bool.eq_iff_iff, holds_addEntries_iff, holds_addEntries_iff]
    simp only [moved.mem_iff]

theorem offered_keyByKey_spared (c : Context) (sources : List (String × Source)) :
    (offered c (keyByKey (valuesIn (spared c sources)))).Perm (offered c (keyByKey (valuesIn sources))) := by
  refine ((keyByKey_perm _).flatMap_right _).trans ?_
  rw [valuesIn_spared, ← offered, offered_spared]
  exact ((keyByKey_perm _).symm.flatMap_right _)

section

variable (name : String) (own pid skip : Option Evaluator) (sources : List (String × Source))

theorem apply_spared {tolerable : List ErrorKind} {index : Nat} {document : Json} {record : Record}
    {rules : List Rule} {dropped : Nat}
    (applied : (built name own pid skip sources).apply tolerable index document =
      .ok (.recorded record rules dropped)) :
    ∃ again, SameContent again record ∧ ∀ others,
      (built name own pid skip (spared ⟨document, index, name⟩ sources)).apply others index document =
        .ok (.recorded again rules 0) := by
  obtain ⟨id, identifier, taken, _, filled, ruled, _⟩ := apply_recorded_iff.mp applied
  rw [name_built, evaluators_built] at filled
  rw [name_built] at taken
  refine ⟨_, ?_, fun others => apply_recorded_iff.mpr ⟨id, identifier, ?_, ?_, rfl, ?_, ?_⟩⟩
  · rw [filled, evaluators_built, name_built]
    exact sameContent_of_perm _ (offered_keyByKey_spared _ sources)
  · rw [name_built]
    exact takesOn_built name own pid skip sources taken
  · rw [name_built, evaluators_built]
    refine tolerated_of_perm (keyByKey_perm _).symm ?_
    rw [valuesIn_spared]
    exact tolerated_spared others _ _
  · rw [ruled, rulesFor_spared]
  · rw [name_built, evaluators_built, (keyByKey_perm _).countP_eq, valuesIn_spared, countP_spared]

/-- What a built design makes of a document follows from its sources: the record holds what the evaluators
offer, key by key, each entry at its first place; what is dropped are the evaluators that fail, in tolerated
ways only; and without them the record is the same: left out of the design it is the same to the order, and the
same but for the order if they are never registered, since a key may then come first with a later evaluator. -/
structure RecordedFrom (tolerable : List ErrorKind) (index : Nat) (document : Json) (record : Record)
    (rules : List Rule) (dropped : Nat) : Prop where
  entries : record.entries =
    (offered ⟨document, index, name⟩ (keyByKey (valuesIn sources))).eraseDupsBy Entry.same
  dropped : dropped = (valuesIn sources).countP (fails ⟨document, index, name⟩)
  tolerated : Tolerated tolerable ⟨document, index, name⟩ (valuesIn sources)
  left : ∀ others, (without (fails ⟨document, index, name⟩) (built name own pid skip sources)).apply others index
    document = .ok (.recorded record rules 0)
  unregistered : ∃ again, SameContent again record ∧ ∀ others,
    (built name own pid skip (spared ⟨document, index, name⟩ sources)).apply others index document =
      .ok (.recorded again rules 0)

theorem recordedFrom_of_apply {tolerable : List ErrorKind} {index : Nat} {document : Json} {record : Record}
    {rules : List Rule} {dropped : Nat}
    (applied : (built name own pid skip sources).apply tolerable index document =
      .ok (.recorded record rules dropped)) :
    RecordedFrom name own pid skip sources tolerable index document record rules dropped := by
  obtain ⟨_, _, _, tolerated, filled, _, counted⟩ := apply_recorded_iff.mp applied
  have left := apply_without applied
  rw [name_built, evaluators_built] at filled tolerated counted
  rw [name_built] at left
  refine ⟨?_, ?_, tolerated_of_perm (keyByKey_perm _) tolerated, left, apply_spared name own pid skip sources applied⟩
  · rw [filled, entries_fresh]
  · rw [counted, (keyByKey_perm _).countP_eq]

/-- Tolerated failures only drop values, so that tolerating more leaves every result that there is as it is. -/
theorem tolerance_only_drops (tolerable : List ErrorKind) :
    (∀ index document record rules dropped, (built name own pid skip sources).apply tolerable index document =
        .ok (.recorded record rules dropped) →
      RecordedFrom name own pid skip sources tolerable index document record rules dropped) ∧
    ∀ more, tolerable ⊆ more →
      (∀ (d : Design) index document applied, d.apply tolerable index document = .ok applied →
        d.apply more index document = .ok applied) ∧
      ∀ designs documents g, run designs tolerable documents = .ok g → run designs more documents = .ok g :=
  ⟨fun _ _ _ _ _ => recordedFrom_of_apply name own pid skip sources, fun _ wider =>
    ⟨fun _ _ _ _ => apply_mono wider, fun _ _ _ => run_mono wider⟩⟩

end

/-- The sources of a label: its first title may be missing, and its tags come as nested lists. -/
def labelled : List (String × Source) :=
  [("title", .value (Evaluator.pointer "/title")), ("tag", .value (Evaluator.pointer "/tags")),
    ("tag", .backlink "taggedBy"), ("title", .value (Evaluator.const (.str "untitled"))),
    ("tag", .value (Evaluator.const (.arr [.str "wet", .str "dry"])))]

/-- Some tags, and no title. -/
def sheet : Json := .obj [("tags", .arr [.arr [.str "dry", .str "", .null], .str "dry", .bool true])]

theorem sheet_recorded :
    let design := built "label" (some (Evaluator.const (.str "L"))) none none labelled
    [.queryNotFound] ⊆ ErrorKind.defaultTolerable ∧
      ∃ record rules g, design.apply [.queryNotFound] 0 sheet = .ok (.recorded record rules 1) ∧
        record.entries = [⟨"title", .text "untitled"⟩, ⟨"tag", .text "dry"⟩, ⟨"tag", .truth true⟩,
          ⟨"tag", .text "wet"⟩] ∧
        RecordedFrom "label" (some (Evaluator.const (.str "L"))) none none labelled [.queryNotFound] 0 sheet record
          rules 1 ∧
        design.apply ErrorKind.defaultTolerable 0 sheet = .ok (.recorded record rules 1) ∧
        run [design] [.queryNotFound] [sheet] = .ok g ∧ run [design] ErrorKind.defaultTolerable [sheet] = .ok g := by
  intro design
  have wider : [.queryNotFound] ⊆ ErrorKind.defaultTolerable := by decide
  obtain ⟨record, rules, g, applied, held, ran⟩ : ∃ record rules g,
      design.apply [.queryNotFound] 0 sheet = .ok (.recorded record rules 1) ∧
        record.entries = [⟨"title", .text "untitled"⟩, ⟨"tag", .text "dry"⟩, ⟨"tag", .truth true⟩,
          ⟨"tag", .text "wet"⟩] ∧
        run [design] [.queryNotFound] [sheet] = .ok g :=
    ⟨_, _, _, rfl, rfl, rfl⟩
  obtain ⟨recorded, tolerating⟩ := tolerance_only_drops "label" (some (Evaluator.const (.str "L"))) none none labelled
    [.queryNotFound]
  obtain ⟨applies, runs⟩ := tolerating _ wider
  exact ⟨wider, record, rules, g, applied, held, recorded _ _ _ _ _ applied, applies _ _ _ _ applied, ran,
    runs _ _ _ ran⟩

end RecordMapper.Proofs.Tolerance
