import Mathlib.Data.List.Perm.Basic
import Mathlib.Data.List.ProdSigma
import RecordMapper.Proofs.InferencePass
import RecordMapper.Proofs.Reading

/-!
# The order of documents and designs

A run goes through its pairs of a design and a document in order, and the order shows in the records:
they stand as they first came, and of two with one id the later one stays. If all ids are apart, nothing
but this order of presentation depends on the order of the designs and of the documents, and whether a
run succeeds never does (`order_immaterial`).
-/

namespace RecordMapper.Proofs.Orders
open RecordMapper.Run RecordMapper.Proofs.Runs RecordMapper.Proofs.InferencePass RecordMapper.Proofs.Reading

/-! ## Runs by what their pairs come to -/

/-- The record that was made, if any. -/
def recordOf : Applied → Option Record
  | .skipped => none
  | .recorded record _ _ => some record

/-- The rules that were given. -/
def rulesOf : Applied → List Rule
  | .skipped => []
  | .recorded _ rules _ => rules

/-- The number of values that were dropped in all. -/
def droppedIn : List Applied → Nat
  | [] => 0
  | .skipped :: rest => droppedIn rest
  | .recorded _ _ dropped :: rest => dropped + droppedIn rest

private theorem droppedIn_cons (a : Applied) (rest : List Applied) :
    droppedIn (a :: rest) = droppedIn [a] + droppedIn rest := by
  cases a <;> simp [droppedIn]

theorem droppedIn_append (first later : List Applied) : droppedIn (first ++ later) = droppedIn first + droppedIn later := by
  induction first with
  | nil => simp [droppedIn]
  | cons a rest ih =>
    rw [List.cons_append, droppedIn_cons, ih, droppedIn_cons a rest]
    omega

theorem droppedIn_perm {as as' : List Applied} (moved : as.Perm as') : droppedIn as = droppedIn as' := by
  induction moved with
  | nil => rfl
  | cons a _ ih => rw [droppedIn_cons, ih, ← droppedIn_cons]
  | swap a b rest =>
    have one := droppedIn_cons b (a :: rest)
    have other := droppedIn_cons a (b :: rest)
    have oneRest := droppedIn_cons a rest
    have otherRest := droppedIn_cons b rest
    omega
  | trans _ _ first second => exact first.trans second

/-- The pairs come to this, each in its turn. -/
def Comes (tolerable : List ErrorKind) : List (Design × Nat × Json) → List Applied → Prop :=
  List.Forall₂ fun pair applied => applyPair tolerable pair = .ok applied

theorem foldlM_step_iff {tolerable : List ErrorKind} {ps : List (Design × Nat × Json)} {s s' : State} :
    ps.foldlM (step tolerable) s = .ok s' ↔ ∃ as, Comes tolerable ps as ∧ s' = as.foldl State.add s := by
  induction ps generalizing s with
  | nil =>
    constructor
    · intro folded
      cases folded
      exact ⟨[], .nil, rfl⟩
    · rintro ⟨as, each, rfl⟩
      cases each
      rfl
  | cons pair rest ih =>
    constructor
    · intro folded
      obtain ⟨mid, stepped, folded⟩ := foldlM_cons_ok folded
      obtain ⟨as, each, rfl⟩ := ih.mp folded
      rw [step] at stepped
      cases came : pair.1.apply tolerable pair.2.1 pair.2.2 with
      | error cause => simp [came] at stepped
      | ok applied =>
        simp only [came] at stepped
        cases stepped
        exact ⟨applied :: as, .cons came each, rfl⟩
    · rintro ⟨as, each, rfl⟩
      obtain ⟨applied, later, came, others, rfl⟩ := List.forall₂_cons_left_iff.mp each
      have stepped : step tolerable s pair = .ok (s.add applied) := by
        unfold step
        rw [applyPair] at came
        simp [came]
      rw [List.foldlM_cons, stepped]
      exact ih.mpr ⟨later, others, rfl⟩

/-- The graph of a run that came to a state. -/
def graphOf (designs documents : Nat) (s : State) : RecordGraph :=
  let (records, inferred) := inferBacklinks s.records s.rules
  ⟨records, ⟨designs, documents, records.length, s.skipped, s.dropped, inferred, s.replaced⟩⟩

theorem run_eq (designs : List Design) (tolerable : List ErrorKind) (documents : List Json) :
    run designs tolerable documents =
      ((pairs designs documents).foldlM (step tolerable) State.start).map (graphOf designs.length documents.length) := by
  unfold run
  cases (pairs designs documents).foldlM (step tolerable) State.start <;> rfl

theorem run_eq_ok_iff {designs : List Design} {tolerable : List ErrorKind} {documents : List Json} {r : RecordGraph} :
    run designs tolerable documents = .ok r ↔ ∃ as, Comes tolerable (pairs designs documents) as ∧
      r = graphOf designs.length documents.length (as.foldl State.add State.start) := by
  unfold run
  constructor
  · intro ran
    obtain ⟨s, folded, ran⟩ := bind_eq_ok ran
    obtain ⟨as, each, rfl⟩ := foldlM_step_iff.mp folded
    cases ran
    exact ⟨as, each, rfl⟩
  · rintro ⟨as, each, rfl⟩
    rw [foldlM_step_iff.mpr ⟨as, each, rfl⟩]
    rfl

/-! ## Pairs in another order -/

/-- What a design comes to on a document, wherever the document stands. -/
def ComesTo (tolerable : List ErrorKind) (pair : Design × Json) (applied : Applied) : Prop :=
  pair.1.apply tolerable 0 pair.2 = .ok applied

private theorem pairs_map (designs : List Design) (documents : List Json) :
    (pairs designs documents).map (fun pair => (pair.1, pair.2.2)) = designs ×ˢ documents := by
  rw [pairs, List.map_flatMap]
  refine List.flatMap_congr fun d _ => ?_
  rw [List.map_map]
  have placeless : documents.zipIdx.map ((d, ·.1)) = (documents.zipIdx.map Prod.fst).map (Prod.mk d) := by
    rw [List.map_map]
    rfl
  rw [List.zipIdx_map_fst] at placeless
  exact placeless

theorem design_of_pairs {designs : List Design} {documents : List Json} :
    ∀ pair ∈ pairs designs documents, pair.1 ∈ designs := by
  intro pair inside
  obtain ⟨d, member, inside⟩ := List.mem_flatMap.mp inside
  obtain ⟨_, _, rfl⟩ := List.mem_map.mp inside
  exact member

theorem comes_iff {designs : List Design} (read : ∀ d ∈ designs, ReadsDocument d) (tolerable : List ErrorKind)
    (documents : List Json) (as : List Applied) :
    Comes tolerable (pairs designs documents) as ↔ List.Forall₂ (ComesTo tolerable) (designs ×ˢ documents) as := by
  have own : ∀ pair ∈ pairs designs documents, pair.1 ∈ designs := design_of_pairs
  rw [← pairs_map, List.forall₂_map_left_iff, Comes]
  have moved (pair : Design × Nat × Json) (member : pair.1 ∈ designs) (applied : Applied) :
      applyPair tolerable pair = .ok applied ↔ ComesTo tolerable (pair.1, pair.2.2) applied :=
    apply_moved_iff (read pair.1 member) tolerable pair.2.1 0 pair.2.2 applied
  constructor
  · intro each
    refine ((List.forall₂_and_left _ _).mpr ⟨own, each⟩).imp ?_
    exact fun {pair applied} both => (moved pair both.1 applied).mp both.2
  · intro each
    refine ((List.forall₂_and_left _ _).mpr ⟨own, each⟩).imp ?_
    exact fun {pair applied} both => (moved pair both.1 applied).mpr both.2

private theorem comesTo_unique {tolerable : List ErrorKind} : Relator.RightUnique (ComesTo tolerable) := by
  intro pair applied applied' came came'
  rw [ComesTo] at came came'
  exact Except.ok.inj (came.symm.trans came')

section

variable {designs designs' : List Design} {documents documents' : List Json} (shuffled : designs.Perm designs')
  (reordered : documents.Perm documents') (read : ∀ d ∈ designs, ReadsDocument d)
include shuffled reordered read

theorem comes_of_perm {tolerable : List ErrorKind} {as : List Applied}
    (came : Comes tolerable (pairs designs documents) as) : ∃ as', Comes tolerable (pairs designs' documents') as' := by
  have read' : ∀ d ∈ designs', ReadsDocument d := fun d member => read d (shuffled.mem_iff.mpr member)
  rw [comes_iff read] at came
  obtain ⟨as', came', _⟩ := List.perm_comp_forall₂ (shuffled.product reordered).symm came
  exact ⟨as', (comes_iff read' _ _ _).mpr came'⟩

/-- In another order the pairs come to the same, in another order. -/
theorem perm_of_comes {tolerable : List ErrorKind} {as as' : List Applied}
    (came : Comes tolerable (pairs designs documents) as)
    (came' : Comes tolerable (pairs designs' documents') as') : as.Perm as' := by
  have read' : ∀ d ∈ designs', ReadsDocument d := fun d member => read d (shuffled.mem_iff.mpr member)
  rw [comes_iff read] at came
  rw [comes_iff read'] at came'
  exact List.rel_perm_imp comesTo_unique came came' (shuffled.product reordered)

end

/-! ## Ids that are apart -/

private theorem putRecord_of_fresh {record : Record} {rs : List Record} (fresh : record.id ∉ rs.map Record.id) :
    putRecord record rs = rs ++ [record] := by
  induction rs with
  | nil => rfl
  | cons r rest ih =>
    rw [List.map_cons, List.mem_cons, not_or] at fresh
    rw [putRecord, if_neg (Ne.symm fresh.1), ih fresh.2]
    rfl

private theorem put_of_fresh {new : Rule} {rules : List Rule}
    (fresh : ∀ rule ∈ rules, ¬ (rule.forward = new.forward ∧ rule.receiver = new.receiver)) :
    new.put rules = rules ++ [new] := by
  induction rules with
  | nil => rfl
  | cons rule rest ih =>
    obtain ⟨first, later⟩ := List.forall_mem_cons.mp fresh
    rw [Rule.put, if_neg first, ih later]
    rfl

private theorem putAll_of_fresh {new rules : List Rule} (distinct : (rules ++ new).Pairwise fun a b =>
    ¬ (a.forward = b.forward ∧ a.receiver = b.receiver)) : Rule.putAll new rules = rules ++ new := by
  induction new generalizing rules with
  | nil => exact (List.append_nil rules).symm
  | cons rule rest ih =>
    have fresh : ∀ old ∈ rules, ¬ (old.forward = rule.forward ∧ old.receiver = rule.receiver) :=
      fun old member => (List.pairwise_append.mp distinct).2.2 old member rule List.mem_cons_self
    have later : Rule.putAll (rule :: rest) rules = Rule.putAll rest (rule.put rules) := rfl
    rw [later, put_of_fresh fresh]
    have shifted : rules ++ rule :: rest = (rules ++ [rule]) ++ rest := by simp
    rw [shifted] at distinct ⊢
    exact ih distinct

/-- The rules of a record that was made are all for the record, one for each link type. -/
def OwnRules : Applied → Prop
  | .skipped => True
  | .recorded record rules _ => RulesFit rules ∧ ∀ rule ∈ rules, rule.receiver = record.id

private theorem receiver_of_rulesFor {d : Design} {id : String} {rule : Rule} (member : rule ∈ d.rulesFor id) :
    rule.receiver = id := by
  have fit := rulesFit_rulesFor d id
  have target := fit.targeted rule member
  obtain ⟨forward, receiver, _, backward⟩ := rule
  cases target
  have key := (ruleKey_iff fit forward receiver backward).mpr member
  rw [ruleKey_rulesFor] at key
  split_ifs at key with same
  exact same.symm

theorem ownRules_of_comes {tolerable : List ErrorKind} {ps : List (Design × Nat × Json)} {as : List Applied}
    (came : Comes tolerable ps as) : ∀ a ∈ as, OwnRules a := by
  induction came with
  | nil => exact List.forall_mem_nil _
  | @cons pair applied _ _ own _ ih =>
    refine List.forall_mem_cons.mpr ⟨?_, ih⟩
    cases applied with
    | skipped => trivial
    | recorded record rules dropped =>
      obtain ⟨_, _, _, _, _, rfl⟩ := apply_recorded own
      exact ⟨rulesFit_rulesFor _ _, fun rule => receiver_of_rulesFor⟩

/-- What was made, put behind a state in which no record has one of its ids. -/
def gathered (s : State) (as : List Applied) : State :=
  ⟨s.records ++ as.filterMap recordOf, s.rules ++ as.flatMap rulesOf,
    s.skipped + as.countP (recordOf · |>.isNone), s.dropped + droppedIn as, s.replaced⟩

/-- The rules of a state are one for each condition, and for records of the state. -/
structure RulesKept (s : State) : Prop where
  fit : RulesFit s.rules
  received : ∀ rule ∈ s.rules, rule.receiver ∈ s.records.map Record.id

private theorem rulesKept_start : RulesKept State.start := ⟨rulesFit_nil, List.forall_mem_nil _⟩

private theorem gathered_append (s : State) (first later : List Applied) :
    gathered (gathered s first) later = gathered s (first ++ later) := by
  simp [gathered, droppedIn_append, Nat.add_assoc]

private theorem rulesKept_gathered {s : State} (kept : RulesKept s) {record : Record} {rules : List Rule} {dropped : Nat}
    (own : OwnRules (.recorded record rules dropped)) (fresh : record.id ∉ s.records.map Record.id) :
    RulesKept (gathered s [.recorded record rules dropped]) := by
  have apart : ∀ a ∈ s.rules, ∀ b ∈ rules, ¬ (a.forward = b.forward ∧ a.receiver = b.receiver) := by
    rintro a old b new ⟨_, receiver⟩
    rw [own.2 b new] at receiver
    exact fresh (receiver ▸ kept.received a old)
  have all : (gathered s [.recorded record rules dropped]).rules = s.rules ++ rules := by simp [gathered, rulesOf]
  have ids : (gathered s [.recorded record rules dropped]).records.map Record.id =
      s.records.map Record.id ++ [record.id] := by simp [gathered, recordOf]
  refine ⟨⟨?_, ?_⟩, ?_⟩
  · rw [all]
    exact List.pairwise_append.mpr ⟨kept.fit.distinct, own.1.distinct, apart⟩
  · rw [all]
    exact List.forall_mem_append.mpr ⟨kept.fit.targeted, own.1.targeted⟩
  · rw [all, ids]
    refine List.forall_mem_append.mpr ⟨?_, ?_⟩
    · intro rule old
      exact List.mem_append_left _ (kept.received rule old)
    · intro rule new
      rw [own.2 rule new]
      exact List.mem_append_right _ (List.mem_singleton_self _)

private theorem add_of_fresh {s : State} (kept : RulesKept s) {record : Record} {rules : List Rule} {dropped : Nat}
    (own : OwnRules (.recorded record rules dropped)) (fresh : record.id ∉ s.records.map Record.id) :
    s.add (.recorded record rules dropped) = gathered s [.recorded record rules dropped] := by
  have distinct := (rulesKept_gathered kept own fresh).fit.distinct
  have unreplaced : s.records.any (·.id == record.id) = false := by
    rw [List.any_eq_false]
    intro r member
    rw [beq_iff_eq]
    intro same
    exact fresh (same ▸ List.mem_map_of_mem member)
  simp only [gathered, rulesOf, List.flatMap_cons, List.flatMap_nil, List.append_nil] at distinct
  rw [State.add, putRecord_of_fresh fresh, putAll_of_fresh distinct, unreplaced]
  simp [gathered, recordOf, rulesOf, droppedIn]

theorem add_of_apart {s : State} (kept : RulesKept s) {a : Applied} (own : OwnRules a)
    (apart : DistinctIds (s.records ++ [a].filterMap recordOf)) : s.add a = gathered s [a] ∧ RulesKept (gathered s [a]) := by
  cases a with
  | skipped =>
    have unchanged : (gathered s [.skipped]).records = s.records ∧ (gathered s [.skipped]).rules = s.rules := by
      simp [gathered, recordOf, rulesOf]
    refine ⟨by simp [State.add, gathered, recordOf, rulesOf, droppedIn], ⟨?_, ?_⟩⟩
    · rw [unchanged.2]
      exact kept.fit
    · rw [unchanged.1, unchanged.2]
      exact kept.received
  | recorded record rules dropped =>
    have fresh : record.id ∉ s.records.map Record.id := by
      rw [DistinctIds, List.map_append, List.nodup_append] at apart
      intro member
      exact apart.2.2 _ member record.id (by simp [recordOf]) rfl
    exact ⟨add_of_fresh kept own fresh, rulesKept_gathered kept own fresh⟩

/-- Where all ids are apart, a run puts what is made behind what there is. -/
theorem foldl_add_of_apart {as : List Applied} (own : ∀ a ∈ as, OwnRules a) {s : State} (kept : RulesKept s)
    (apart : DistinctIds (s.records ++ as.filterMap recordOf)) : as.foldl State.add s = gathered s as := by
  -- each step keeps the rules to the ids that are there, so that no later rule takes the place of one
  induction as generalizing s with
  | nil => simp [gathered, droppedIn]
  | cons a rest ih =>
    obtain ⟨first, later⟩ := List.forall_mem_cons.mp own
    have split : (a :: rest).filterMap recordOf = [a].filterMap recordOf ++ rest.filterMap recordOf :=
      List.filterMap_append (l := [a])
    rw [split, ← List.append_assoc] at apart
    have head : DistinctIds (s.records ++ [a].filterMap recordOf) := by
      rw [DistinctIds, List.map_append] at apart
      exact (List.nodup_append.mp apart).1
    obtain ⟨added, kept'⟩ := add_of_apart kept first head
    rw [List.foldl_cons, added, ih later kept' apart, gathered_append]
    rfl

/-! ## The pass in another order -/

/-- The same record but for the order of its entries. -/
structure SameRecord (a b : Record) : Prop where
  id : a.id = b.id
  ownPid : a.ownPid = b.ownPid
  entries : a.entries.Perm b.entries

section

variable {records records' : List Record} {rules rules' : List Rule} (moved : records.Perm records')
  (rulesMoved : rules.Perm rules')
include moved rulesMoved

theorem gained_perm (r : Record) : (gained records rules r).Perm (gained records' rules' r) := by
  refine (List.perm_ext_iff_of_nodup (nodup_gained _ _ _) (nodup_gained _ _ _)).mpr ?_
  intro link
  simp only [mem_gained, mem_asked, moved.mem_iff, rulesMoved.mem_iff]

private theorem entries_perm (r : Record) : (r.entries ++ (gained records rules r).map entryOf).Perm
    (r.entries ++ (gained records' rules' r).map entryOf) :=
  ((gained_perm moved rulesMoved r).map entryOf).append_left r.entries

variable (distinct : DistinctIds records) (distinct' : DistinctIds records')
include distinct distinct'

theorem inferred_count_perm : (inferBacklinks records rules).2 = (inferBacklinks records' rules').2 := by
  have grown : size (inferBacklinks records rules).1 = size records + (inferBacklinks records rules).2 :=
    size_addLinks _ _
  have grown' : size (inferBacklinks records' rules').1 = size records' + (inferBacklinks records' rules').2 :=
    size_addLinks _ _
  have before : size records = size records' := (moved.flatMap fun _ _ => .refl _).length_eq
  have after : size (inferBacklinks records rules).1 = size (inferBacklinks records' rules').1 := by
    rw [records_inferBacklinks distinct, records_inferBacklinks distinct', size, size, List.flatMap_map, List.flatMap_map]
    exact (moved.flatMap fun r _ => entries_perm moved rulesMoved r).length_eq
  -- what is counted is the growth of all records together
  omega

/-- Under each id stands the same record after the pass, but for the order of its entries. -/
theorem inferred_find_perm (id : String) :
    Option.Rel SameRecord ((inferBacklinks records rules).1.find? (·.id == id))
      ((inferBacklinks records' rules').1.find? (·.id == id)) := by
  have found : records.find? (·.id == id) = records'.find? (·.id == id) := by
    ext r
    rw [find_iff_of_distinctIds distinct, find_iff_of_distinctIds distinct', moved.mem_iff]
  rw [records_inferBacklinks distinct, records_inferBacklinks distinct', List.find?_map, List.find?_map]
  change Option.Rel SameRecord ((records.find? (·.id == id)).map _) ((records'.find? (·.id == id)).map _)
  rw [found]
  cases records'.find? (·.id == id) with
  | none => exact .none
  | some r => exact .some ⟨rfl, rfl, entries_perm moved rulesMoved r⟩

end

/-! ## Whole runs -/

/-- The same state but for the order of its records and rules. -/
structure SameState (s s' : State) : Prop where
  records : s.records.Perm s'.records
  rules : s.rules.Perm s'.rules
  skipped : s.skipped = s'.skipped
  dropped : s.dropped = s'.dropped
  replaced : s.replaced = s'.replaced

theorem sameState_gathered {as as' : List Applied} (moved : as.Perm as') (s : State) :
    SameState (gathered s as) (gathered s as') := by
  have dropped : droppedIn as = droppedIn as' := droppedIn_perm moved
  have skipped : as.countP (recordOf · |>.isNone) = as'.countP (recordOf · |>.isNone) := moved.countP_eq _
  refine ⟨?_, ?_, ?_, ?_, rfl⟩
  · exact (moved.filterMap recordOf).append_left s.records
  · exact (moved.flatMap_right rulesOf).append_left s.rules
  · rw [gathered, gathered, skipped]
  · rw [gathered, gathered, dropped]

/-- Two graphs count the same and have the same records, but for the order of records and entries. -/
structure SameGraph (r r' : RecordGraph) : Prop where
  stats : r.stats = r'.stats
  ids : (r.records.map Record.id).Perm (r'.records.map Record.id)
  records : ∀ id, Option.Rel SameRecord (r.get? id) (r'.get? id)

private theorem ids_inferBacklinks {records : List Record} (distinct : DistinctIds records) (rules : List Rule) :
    (inferBacklinks records rules).1.map Record.id = records.map Record.id := by
  rw [records_inferBacklinks distinct, List.map_map]
  rfl

theorem sameGraph_graphOf {s s' : State} (same : SameState s s') (distinct : DistinctIds s.records)
    (designs documents : Nat) : SameGraph (graphOf designs documents s) (graphOf designs documents s') := by
  have distinct' : DistinctIds s'.records := (same.records.map Record.id).nodup_iff.mp distinct
  have ids : ((inferBacklinks s.records s.rules).1.map Record.id).Perm
      ((inferBacklinks s'.records s'.rules).1.map Record.id) := by
    rw [ids_inferBacklinks distinct, ids_inferBacklinks distinct']
    exact same.records.map Record.id
  have size : (inferBacklinks s.records s.rules).1.length = (inferBacklinks s'.records s'.rules).1.length := by
    simpa using ids.length_eq
  refine ⟨?_, ids, ?_⟩
  · simp only [graphOf, Stats.mk.injEq, true_and]
    exact ⟨size, same.skipped, same.dropped,
      inferred_count_perm same.records same.rules distinct distinct', same.replaced⟩
  · intro id
    exact inferred_find_perm same.records same.rules distinct distinct' id

/-- The ids of the records that a run makes of its pairs, in order. -/
def idsMade (designs : List Design) (tolerable : List ErrorKind) (documents : List Json) : List String :=
  ((pairs designs documents).filterMap (made? tolerable)).map fun making => making.2.id

private theorem idsMade_eq {designs : List Design} {tolerable : List ErrorKind} {documents : List Json}
    {as : List Applied} (came : Comes tolerable (pairs designs documents) as) :
    idsMade designs tolerable documents = (as.filterMap recordOf).map Record.id := by
  have general : ∀ {ps : List (Design × Nat × Json)} {as : List Applied}, Comes tolerable ps as →
      (ps.filterMap (made? tolerable)).map (fun making => making.2.id) = (as.filterMap recordOf).map Record.id := by
    intro ps as came
    induction came with
    | nil => rfl
    | @cons pair applied _ _ own _ ih =>
      cases applied with
      | skipped =>
        have nothing : made? tolerable pair = none := by simp [made?, own]
        rw [List.filterMap_cons_none nothing, ih]
        rfl
      | recorded record rules dropped =>
        have made : made? tolerable pair = some (pair.1, record) := by simp [made?, own]
        rw [List.filterMap_cons_some made, List.map_cons, ih]
        rfl
  exact general came

/-- The designs of a graph over documents, and both in any other order. The run succeeds in one order
exactly if it does in the other. If the ids of all records that are made are apart, both runs count the
same and have records of the same ids; under each id both have the same persistent identifier and the
same entries, backlinks included. -/
theorem order_immaterial {g : Graph} {designs designs' : List Design} (lowered : g.lower = .ok designs)
    (shuffled : designs.Perm designs') {documents documents' : List Json} (reordered : documents.Perm documents')
    (tolerable : List ErrorKind) :
    ((∃ r, run designs tolerable documents = .ok r) ↔ ∃ r, run designs' tolerable documents' = .ok r) ∧
    ((idsMade designs tolerable documents).Nodup → ∀ r r', run designs tolerable documents = .ok r →
      run designs' tolerable documents' = .ok r' →
        SameGraph r r') := by
  have read := lower_reads lowered
  have read' : ∀ d ∈ designs', ReadsDocument d := fun d member => read d (shuffled.mem_iff.mpr member)
  constructor
  · constructor
    · rintro ⟨r, ran⟩
      obtain ⟨as, came, _⟩ := run_eq_ok_iff.mp ran
      obtain ⟨as', came'⟩ := comes_of_perm shuffled reordered read came
      exact ⟨_, run_eq_ok_iff.mpr ⟨as', came', rfl⟩⟩
    · rintro ⟨r, ran⟩
      obtain ⟨as, came, _⟩ := run_eq_ok_iff.mp ran
      obtain ⟨as', came'⟩ := comes_of_perm shuffled.symm reordered.symm read' came
      exact ⟨_, run_eq_ok_iff.mpr ⟨as', came', rfl⟩⟩
  · intro apart r r' ran ran'
    obtain ⟨as, came, rfl⟩ := run_eq_ok_iff.mp ran
    obtain ⟨as', came', rfl⟩ := run_eq_ok_iff.mp ran'
    have moved : as.Perm as' := perm_of_comes shuffled reordered read came came'
    have distinct : DistinctIds (State.start.records ++ as.filterMap recordOf) := by
      rw [idsMade_eq came] at apart
      exact apart
    have distinct' : DistinctIds (State.start.records ++ as'.filterMap recordOf) :=
      ((moved.filterMap recordOf).map Record.id).nodup_iff.mp distinct
    rw [foldl_add_of_apart (ownRules_of_comes came) rulesKept_start distinct,
      foldl_add_of_apart (ownRules_of_comes came') rulesKept_start distinct', ← shuffled.length_eq,
      ← reordered.length_eq]
    exact sameGraph_graphOf (sameState_gathered moved State.start) distinct _ _

/-- A record for each paper, with a link back from what it cites, and one for its journal. -/
def library : Graph :=
  ⟨[[.record "paper" (some (.fieldQuery "p" .pointer "/paper")) none
      [.attr "a" (some (.literal "k" (.text "cites"))) (some (.fieldQuery "v" .pointer "/cites")),
        .attr "b" (some (.literal "l" (.text "citedBy"))) (some (.backlink "w" (some (.literal "m" (.text "cites")))))]],
    [.record "journal" (some (.fieldQuery "j" .pointer "/journal")) none []]]⟩

/-- Two papers, of which the first cites the second. -/
def papers : List Json :=
  [.obj [("paper", .str "A"), ("cites", .str "B"), ("journal", .str "J")],
    .obj [("paper", .str "B"), ("journal", .str "K")]]

theorem library_in_both_orders :
    ∃ designs r r', library.lower = .ok designs ∧ (idsMade designs [.queryNotFound] papers).Nodup ∧
      run designs [.queryNotFound] papers = .ok r ∧ run designs.reverse [.queryNotFound] papers.reverse = .ok r' ∧
      r.stats.inferredLinks = 1 ∧ SameGraph r r' := by
  obtain ⟨designs, r, r', lowered, ids, ran, ran', counted⟩ : ∃ designs r r', library.lower = .ok designs ∧
      idsMade designs [.queryNotFound] papers = ["A", "B", "J", "K"] ∧ run designs [.queryNotFound] papers = .ok r ∧
      run designs.reverse [.queryNotFound] papers.reverse = .ok r' ∧ r.stats.inferredLinks = 1 :=
    ⟨_, _, _, rfl, rfl, rfl, rfl, rfl⟩
  have apart : (idsMade designs [.queryNotFound] papers).Nodup := by
    rw [ids]
    decide
  have same := (order_immaterial lowered designs.reverse_perm.symm papers.reverse_perm.symm [.queryNotFound]).2 apart
  exact ⟨designs, r, r', lowered, apart, ran, ran', counted, same r r' ran ran'⟩

end RecordMapper.Proofs.Orders
