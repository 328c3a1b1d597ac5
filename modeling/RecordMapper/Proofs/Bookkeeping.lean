import Mathlib.Algebra.GroupWithZero.Nat
import RecordMapper.Proofs.Orders

/-!
# What a batch counts

A run keeps its records in a list in which each id has one place, and counts what it skips, drops and
replaces on the way. Here the list and the counts are tied to the pairs of a design and a document: ids
stand in the order in which they were first recorded, each with what the last pair recorded under it,
and no pair, no dropped value and no inferred entry is lost or counted twice (`batch_accounted`).
-/

namespace RecordMapper.Proofs.Bookkeeping
open RecordMapper.Run RecordMapper.Proofs.Runs RecordMapper.Proofs.InferencePass RecordMapper.Proofs.Orders

/-! ## What there is to count -/

/-- Whether the design of a pair records its document. -/
def isRecorded (tolerable : List ErrorKind) (pair : Design × Nat × Json) : Bool := (made? tolerable pair).isSome

/-- The number of values of the design of a pair that fail on the document of the pair. -/
def failures (pair : Design × Nat × Json) : Nat :=
  pair.1.evaluators.countP fun entry => !(entry.2 ⟨pair.2.2, pair.2.1, pair.1.name⟩).isOk

/-- The ids that pairs record, each at its first place. -/
def idsInOrder (tolerable : List ErrorKind) (pairs : List (Design × Nat × Json)) : List String :=
  ((pairs.filterMap (made? tolerable)).map fun making => making.2.id).eraseDups

/-- The records that were made last under each id, the ids in order. -/
def lastMade (tolerable : List ErrorKind) (pairs : List (Design × Nat × Json)) : List Record :=
  (idsInOrder tolerable pairs).filterMap fun id => (builder? tolerable pairs id).map (·.2)

/-! ## Dropped values -/

theorem dropped_of_addTo {d : Design} {tolerable : List ErrorKind} {context : Context}
    {entries : List (String × Evaluator)} {acc acc' : Record × Nat}
    (added : entries.foldlM (d.addTo tolerable context) acc = .ok acc') :
    acc'.2 = acc.2 + entries.countP fun entry => !(entry.2 context).isOk := by
  induction entries generalizing acc with
  | nil =>
    cases added
    rfl
  | cons entry rest ih =>
    obtain ⟨mid, first, added⟩ := foldlM_cons_ok added
    have later := ih added
    rw [List.countP_cons, later]
    unfold Design.addTo at first
    cases outcome : entry.2 context with
    | ok value =>
      rw [outcome] at first
      cases first
      simp [Except.isOk, Except.toBool]
    | error cause =>
      simp only [outcome] at first
      split_ifs at first
      · cases first
        simp only [Except.isOk, Except.toBool, Bool.not_false, if_true]
        omega

/-- What is dropped from a record are the values that fail, since no other failure lets it be made. -/
theorem dropped_of_apply {tolerable : List ErrorKind} {pair : Design × Nat × Json} {record : Record} {rules : List Rule}
    {dropped : Nat} (applied : applyPair tolerable pair = .ok (.recorded record rules dropped)) :
    dropped = failures pair := by
  obtain ⟨_, _, _, _, folded, _⟩ := apply_recorded applied
  have counted := dropped_of_addTo folded
  rw [Nat.zero_add] at counted
  exact counted

theorem droppedIn_of_comes {tolerable : List ErrorKind} {ps : List (Design × Nat × Json)} {as : List Applied}
    (came : Comes tolerable ps as) : droppedIn as = ((ps.filter (isRecorded tolerable)).map failures).sum := by
  induction came with
  | nil => rfl
  | @cons pair applied _ _ own _ ih =>
    cases applied with
    | skipped =>
      have unrecorded : isRecorded tolerable pair = false := by simp [isRecorded, made?, own]
      rw [droppedIn, ih, List.filter_cons_of_neg (by simp [unrecorded])]
    | recorded record rules dropped =>
      have recorded : isRecorded tolerable pair = true := by simp [isRecorded, made?, own]
      rw [droppedIn, ih, List.filter_cons_of_pos recorded, List.map_cons, List.sum_cons, dropped_of_apply own]

/-! ## The pairs -/

theorem length_pairs (designs : List Design) (documents : List Json) :
    (pairs designs documents).length = designs.length * documents.length := by
  simp [pairs, List.length_flatMap]

theorem length_putRecord (record : Record) (rs : List Record) :
    (putRecord record rs).length = rs.length + if rs.any (·.id == record.id) then 0 else 1 := by
  have ids := congrArg List.length (ids_putRecord record rs)
  have present : rs.any (·.id == record.id) = true ↔ record.id ∈ rs.map Record.id := by simp
  rw [List.length_map] at ids
  rw [ids]
  split_ifs with inside there there
  · rw [List.length_map, Nat.add_zero]
  · exact absurd (present.mpr inside) there
  · exact absurd (present.mp there) inside
  · rw [List.length_append, List.length_map, List.length_singleton]

/-- Each application is one more record, one more replacement or one more skip. -/
theorem counted_add (s : State) (a : Applied) :
    (s.add a).records.length + (s.add a).replaced + (s.add a).skipped =
      s.records.length + s.replaced + s.skipped + 1 := by
  cases a with
  | skipped =>
    simp only [State.add]
    omega
  | recorded record rules dropped =>
    simp only [State.add, length_putRecord]
    split_ifs <;> omega

theorem counted_foldl (as : List Applied) (s : State) :
    (as.foldl State.add s).records.length + (as.foldl State.add s).replaced + (as.foldl State.add s).skipped =
      s.records.length + s.replaced + s.skipped + as.length := by
  induction as generalizing s with
  | nil => rfl
  | cons a rest ih =>
    rw [List.foldl_cons, ih, counted_add, List.length_cons]
    omega

theorem dropped_foldl (as : List Applied) (s : State) : (as.foldl State.add s).dropped = s.dropped + droppedIn as := by
  induction as generalizing s with
  | nil => rfl
  | cons a rest ih =>
    rw [List.foldl_cons, ih]
    cases a with
    | skipped => rfl
    | recorded record rules dropped =>
      simp only [State.add, droppedIn]
      omega

/-! ## The records -/

section

variable {tolerable : List ErrorKind} {ps : List (Design × Nat × Json)} {s s' : State}

/-- The ids of a state, with those that pairs record behind them, at their first places. -/
theorem ids_of_pairs (ran : ps.foldlM (step tolerable) s = .ok s')
    (single : (s.records.map Record.id).eraseDups = s.records.map Record.id) :
    s'.records.map Record.id =
      (s.records.map Record.id ++ (ps.filterMap (made? tolerable)).map fun making => making.2.id).eraseDups := by
  induction ps generalizing s with
  | nil =>
    cases ran
    simpa using single.symm
  | cons pair rest ih =>
    obtain ⟨mid, stepped, ran⟩ := foldlM_cons_ok ran
    rcases step_cases stepped with ⟨nothing, unchanged, _⟩ | ⟨record, made, put, _⟩
    · rw [← unchanged] at single ⊢
      rw [List.filterMap_cons_none nothing]
      exact ih ran single
    · have ids := ids_putRecord record s.records
      rw [← put] at ids
      rw [List.filterMap_cons_some made, List.map_cons]
      split_ifs at ids with present
      · -- an id that is there already keeps its place
        rw [← ids] at single
        rw [ih ran single, ids, List.eraseDups_append, List.eraseDups_append]
        simp [List.removeAll, List.mem_map.mp present]
      · have fresh : (mid.records.map Record.id).eraseDups = mid.records.map Record.id := by
          have alone : [record.id].removeAll (s.records.map Record.id) = [record.id] := by
            rw [List.removeAll, List.filter_cons_of_pos (by simpa using present), List.filter_nil]
          rw [ids, List.eraseDups_append, single, alone]
          rfl
        rw [ih ran fresh, ids, List.append_assoc]
        rfl

/-- Records with distinct ids are those that are found under their ids. -/
theorem filterMap_find_ids {rs : List Record} (distinct : DistinctIds rs) :
    (rs.map Record.id).filterMap (fun id => rs.find? (·.id == id)) = rs := by
  have found : ∀ r ∈ rs, rs.find? (·.id == r.id) = some r := fun r member =>
    (find_iff_of_distinctIds distinct r.id r).mpr ⟨member, rfl⟩
  rw [List.filterMap_map, List.filterMap_congr (g := some) (by simpa using found), List.filterMap_some]

theorem records_of_pairs (ran : ps.foldlM (step tolerable) State.start = .ok s') :
    s'.records = lastMade tolerable ps := by
  have ids := ids_of_pairs ran rfl
  have distinct : DistinctIds s'.records := distinctIds_of_pairs ran List.nodup_nil
  rw [← filterMap_find_ids distinct, ids, lastMade, idsInOrder]
  refine List.filterMap_congr fun id _ => ?_
  rw [find_records_of_pairs ran id]
  exact Option.or_none

end

/-! ## The batch -/

/-- A record of a run beside what was made last under its id: the same, with backlinks behind its entries. A
backlink is there for each record that links to it under a key for which it has a key in force. -/
structure Completed (senders : List Record) (inForce : String → Option String) (own r : Record) : Prop where
  id : r.id = own.id
  ownPid : r.ownPid = own.ownPid
  entries : ∃ links : List (String × String), r.entries = own.entries ++ links.map entryOf ∧ links.Nodup ∧
    ∀ link, link ∈ links ↔ own.holds (entryOf link) = false ∧ ∃ sender ∈ senders, ∃ forward,
      sender.holds ⟨forward, .text own.id⟩ = true ∧ inForce forward = some link.1 ∧ link.2 = sender.id

/-- What a run has to account for. -/
structure Accounted (designs : List Design) (tolerable : List ErrorKind) (documents : List Json) (g : RecordGraph) :
    Prop where
  order : g.records.map Record.id = idsInOrder tolerable (pairs designs documents)
  records : List.Forall₂
    (fun own r => Completed (lastMade tolerable (pairs designs documents))
      (keyInForce? tolerable (pairs designs documents) · own.id) own r)
    (lastMade tolerable (pairs designs documents)) g.records
  counted : g.stats.records = g.records.length
  applied : g.stats.records + g.stats.replaced + g.stats.skipped = designs.length * documents.length
  dropped : g.stats.droppedValues = (((pairs designs documents).filter (isRecorded tolerable)).map failures).sum
  inferred : size g.records = size (lastMade tolerable (pairs designs documents)) + g.stats.inferredLinks

theorem completed_of_pairs {tolerable : List ErrorKind} {ps : List (Design × Nat × Json)} {s : State}
    (ran : ps.foldlM (step tolerable) State.start = .ok s) (own : Record) :
    Completed s.records (keyInForce? tolerable ps · own.id) own
      { own with entries := own.entries ++ (gained s.records s.rules own).map entryOf } := by
  have fit : RulesFit s.rules := rulesFit_of_pairs ran rulesFit_nil
  have keyed (forward key : String) :
      keyInForce? tolerable ps forward own.id = some key ↔ ⟨forward, own.id, own.id, key⟩ ∈ s.rules := by
    rw [← ruleKey_iff fit, ruleKey_of_pairs ran]
    exact (congrArg (· = some key) Option.or_none).symm.to_iff
  refine ⟨rfl, rfl, gained s.records s.rules own, rfl, nodup_gained _ _ _, fun link => ?_⟩
  rw [mem_gained, mem_asked]
  refine and_congr_right fun _ => ⟨?_, ?_⟩
  · rintro ⟨sender, member, rule, inForce, target, held, rfl⟩
    have receiver : rule.receiver = own.id := (fit.targeted rule inForce).symm.trans target
    obtain ⟨forward, _, _, key⟩ := rule
    cases target
    cases receiver
    exact ⟨sender, member, forward, held, (keyed forward key).mpr inForce, rfl⟩
  · rintro ⟨sender, member, forward, held, inForce, sent⟩
    exact ⟨sender, member, ⟨forward, own.id, own.id, link.1⟩, (keyed _ _).mp inForce, rfl, held, Prod.ext rfl sent⟩

/-- A run that succeeds lists the ids in the order in which they were first recorded, designs outermost. Under
each id stands what the last pair recorded under it, and behind that its backlinks. Each pair is a record that
stands, one that was replaced or a skip; the dropped values are those that fail in any pair that records, and
the inferred links are what the entries of all records have grown by. -/
theorem batch_accounted {designs : List Design} {tolerable : List ErrorKind} {documents : List Json} {g : RecordGraph}
    (ran : run designs tolerable documents = .ok g) : Accounted designs tolerable documents g := by
  obtain ⟨as, came, rfl⟩ := run_eq_ok_iff.mp ran
  have folded : (pairs designs documents).foldlM (step tolerable) State.start = .ok _ :=
    foldlM_step_iff.mpr ⟨as, came, rfl⟩
  have before := records_of_pairs folded
  have distinct := distinctIds_of_pairs folded List.nodup_nil
  have after := records_inferBacklinks distinct (as.foldl State.add State.start).rules
  have ids : (inferBacklinks (as.foldl State.add State.start).records (as.foldl State.add State.start).rules).1.map
      Record.id = (as.foldl State.add State.start).records.map Record.id := by
    rw [after, List.map_map]
    rfl
  have standing := congrArg List.length ids
  rw [List.length_map, List.length_map] at standing
  refine ⟨ids.trans (ids_of_pairs folded rfl), ?_, rfl, ?_, ?_, ?_⟩
  · rw [← before]
    change List.Forall₂ _ _ (inferBacklinks _ _).1
    rw [after, List.forall₂_map_right_iff, List.forall₂_same]
    exact fun own _ => completed_of_pairs folded own
  · have counted := counted_foldl as State.start
    rw [← length_pairs, came.length_eq]
    simp only [graphOf, standing]
    simpa [State.start] using counted
  · have dropped := dropped_foldl as State.start
    rw [← droppedIn_of_comes came]
    simpa [graphOf, State.start] using dropped
  · rw [← before]
    exact size_addLinks _ _

/-- Papers by their numbers, hidden ones left out, with what they cite and are cited by. -/
def catalogue : Design :=
  { Design.empty "paper" with
    id := some (Evaluator.pointer "/id")
    skip := some (Evaluator.pointer "/hidden")
    attributes := [("title", [Evaluator.pointer "/title"]), ("cites", [Evaluator.pointer "/cites"])]
    backlinks := [("cites", "citedBy")] }

/-- Authors by their names, those of hidden papers left out, with what they wrote. -/
def authorship : Design :=
  { Design.empty "author" with
    id := some (Evaluator.pointer "/author")
    skip := some (Evaluator.pointer "/hidden")
    attributes := [("wrote", [Evaluator.pointer "/id"])] }

/-- A paper that comes twice and cites another one, of which nothing else is known, and a hidden one. -/
def submissions : List Json :=
  [.obj [("id", .str "A"), ("author", .str "N."), ("hidden", .bool false), ("cites", .str "B")],
    .obj [("id", .str "B"), ("author", .str "M."), ("hidden", .bool false), ("title", .str "Sets")],
    .obj [("id", .str "A"), ("author", .str "N."), ("hidden", .bool false), ("title", .str "Maps"),
      ("cites", .str "B")],
    .obj [("hidden", .bool true)]]

/-- All papers come before all authors. -/
theorem submissions_accounted :
    ∃ g, run [catalogue, authorship] [.queryNotFound] submissions = .ok g ∧
      g.stats = ⟨2, 4, 4, 2, 2, 1, 2⟩ ∧ g.records.map Record.id = ["A", "B", "N.", "M."] ∧
      Accounted [catalogue, authorship] [.queryNotFound] submissions g := by
  obtain ⟨g, ran, counts, ids⟩ : ∃ g, run [catalogue, authorship] [.queryNotFound] submissions = .ok g ∧
      g.stats = ⟨2, 4, 4, 2, 2, 1, 2⟩ ∧ g.records.map Record.id = ["A", "B", "N.", "M."] := ⟨_, rfl, rfl, rfl⟩
  exact ⟨g, ran, counts, ids, batch_accounted ran⟩

end RecordMapper.Proofs.Bookkeeping
