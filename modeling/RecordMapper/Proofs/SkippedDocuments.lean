import RecordMapper.Proofs.Orders

/-!
# Skipped documents

A document that every design of a graph skips may be put in at any place of a batch: the run fails as it did
before, but for the numbers of the documents behind that place, or it makes the same records, and counts one
document and one skipped pair for each design more (`skipped_document_leaves_no_trace`).
-/

namespace RecordMapper.Proofs.SkippedDocuments
open RecordMapper.Run RecordMapper.Proofs.Runs RecordMapper.Proofs.Reading RecordMapper.Proofs.Orders

/-! ## Places and counts -/

/-- The number of a document when another one was put in at a place. -/
def makeRoom (place i : Nat) : Nat := if i < place then i else i + 1

/-- A pair when another document was put in at a place. -/
def moved (place : Nat) (pair : Design × Nat × Json) : Design × Nat × Json :=
  (pair.1, makeRoom place pair.2.1, pair.2.2)

/-- The state after so many more skipped pairs. -/
def skipping (n : Nat) (s : State) : State := { s with skipped := s.skipped + n }

/-- What a run comes to when another document was put in at a place and skipped so many times. -/
def shifted (place n : Nat) (came : Except RunError State) : Except RunError State :=
  (came.mapError (renumber (makeRoom place))).map (skipping n)

theorem add_skipping (n : Nat) (s : State) (a : Applied) : (skipping n s).add a = skipping n (s.add a) := by
  cases a with
  | skipped => exact congrArg (fun skipped => { s with skipped }) (Nat.add_right_comm s.skipped n 1)
  | recorded record rules dropped => rfl

theorem shifted_bind (place n : Nat) (came : Except RunError State) (next next' : State → Except RunError State)
    (later : ∀ s, next' (skipping n s) = shifted place n (next s)) :
    shifted place n came >>= next' = shifted place n (came >>= next) := by
  cases came with
  | error failure => rfl
  | ok s => exact later s

section

variable {tolerable : List ErrorKind} {d : Design} {xs ys : List Json} {x : Json}

/-! ## Steps -/

theorem step_moved {pair : Design × Nat × Json} (reads : ReadsDocument pair.1) (place n : Nat) (s : State) :
    step tolerable (skipping n s) (moved place pair) = shifted place n (step tolerable s pair) := by
  have renumbered : pair.1.apply tolerable (makeRoom place pair.2.1) pair.2.2 = _ :=
    apply_renumber reads tolerable (makeRoom place) pair.2.1 pair.2.2
  simp only [step, moved, renumbered]
  cases pair.1.apply tolerable pair.2.1 pair.2.2 with
  | error failure => rfl
  | ok applied => exact congrArg Except.ok (add_skipping n s applied)

theorem foldlM_moved {ps : List (Design × Nat × Json)} (read : ∀ pair ∈ ps, ReadsDocument pair.1) (place n : Nat)
    (s : State) :
    (ps.map (moved place)).foldlM (step tolerable) (skipping n s) = shifted place n (ps.foldlM (step tolerable) s) := by
  induction ps generalizing s with
  | nil => rfl
  | cons pair rest ih =>
    obtain ⟨first, later⟩ := List.forall_mem_cons.mp read
    rw [List.map_cons, List.foldlM_cons, List.foldlM_cons, step_moved first]
    exact shifted_bind place n _ _ _ (ih later)

theorem step_skipped {index : Nat} (skips : d.skips ⟨x, index, d.name⟩ = .ok true) (n : Nat) (s : State) :
    step tolerable (skipping n s) (d, index, x) = .ok (skipping (n + 1) s) := by
  have applied : d.apply tolerable index x = .ok .skipped := by
    rw [Design.apply, skips]
    rfl
  simp only [step, applied]
  rfl

/-! ## Designs -/

/-- The pairs of one design. -/
def pairsOf (d : Design) (documents : List Json) : List (Design × Nat × Json) :=
  documents.zipIdx.map fun (document, index) => (d, index, document)

theorem pairs_cons (d : Design) (ds : List Design) (documents : List Json) :
    pairs (d :: ds) documents = pairsOf d documents ++ pairs ds documents := rfl

/-- The pairs of a design before and behind a place at which a document is put in. -/
theorem pairsOf_insert (d : Design) (xs ys : List Json) (x : Json) : ∃ before behind,
    pairsOf d (xs ++ ys) = before ++ behind ∧ pairsOf d (xs ++ [x] ++ ys) =
      before.map (moved xs.length) ++ (d, xs.length, x) :: behind.map (moved xs.length) := by
  refine ⟨xs.zipIdx.map fun (document, index) => (d, index, document),
    (ys.zipIdx xs.length).map fun (document, index) => (d, index, document), ?_, ?_⟩
  · rw [pairsOf, List.zipIdx_append, List.map_append, Nat.zero_add]
  · have kept : ∀ entry ∈ xs.zipIdx, moved xs.length (d, entry.2, entry.1) = (d, entry.2, entry.1) := by
      rintro ⟨document, index⟩ inside
      have before : index < xs.length := by simpa using List.snd_lt_of_mem_zipIdx inside
      simp [moved, makeRoom, before]
    have behind : ∀ entry ∈ ys.zipIdx xs.length, moved xs.length (d, entry.2, entry.1) = (d, entry.2 + 1, entry.1) := by
      rintro ⟨document, index⟩ inside
      have after : ¬ index < xs.length := Nat.not_lt.mpr (List.le_snd_of_mem_zipIdx inside)
      simp [moved, makeRoom, after]
    rw [pairsOf, List.append_assoc, List.singleton_append, List.zipIdx_append, List.map_append, List.map_map,
      List.map_map, Nat.zero_add, List.zipIdx_cons, List.map_cons, List.zipIdx_succ, List.map_map]
    exact congrArg₂ _ (List.map_congr_left fun entry inside => (kept entry inside).symm)
      (congrArg _ (List.map_congr_left fun entry inside => (behind entry inside).symm))

theorem foldlM_pairsOf_insert (reads : ReadsDocument d) (skips : d.skips ⟨x, xs.length, d.name⟩ = .ok true) (n : Nat)
    (s : State) :
    (pairsOf d (xs ++ [x] ++ ys)).foldlM (step tolerable) (skipping n s) =
      shifted xs.length (n + 1) ((pairsOf d (xs ++ ys)).foldlM (step tolerable) s) := by
  obtain ⟨before, behind, split, inserted⟩ := pairsOf_insert d xs ys x
  have own : ∀ pair ∈ before ++ behind, ReadsDocument pair.1 := by
    rw [← split, pairsOf, List.forall_mem_map]
    exact fun _ _ => reads
  obtain ⟨ownBefore, ownBehind⟩ := List.forall_mem_append.mp own
  rw [split, inserted, List.foldlM_append, List.foldlM_append, foldlM_moved ownBefore]
  cases before.foldlM (step tolerable) s with
  | error failure => rfl
  | ok mid =>
    change (_ :: behind.map (moved xs.length)).foldlM (step tolerable) (skipping n mid) = _
    rw [List.foldlM_cons, step_skipped skips]
    exact foldlM_moved ownBehind xs.length (n + 1) mid

/-- A document that all designs skip is one more skipped pair for each of them. -/
theorem foldlM_pairs_insert {designs : List Design} (read : ∀ d ∈ designs, ReadsDocument d)
    (skips : ∀ d ∈ designs, d.skips ⟨x, xs.length, d.name⟩ = .ok true) (n : Nat) (s : State) :
    (pairs designs (xs ++ [x] ++ ys)).foldlM (step tolerable) (skipping n s) =
      shifted xs.length (n + designs.length) ((pairs designs (xs ++ ys)).foldlM (step tolerable) s) := by
  -- a design goes once over the documents, so that each adds one skipped pair to those counted before
  induction designs generalizing n s with
  | nil => rfl
  | cons d rest ih =>
    obtain ⟨reads, readLater⟩ := List.forall_mem_cons.mp read
    obtain ⟨skipsOwn, skipsLater⟩ := List.forall_mem_cons.mp skips
    rw [pairs_cons, pairs_cons, List.foldlM_append, List.foldlM_append, foldlM_pairsOf_insert reads skipsOwn]
    cases (pairsOf d (xs ++ ys)).foldlM (step tolerable) s with
    | error failure => rfl
    | ok mid =>
      have later := ih readLater skipsLater (n + 1) mid
      rw [Nat.add_right_comm, Nat.add_assoc] at later
      exact later

end

/-! ## Runs -/

/-- The graph of a batch with one document more, which so many designs skip. -/
def withSkipped (n : Nat) (g : RecordGraph) : RecordGraph :=
  { g with stats := { g.stats with documents := g.stats.documents + 1, skipped := g.stats.skipped + n } }

/-- A batch with one document more, which every design skips, fails as it did without it, but for the numbers of
the documents behind it, or makes the same records. One more document is counted then, and one more skipped
pair for each design. -/
theorem skipped_document_leaves_no_trace {g : Graph} {designs : List Design} (lowered : g.lower = .ok designs)
    (tolerable : List ErrorKind) (xs ys : List Json) (x : Json)
    (skipped : ∀ d ∈ designs, ∃ condition value, d.skip = some condition ∧
      condition ⟨x, xs.length, d.name⟩ = .ok value ∧ value.isTruthy = true) :
    run designs tolerable (xs ++ [x] ++ ys) =
      ((run designs tolerable (xs ++ ys)).mapError (renumber (makeRoom xs.length))).map
        (withSkipped designs.length) := by
  have skips : ∀ d ∈ designs, d.skips ⟨x, xs.length, d.name⟩ = .ok true := by
    intro d member
    obtain ⟨condition, value, own, outcome, truthy⟩ := skipped d member
    simp [Design.skips, own, outcome, truthy]
  have folded := @foldlM_pairs_insert tolerable xs ys x designs (lower_reads lowered) skips 0 State.start
  have start : skipping 0 State.start = State.start := rfl
  have counted : (xs ++ [x] ++ ys).length = (xs ++ ys).length + 1 := by
    simp only [List.length_append, List.length_singleton]
    omega
  rw [start, Nat.zero_add] at folded
  rw [run_eq, run_eq, folded, counted]
  cases (pairs designs (xs ++ ys)).foldlM (step tolerable) State.start <;> rfl

/-- Papers by their ids, hidden ones left out. -/
def shelf : Graph :=
  ⟨[[.record "paper" (some (.fieldQuery "i" .pointer "/id")) (some (some (.fieldQuery "h" .pointer "/hidden")))
    [.attr "t" (some (.literal "k" (.text "title"))) (some (.fieldQuery "q" .pointer "/title"))]]]⟩

/-- A document about a paper that is not hidden. -/
def shown (id : String) : Json := .obj [("id", .str id), ("hidden", .bool false)]

/-- A hidden document, which has no id, leaves no trace. -/
theorem hidden_paper_leaves_no_trace :
    ∃ designs g, shelf.lower = .ok designs ∧
      (∀ d ∈ designs, ∃ condition value, d.skip = some condition ∧
        condition ⟨.obj [("hidden", .bool true)], 1, d.name⟩ = .ok value ∧ value.isTruthy = true) ∧
      run designs ErrorKind.defaultTolerable ([shown "A"] ++ [shown "B"]) = .ok g ∧
      run designs ErrorKind.defaultTolerable ([shown "A"] ++ [.obj [("hidden", .bool true)]] ++ [shown "B"]) =
        .ok (withSkipped designs.length g) := by
  obtain ⟨d, g, lowered, skip, ran⟩ : ∃ d g, shelf.lower = .ok [d] ∧ d.skip = some (Evaluator.pointer "/hidden") ∧
      run [d] ErrorKind.defaultTolerable ([shown "A"] ++ [shown "B"]) = .ok g := ⟨_, _, rfl, rfl, rfl⟩
  have skips : ∀ d' ∈ [d], ∃ condition value, d'.skip = some condition ∧
      condition ⟨.obj [("hidden", .bool true)], 1, d'.name⟩ = .ok value ∧ value.isTruthy = true :=
    List.forall_mem_singleton.mpr ⟨_, .bool true, skip, rfl, rfl⟩
  refine ⟨[d], g, lowered, skips, ran, ?_⟩
  have traceless := skipped_document_leaves_no_trace lowered ErrorKind.defaultTolerable [shown "A"] [shown "B"]
    (.obj [("hidden", .bool true)]) skips
  rw [ran] at traceless
  exact traceless

end RecordMapper.Proofs.SkippedDocuments
