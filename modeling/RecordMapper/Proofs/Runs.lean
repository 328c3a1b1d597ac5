import Mathlib.Data.List.Forall2
import RecordMapper.Design.Run
import RecordMapper.Proofs.Sameness

/-!
# What a run comes to

A run is taken apart here. A pair of a design and a document changes nothing that records or rules
show, or makes one record (`step_cases`). The record that stands under an id is the one that was
made last (`find_records_of_pairs`), and the key in force for a condition is the one that was
declared last (`ruleKey_of_pairs`). The pass that infers backlinks then adds to each record the
links that point at it, in order (`records_addLinks`).
-/

namespace RecordMapper.Proofs.Runs
open RecordMapper.Run

/-! ## Pairs -/

/-- What the design of a pair comes to on the document of the pair. -/
def applyPair (tolerable : List ErrorKind) (pair : Design × Nat × Json) : Except RunError Applied :=
  pair.1.apply tolerable pair.2.1 pair.2.2

/-- The record that a pair makes, with the design that makes it. -/
def made? (tolerable : List ErrorKind) (pair : Design × Nat × Json) : Option (Design × Record) :=
  match applyPair tolerable pair with
  | .ok (.recorded record _ _) => some (pair.1, record)
  | _ => none

/-- The makings of an id: the records that pairs make under it, in order, each with its design. -/
def makings (tolerable : List ErrorKind) (pairs : List (Design × Nat × Json)) (id : String) :
    List (Design × Record) :=
  (pairs.filterMap (made? tolerable)).filter (·.2.id == id)

/-- The last making of an id. -/
def builder? (tolerable : List ErrorKind) (pairs : List (Design × Nat × Json)) (id : String) :
    Option (Design × Record) :=
  (makings tolerable pairs id).getLast?

/-! ## What one application gives -/

theorem bind_eq_ok {ε α β : Type} {x : Except ε α} {f : α → Except ε β} {b : β} (bound : x >>= f = .ok b) :
    ∃ a, x = .ok a ∧ f a = .ok b := by
  cases x with
  | error e => cases bound
  | ok a => exact ⟨a, rfl, bound⟩

theorem foldlM_cons_ok {σ α ε : Type} {f : σ → α → Except ε σ} {s t : σ} {x : α} {xs : List α}
    (folded : (x :: xs).foldlM f s = .ok t) : ∃ mid, f s x = .ok mid ∧ xs.foldlM f mid = .ok t := by
  rw [List.foldlM_cons] at folded
  exact bind_eq_ok folded

section

variable {σ α ε : Type} {f : σ → α → Except ε σ} {s t : σ} {xs : List α}

/-- What each step of a fold keeps is kept by the fold. -/
theorem foldlM_keeps {P : σ → Prop} (folded : xs.foldlM f s = .ok t)
    (kept : ∀ x ∈ xs, ∀ {s t}, f s x = .ok t → P s → P t) (start : P s) : P t := by
  induction xs generalizing s with
  | nil =>
    cases folded
    exact start
  | cons x rest ih =>
    obtain ⟨first, later⟩ := List.forall_mem_cons.mp kept
    obtain ⟨mid, came, folded⟩ := foldlM_cons_ok folded
    exact ih folded later (first came start)

/-- Each step of a fold that succeeds succeeded in its turn. -/
theorem step_of_foldlM (folded : xs.foldlM f s = .ok t) : ∀ x ∈ xs, ∃ before after, f before x = .ok after := by
  induction xs generalizing s with
  | nil => exact List.forall_mem_nil _
  | cons x rest ih =>
    obtain ⟨mid, came, folded⟩ := foldlM_cons_ok folded
    exact List.forall_mem_cons.mpr ⟨⟨s, mid, came⟩, ih folded⟩

end

theorem mapM_eq_ok_iff {ε α β : Type} {f : α → Except ε β} {xs : List α} {ys : List β} :
    xs.mapM f = .ok ys ↔ List.Forall₂ (fun x y => f x = .ok y) xs ys := by
  induction xs generalizing ys with
  | nil =>
    rw [List.mapM_nil, List.forall₂_nil_left_iff]
    exact ⟨fun mapped => (Except.ok.inj mapped).symm, fun empty => by rw [empty]; rfl⟩
  | cons x xs ih =>
    rw [List.mapM_cons, List.forall₂_cons_left_iff]
    constructor
    · intro mapped
      obtain ⟨y, first, mapped⟩ := bind_eq_ok mapped
      obtain ⟨later, rest, mapped⟩ := bind_eq_ok mapped
      cases mapped
      exact ⟨y, later, first, ih.mp rest, rfl⟩
    · rintro ⟨y, later, first, rest, rfl⟩
      rw [first, ih.mpr rest]
      rfl

section

variable {d : Design} {tolerable : List ErrorKind} {index : Nat} {document : Json}

private theorem id_addEntries (es : List Entry) (r : Record) : (r.addEntries es).id = r.id := by
  induction es generalizing r with
  | nil => rfl
  | cons e es ih => exact (ih (r.addEntry e)).trans (r.id_addEntry e)

private theorem id_addTo {context : Context} {acc acc' : Record × Nat} {entry : String × Evaluator}
    (added : d.addTo tolerable context acc entry = .ok acc') : acc'.1.id = acc.1.id := by
  unfold Design.addTo at added
  split at added
  · cases added
    exact id_addEntries _ _
  · split at added
    · cases added
      rfl
    · simp at added

private theorem id_foldlM_addTo {context : Context} {entries : List (String × Evaluator)} {acc acc' : Record × Nat}
    (added : entries.foldlM (d.addTo tolerable context) acc = .ok acc') : acc'.1.id = acc.1.id :=
  foldlM_keeps (P := fun now => now.1.id = acc.1.id) added (fun _ _ _ _ came same => (id_addTo came).trans same) rfl

/-- A design that records has not skipped, has computed an id and a persistent identifier, and has
recorded or dropped each value; the rules are its own for the id. -/
theorem apply_recorded {record : Record} {rules : List Rule} {dropped : Nat}
    (applied : d.apply tolerable index document = .ok (.recorded record rules dropped)) :
    ∃ pid, d.skips ⟨document, index, d.name⟩ = .ok false ∧
      d.idFor ⟨document, index, d.name⟩ = .ok record.id ∧ d.pidFor ⟨document, index, d.name⟩ = .ok pid ∧
      d.evaluators.foldlM (d.addTo tolerable ⟨document, index, d.name⟩) (⟨record.id, pid, []⟩, 0) =
        .ok (record, dropped) ∧
      rules = d.rulesFor record.id := by
  obtain ⟨skipped, skips, applied⟩ := bind_eq_ok applied
  cases skipped with
  | true => cases applied
  | false =>
    obtain ⟨id, named, applied⟩ := bind_eq_ok applied
    obtain ⟨pid, identified, applied⟩ := bind_eq_ok applied
    obtain ⟨⟨record', dropped'⟩, folded, applied⟩ := bind_eq_ok applied
    cases applied
    have sameId : record.id = id := id_foldlM_addTo folded
    rw [sameId]
    exact ⟨pid, skips, named, identified, folded, rfl⟩

/-- Each value of a design that records was recorded or dropped in its turn. -/
theorem addTo_of_apply {record : Record} {rules : List Rule} {dropped : Nat}
    (applied : d.apply tolerable index document = .ok (.recorded record rules dropped)) :
    ∀ entry ∈ d.evaluators, ∃ before after, d.addTo tolerable ⟨document, index, d.name⟩ before entry = .ok after := by
  obtain ⟨pid, _, _, _, folded, _⟩ := apply_recorded applied
  exact step_of_foldlM folded

end

/-- A step makes a record or leaves records and rules as they are. -/
theorem step_cases {tolerable : List ErrorKind} {s s' : State} {pair : Design × Nat × Json}
    (stepped : step tolerable s pair = .ok s') :
    (made? tolerable pair = none ∧ s'.records = s.records ∧ s'.rules = s.rules) ∨
    ∃ record, made? tolerable pair = some (pair.1, record) ∧
      s'.records = putRecord record s.records ∧
      s'.rules = Rule.putAll (pair.1.rulesFor record.id) s.rules := by
  unfold step at stepped
  split at stepped
  · next applied outcome =>
    cases stepped
    cases applied with
    | skipped => exact .inl ⟨by simp [made?, applyPair, outcome], rfl, rfl⟩
    | recorded record rules dropped =>
      refine .inr ⟨record, by simp [made?, applyPair, outcome], rfl, ?_⟩
      obtain ⟨_, _, _, _, _, rfl⟩ := apply_recorded outcome
      rfl
  · cases stepped

/-! ## Records -/

theorem find_putRecord (record : Record) (rs : List Record) (id : String) :
    (putRecord record rs).find? (·.id == id) =
      if record.id = id then some record else rs.find? (·.id == id) := by
  induction rs with
  | nil => by_cases named : record.id = id <;> simp [putRecord, named]
  | cons r rest ih =>
    by_cases replaced : r.id = record.id
    · by_cases named : record.id = id
      · simp [putRecord, replaced, named]
      · simp [putRecord, replaced, named]
    · by_cases named : record.id = id
      · have other : ¬ r.id = id := named ▸ replaced
        simp [putRecord, named, other, ih]
      · simp only [putRecord, replaced, if_false, List.find?_cons, ih, named]

/-- No two records have one id. -/
def DistinctIds (rs : List Record) : Prop := (rs.map Record.id).Nodup

theorem distinctIds_putRecord {rs : List Record} (distinct : DistinctIds rs) (record : Record) :
    DistinctIds (putRecord record rs) := by
  unfold DistinctIds at distinct ⊢
  rw [ids_putRecord]
  split_ifs with present
  · exact distinct
  · refine List.nodup_append.mpr ⟨distinct, by simp, ?_⟩
    intro id member other new same
    rw [List.mem_singleton.mp new] at same
    exact present (same ▸ member)

/-- Under distinct ids, the record that is found under an id is the one that has it. -/
theorem find_iff_of_distinctIds {rs : List Record} (distinct : DistinctIds rs) (id : String) (r : Record) :
    rs.find? (·.id == id) = some r ↔ r ∈ rs ∧ r.id = id := by
  constructor
  · intro found
    exact ⟨List.mem_of_find?_eq_some found, by simpa using List.find?_some found⟩
  · rintro ⟨member, rfl⟩
    induction rs with
    | nil => simp at member
    | cons first rest ih =>
      simp only [DistinctIds, List.map_cons, List.nodup_cons] at distinct
      rcases List.mem_cons.mp member with rfl | member
      · simp
      · have other : first.id ≠ r.id := fun same => distinct.1 (same ▸ List.mem_map_of_mem member)
        rw [List.find?_cons_of_neg (by simpa using other)]
        exact ih distinct.2 member

/-! ## Rules -/

/-- The key under which rules link back to a receiver for a link type. -/
def ruleKey? (forward receiver : String) : List Rule → Option String
  | [] => none
  | r :: rest =>
    if r.forward = forward ∧ r.receiver = receiver then some r.backward else ruleKey? forward receiver rest

/-- What holds of the rules of a run: one rule for a condition, which targets its receiver. -/
structure RulesFit (rules : List Rule) : Prop where
  distinct : rules.Pairwise fun a b => ¬ (a.forward = b.forward ∧ a.receiver = b.receiver)
  targeted : ∀ rule ∈ rules, rule.target = rule.receiver

theorem rulesFit_nil : RulesFit [] := ⟨.nil, by simp⟩

theorem mem_put {new rule : Rule} {rules : List Rule} (member : rule ∈ new.put rules) :
    rule = new ∨ rule ∈ rules := by
  induction rules with
  | nil => exact .inl (List.mem_singleton.mp member)
  | cons r rest ih =>
    unfold Rule.put at member
    split_ifs at member with taken
    · rcases List.mem_cons.mp member with rfl | member
      · exact .inl rfl
      · exact .inr (List.mem_cons_of_mem _ member)
    · rcases List.mem_cons.mp member with rfl | member
      · exact .inr List.mem_cons_self
      · exact (ih member).imp_right (List.mem_cons_of_mem _)

theorem rulesFit_put {rules : List Rule} (fit : RulesFit rules) {new : Rule} (targeted : new.target = new.receiver) :
    RulesFit (new.put rules) := by
  constructor
  · have distinct := fit.distinct
    clear fit
    induction rules with
    | nil => simp [Rule.put]
    | cons r rest ih =>
      obtain ⟨apart, distinct⟩ := List.pairwise_cons.mp distinct
      unfold Rule.put
      split_ifs with taken
      · refine List.pairwise_cons.mpr ⟨?_, distinct⟩
        rintro x member ⟨forward, receiver⟩
        exact apart x member ⟨taken.1.trans forward, taken.2.trans receiver⟩
      · refine List.pairwise_cons.mpr ⟨?_, ih distinct⟩
        intro x member
        rcases mem_put member with rfl | member
        · exact taken
        · exact apart x member
  · intro rule member
    rcases mem_put member with rfl | member
    · exact targeted
    · exact fit.targeted rule member

theorem rulesFit_putAll {new rules : List Rule} (fit : RulesFit rules)
    (targeted : ∀ rule ∈ new, rule.target = rule.receiver) : RulesFit (Rule.putAll new rules) := by
  induction new generalizing rules with
  | nil => exact fit
  | cons r rest ih =>
    exact ih (rulesFit_put fit (targeted r List.mem_cons_self)) fun rule member =>
      targeted rule (List.mem_cons_of_mem _ member)

theorem rulesFit_rulesFor (d : Design) (id : String) : RulesFit (d.rulesFor id) := by
  refine rulesFit_putAll rulesFit_nil ?_
  intro rule member
  obtain ⟨pair, _, rfl⟩ := List.mem_map.mp member
  rfl

/-- Rules that fit hold exactly the rules that their keys say. -/
theorem ruleKey_iff {rules : List Rule} (fit : RulesFit rules) (forward receiver backward : String) :
    ruleKey? forward receiver rules = some backward ↔ ⟨forward, receiver, receiver, backward⟩ ∈ rules := by
  obtain ⟨distinct, targeted⟩ := fit
  induction rules with
  | nil => simp [ruleKey?]
  | cons r rest ih =>
    obtain ⟨apart, distinct⟩ := List.pairwise_cons.mp distinct
    have target := targeted r List.mem_cons_self
    have later := ih distinct fun rule member => targeted rule (List.mem_cons_of_mem _ member)
    unfold ruleKey?
    split_ifs with asked
    · obtain ⟨rfl, rfl⟩ := asked
      constructor
      · intro key
        obtain ⟨_, _, _, _⟩ := r
        cases target
        cases key
        exact List.mem_cons_self
      · intro member
        rcases List.mem_cons.mp member with same | member
        · rw [← same]
        · exact absurd ⟨rfl, rfl⟩ (apart _ member)
    · rw [later, List.mem_cons]
      refine ⟨.inr, fun member => member.resolve_left ?_⟩
      rintro rfl
      exact asked ⟨rfl, rfl⟩

theorem ruleKey_put (new : Rule) (rules : List Rule) (forward receiver : String) :
    ruleKey? forward receiver (new.put rules) =
      if new.forward = forward ∧ new.receiver = receiver then some new.backward
      else ruleKey? forward receiver rules := by
  induction rules with
  | nil => rfl
  | cons r rest ih =>
    unfold Rule.put
    by_cases taken : r.forward = new.forward ∧ r.receiver = new.receiver
    · rw [if_pos taken, ruleKey?, ruleKey?]
      split_ifs with asked same
      · rfl
      · exact absurd (taken.1 ▸ taken.2 ▸ same) asked
      · rfl
    · by_cases asked : new.forward = forward ∧ new.receiver = receiver
      · have other : ¬ (r.forward = forward ∧ r.receiver = receiver) := asked.1 ▸ asked.2 ▸ taken
        rw [if_neg taken, if_pos asked, ruleKey?, if_neg other, ih, if_pos asked]
      · rw [if_neg taken, if_neg asked, ruleKey?, ih, if_neg asked]
        rfl

/-- Of several rules for one condition, the one that was put last is in force. -/
theorem ruleKey_putAll (new rules : List Rule) (forward receiver : String) :
    ruleKey? forward receiver (Rule.putAll new rules) =
      ((new.filter fun rule => rule.forward = forward ∧ rule.receiver = receiver).getLast?.map Rule.backward).or
        (ruleKey? forward receiver rules) := by
  induction new generalizing rules with
  | nil => simp [Rule.putAll]
  | cons r rest ih =>
    have later : ruleKey? forward receiver (Rule.putAll (r :: rest) rules) = _ := ih (r.put rules)
    rw [later, ruleKey_put]
    by_cases asked : r.forward = forward ∧ r.receiver = receiver
    · rw [if_pos asked, List.filter_cons_of_pos (by simpa using asked), List.getLast?_cons]
      cases (rest.filter fun rule => rule.forward = forward ∧ rule.receiver = receiver).getLast? <;> rfl
    · rw [if_neg asked, List.filter_cons_of_neg (by simpa using asked)]

/-- The key of the backlink that a design declares last for a link type. -/
def lastKey? (forward : String) (d : Design) : Option String :=
  (d.backlinks.filter (·.1 = forward)).getLast?.map (·.2)

theorem ruleKey_rulesFor (d : Design) (id forward receiver : String) :
    ruleKey? forward receiver (d.rulesFor id) = if id = receiver then lastKey? forward d else none := by
  unfold Design.rulesFor lastKey?
  rw [ruleKey_putAll, List.filter_map, List.getLast?_map]
  split_ifs with asked
  · simp [Function.comp_def, asked, ruleKey?]
  · simp [Function.comp_def, asked, ruleKey?]

/-- Among rules that fit, the last one for a condition is the only one. -/
private theorem getLast_filter_of_fit {rules : List Rule} (fit : RulesFit rules) (forward receiver : String) :
    (rules.filter fun rule => rule.forward = forward ∧ rule.receiver = receiver).getLast?.map Rule.backward =
      ruleKey? forward receiver rules := by
  have distinct := fit.distinct
  clear fit
  induction rules with
  | nil => rfl
  | cons r rest ih =>
    obtain ⟨apart, distinct⟩ := List.pairwise_cons.mp distinct
    unfold ruleKey?
    split_ifs with asked
    · have none : rest.filter (fun rule => rule.forward = forward ∧ rule.receiver = receiver) = [] := by
        rw [List.filter_eq_nil_iff]
        intro rule member
        have other : ¬ (rule.forward = forward ∧ rule.receiver = receiver) := by
          rintro ⟨sameForward, sameReceiver⟩
          exact apart rule member ⟨asked.1.trans sameForward.symm, asked.2.trans sameReceiver.symm⟩
        simpa using other
      rw [List.filter_cons_of_pos (by simpa using asked), none]
      rfl
    · rw [List.filter_cons_of_neg (by simpa using asked)]
      exact ih distinct

/-- What a design says for the record of an id goes before what was said earlier. -/
theorem ruleKey_putAll_rulesFor (d : Design) (id : String) (rules : List Rule) (forward receiver : String) :
    ruleKey? forward receiver (Rule.putAll (d.rulesFor id) rules) =
      (if id = receiver then lastKey? forward d else none).or (ruleKey? forward receiver rules) := by
  rw [ruleKey_putAll, getLast_filter_of_fit (rulesFit_rulesFor d id), ruleKey_rulesFor]

/-! ## All pairs -/

/-- The key in force under which the record of an id links back for a link type: the one that is
declared by the last making of the id whose design declares any. -/
def keyInForce? (tolerable : List ErrorKind) (pairs : List (Design × Nat × Json)) (forward id : String) :
    Option String :=
  ((makings tolerable pairs id).filterMap fun making => lastKey? forward making.1).getLast?

section

variable {tolerable : List ErrorKind} {pairs : List (Design × Nat × Json)} {s s' : State}

private theorem makings_cons_none {pair : Design × Nat × Json} (nothing : made? tolerable pair = none) (id : String) :
    makings tolerable (pair :: pairs) id = makings tolerable pairs id := by
  rw [makings, List.filterMap_cons_none nothing, makings]

private theorem makings_cons_some {pair : Design × Nat × Json} {making : Design × Record}
    (made : made? tolerable pair = some making) (id : String) :
    makings tolerable (pair :: pairs) id =
      if making.2.id = id then making :: makings tolerable pairs id else makings tolerable pairs id := by
  rw [makings, List.filterMap_cons_some made, List.filter_cons, makings]
  by_cases named : making.2.id = id <;> simp [named]

theorem distinctIds_of_pairs (ran : pairs.foldlM (step tolerable) s = .ok s') (distinct : DistinctIds s.records) :
    DistinctIds s'.records := by
  refine foldlM_keeps (P := fun now => DistinctIds now.records) ran (fun pair _ before after stepped distinct => ?_)
    distinct
  rcases step_cases stepped with ⟨_, records, _⟩ | ⟨record, _, records, _⟩
  · rw [records]; exact distinct
  · rw [records]; exact distinctIds_putRecord distinct record

theorem rulesFit_of_pairs (ran : pairs.foldlM (step tolerable) s = .ok s') (fit : RulesFit s.rules) :
    RulesFit s'.rules := by
  refine foldlM_keeps (P := fun now => RulesFit now.rules) ran (fun pair _ before after stepped fit => ?_) fit
  rcases step_cases stepped with ⟨_, _, rules⟩ | ⟨record, _, _, rules⟩
  · rw [rules]; exact fit
  · rw [rules]; exact rulesFit_putAll fit (rulesFit_rulesFor pair.1 record.id).targeted

/-- Under each id stands the record that was made last under it. -/
theorem find_records_of_pairs (ran : pairs.foldlM (step tolerable) s = .ok s') (id : String) :
    s'.records.find? (·.id == id) =
      ((builder? tolerable pairs id).map (·.2)).or (s.records.find? (·.id == id)) := by
  induction pairs generalizing s with
  | nil => cases ran; rfl
  | cons pair rest ih =>
    obtain ⟨mid, stepped, ran⟩ := foldlM_cons_ok ran
    rw [ih ran]
    unfold builder?
    rcases step_cases stepped with ⟨nothing, records, _⟩ | ⟨record, made, records, _⟩
    · rw [makings_cons_none nothing, records]
    · rw [makings_cons_some made, records, find_putRecord]
      by_cases named : record.id = id
      · rw [if_pos named, if_pos named, List.getLast?_cons]
        cases (makings tolerable rest id).getLast? <;> rfl
      · rw [if_neg named, if_neg named]

/-- Each condition has the key that was declared last for it. -/
theorem ruleKey_of_pairs (ran : pairs.foldlM (step tolerable) s = .ok s') (forward id : String) :
    ruleKey? forward id s'.rules = (keyInForce? tolerable pairs forward id).or (ruleKey? forward id s.rules) := by
  induction pairs generalizing s with
  | nil => cases ran; rfl
  | cons pair rest ih =>
    obtain ⟨mid, stepped, ran⟩ := foldlM_cons_ok ran
    rw [ih ran]
    unfold keyInForce?
    rcases step_cases stepped with ⟨nothing, _, rules⟩ | ⟨record, made, _, rules⟩
    · rw [makings_cons_none nothing, rules]
    · rw [makings_cons_some made, rules, ruleKey_putAll_rulesFor]
      by_cases named : record.id = id
      · rw [if_pos named, if_pos named]
        cases declared : lastKey? forward pair.1 with
        | none =>
          rw [List.filterMap_cons]
          simp only [declared]
          rfl
        | some key =>
          rw [List.filterMap_cons]
          simp only [declared, List.getLast?_cons]
          cases ((makings tolerable rest id).filterMap fun making => lastKey? forward making.1).getLast? <;> rfl
      · rw [if_neg named, if_neg named]
        rfl

end

/-! ## The pass over all records -/

private theorem addLink_eq {rs : List Record} (distinct : DistinctIds rs) (link : Link) :
    (addLink link rs).1 = rs.map fun r => if r.id = link.receiver then r.addEntry link.entry else r := by
  induction rs with
  | nil => rfl
  | cons r rest ih =>
    simp only [DistinctIds, List.map_cons, List.nodup_cons] at distinct
    unfold addLink
    rw [List.map_cons]
    split_ifs with received
    · have others : ∀ x ∈ rest, x.id ≠ link.receiver := by
        rintro x member same
        exact distinct.1 ((same.trans received.symm) ▸ List.mem_map_of_mem member)
      refine congrArg (r.addEntry link.entry :: ·) ?_
      exact (List.map_id rest).symm.trans (List.map_congr_left fun x member => (if_neg (others x member)).symm)
    · exact congrArg (r :: ·) (ih distinct.2)

/-- The entries that links bring to the record of an id, in order. -/
def received (ls : List Link) (id : String) : List Entry :=
  (ls.filter (·.receiver = id)).map Link.entry

/-- The records with the entry of a link added, and so many new entries. -/
def addCounted (counted : List Record × Nat) (link : Link) : List Record × Nat :=
  ((addLink link counted.1).1, if (addLink link counted.1).2 then counted.2 + 1 else counted.2)

theorem addLinks_eq (ls : List Link) (rs : List Record) : addLinks ls rs = ls.foldl addCounted (rs, 0) := rfl

/-- Links add to each record the entries that they bring to it, in order. -/
theorem records_addLinks {rs : List Record} (distinct : DistinctIds rs) (ls : List Link) :
    (addLinks ls rs).1 = rs.map fun r => r.addEntries (received ls r.id) := by
  have general : ∀ (ls : List Link) (rs : List Record) (n : Nat), DistinctIds rs →
      (ls.foldl addCounted (rs, n)).1 = rs.map fun r => r.addEntries (received ls r.id) := by
    intro ls
    induction ls with
    | nil => intro rs n _; exact (List.map_id rs).symm
    | cons link ls ih =>
      intro rs n distinct
      have distinct' : DistinctIds (addLink link rs).1 := by rw [DistinctIds, ids_addLink]; exact distinct
      rw [List.foldl_cons]
      refine (ih _ _ distinct').trans ?_
      rw [addLink_eq distinct, List.map_map]
      refine List.map_congr_left fun r _ => ?_
      by_cases here : r.id = link.receiver
      · simp only [Function.comp_apply, if_pos here, Record.id_addEntry, received]
        rw [List.filter_cons_of_pos (by simpa using here.symm), List.map_cons]
        rfl
      · simp only [Function.comp_apply, if_neg here, received]
        rw [List.filter_cons_of_neg (by simpa using Ne.symm here)]
  rw [addLinks_eq]
  exact general ls rs 0 distinct

/-- The links that records and rules ask for bring to a receiver one entry for each record that
links to it in a way for which there is a key. -/
theorem mem_received_links {rules : List Rule} (fit : RulesFit rules) (rs : List Record) (id : String) (e : Entry) :
    e ∈ received (links rs rules) id ↔
      ∃ s ∈ rs, ∃ forward key, s.holds ⟨forward, .text id⟩ = true ∧ ruleKey? forward id rules = some key ∧
        e = ⟨key, .text s.id⟩ := by
  unfold received links
  simp only [List.mem_map, List.mem_filter, List.mem_flatMap, decide_eq_true_eq]
  constructor
  · rintro ⟨_, ⟨⟨s, member, rule, ⟨inForce, met⟩, rfl⟩, target⟩, rfl⟩
    have receiver : rule.receiver = id := (fit.targeted rule inForce).symm.trans target
    refine ⟨s, member, rule.forward, rule.backward, by simpa [meets, receiver] using met, ?_, rfl⟩
    obtain ⟨forward, _, _, backward⟩ := rule
    cases target
    cases receiver
    exact (ruleKey_iff fit _ _ _).mpr inForce
  · rintro ⟨s, member, forward, key, held, inForce, rfl⟩
    exact ⟨⟨id, key, s.id⟩, ⟨⟨s, member, ⟨forward, id, id, key⟩, ⟨(ruleKey_iff fit _ _ _).mp inForce, held⟩, rfl⟩,
      rfl⟩, rfl⟩

theorem holds_addEntry_iff (r : Record) (e x : Entry) :
    (r.addEntry e).holds x = true ↔ r.holds x = true ∨ x.same e = true := by
  unfold Record.addEntry
  split_ifs with held
  · refine ⟨.inl, fun either => either.elim id fun same => ?_⟩
    obtain ⟨y, member, sameY⟩ := List.any_eq_true.mp held
    exact List.any_eq_true.mpr ⟨y, member, Sameness.entry_same_trans same sameY⟩
  · simp [Record.holds]

theorem holds_addEntries_iff (r : Record) (es : List Entry) (x : Entry) :
    (r.addEntries es).holds x = true ↔ r.holds x = true ∨ ∃ e ∈ es, x.same e = true := by
  induction es generalizing r with
  | nil => simp [Record.addEntries]
  | cons e es ih =>
    have later : ((r.addEntry e).addEntries es).holds x = true ↔ _ := ih (r.addEntry e)
    refine later.trans ?_
    rw [holds_addEntry_iff]
    simp [or_assoc]

/-- Entries that are added come behind those that are there: what was lacked, each at its first place. -/
theorem addEntries_eq (r : Record) (es : List Entry) :
    r.addEntries es = { r with entries := r.entries ++ (es.filter fun e => r.lacks e).eraseDupsBy Entry.same } := by
  induction es generalizing r with
  | nil => simp [Record.addEntries]
  | cons e rest ih =>
    have later : r.addEntries (e :: rest) = (r.addEntry e).addEntries rest := rfl
    rw [later, ih]
    by_cases held : r.holds e = true
    · rw [Record.addEntry_of_holds held, List.filter_cons_of_neg (by simp [Record.lacks, held])]
    · -- the entry is new: what is the same as it is dropped later, from the rest
      have lacks (x : Entry) : (r.addEntry e).lacks x = (decide (x.same e = false) && r.lacks x) := by
        have both := holds_addEntry_iff r e x
        rw [Record.lacks, Record.lacks, Bool.eq_iff_iff]
        simp only [Bool.not_eq_true', ← Bool.not_eq_true, both, Bool.and_eq_true, decide_eq_true_eq]
        tauto
      rw [List.filter_cons_of_pos (by simpa [Record.lacks] using held), List.eraseDupsBy_cons, List.filter_filter]
      simp only [lacks]
      simp [Record.addEntry, held]

/-! ## Whole runs -/

/-- A run that succeeds has applied all pairs, and its records are those that the pass leaves. -/
theorem run_eq_ok {designs : List Design} {tolerable : List ErrorKind} {documents : List Json} {g : RecordGraph}
    (ran : run designs tolerable documents = .ok g) :
    ∃ s, (pairs designs documents).foldlM (step tolerable) State.start = .ok s ∧
      g.records = (inferBacklinks s.records s.rules).1 := by
  unfold run at ran
  cases folded : (pairs designs documents).foldlM (step tolerable) State.start with
  | error e => rw [folded] at ran; cases ran
  | ok s =>
    rw [folded] at ran
    cases ran
    exact ⟨s, rfl, rfl⟩

theorem id_of_builder {tolerable : List ErrorKind} {pairs : List (Design × Nat × Json)} {id : String} {d : Design}
    {own : Record} (built : builder? tolerable pairs id = some (d, own)) : own.id = id := by
  have member := List.mem_of_getLast? built
  simpa using (List.mem_filter.mp member).2

/-- A record of a run holds what its last making gave it, and a link back to each record whose own
last making links to it in a way for which a key is in force. -/
theorem holds_iff_of_run {designs : List Design} {tolerable : List ErrorKind} {documents : List Json} {g : RecordGraph}
    (ran : run designs tolerable documents = .ok g) {r : Record} (member : r ∈ g.records) :
    ∃ d own, builder? tolerable (pairs designs documents) r.id = some (d, own) ∧
      ∀ e : Entry, r.holds e = true ↔ own.holds e = true ∨
        ∃ sender sent forward key, builder? tolerable (pairs designs documents) sent.id = some (sender, sent) ∧
          sent.holds ⟨forward, .text r.id⟩ = true ∧
          keyInForce? tolerable (pairs designs documents) forward r.id = some key ∧
          e.same ⟨key, .text sent.id⟩ = true := by
  obtain ⟨s, folded, records⟩ := run_eq_ok ran
  have distinct : DistinctIds s.records := distinctIds_of_pairs folded List.nodup_nil
  have fit : RulesFit s.rules := rulesFit_of_pairs folded rulesFit_nil
  have made (own : Record) : own ∈ s.records ↔
      ∃ d, builder? tolerable (pairs designs documents) own.id = some (d, own) := by
    have found := find_records_of_pairs folded own.id
    have present := find_iff_of_distinctIds distinct own.id own
    rw [found] at present
    simpa [State.start] using present.symm
  have keyed (forward : String) :
      ruleKey? forward r.id s.rules = keyInForce? tolerable (pairs designs documents) forward r.id := by
    rw [ruleKey_of_pairs folded]
    exact Option.or_none
  rw [records, inferBacklinks, records_addLinks distinct] at member
  obtain ⟨own, ownMember, rfl⟩ := List.mem_map.mp member
  rw [id_addEntries] at keyed ⊢
  obtain ⟨d, built⟩ := (made own).mp ownMember
  refine ⟨d, own, built, fun e => ?_⟩
  rw [holds_addEntries_iff]
  refine or_congr_right ⟨?_, ?_⟩
  · rintro ⟨e', brought, same⟩
    obtain ⟨sent, sentMember, forward, key, held, inForce, rfl⟩ := (mem_received_links fit _ _ _).mp brought
    obtain ⟨sender, sentBuilt⟩ := (made sent).mp sentMember
    exact ⟨sender, sent, forward, key, sentBuilt, held, keyed forward ▸ inForce, same⟩
  · rintro ⟨sender, sent, forward, key, sentBuilt, held, inForce, same⟩
    exact ⟨_, (mem_received_links fit _ _ _).mpr
      ⟨sent, (made sent).mpr ⟨sender, sentBuilt⟩, forward, key, held, (keyed forward).trans inForce, rfl⟩, same⟩

end RecordMapper.Proofs.Runs
