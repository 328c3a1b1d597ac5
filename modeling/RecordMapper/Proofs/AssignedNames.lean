import RecordMapper.Proofs.RegistryRuns

/-!
# Assigned names

Names that are given and names that are made up share one space, and any of them can be in the way of a later
one. The search for a free form ends all the same, at the first one (`assigned_iff`). So every document of a
registry stands under a name of its own until the next reset, and no later one takes its place
(`documents_kept`).
-/

namespace RecordMapper.Proofs.AssignedNames
open RecordMapper.Registry RecordMapper.Proofs.RegistryRuns

/-! ## The name of one document -/

/-- The name that a document gets among names that are taken: its own if that is free, and else the first of
its numbered forms that is. Counting up to that form takes no more steps than there are names. -/
inductive Assigned (taken : List String) (name : String) : String → Prop where
  | own : name ∉ taken → Assigned taken name name
  | form (i : Nat) : name ∈ taken → 1 ≤ i → i ≤ taken.length → numbered name i ∉ taken →
      (∀ j, 1 ≤ j → j < i → numbered name j ∈ taken) → Assigned taken name (numbered name i)

theorem assigned_freeName (taken : List String) (name : String) : Assigned taken name (freeName taken name) := by
  have fresh := freeName_not_mem taken name
  unfold freeName at fresh ⊢
  split
  · next bare =>
    rw [if_pos bare] at fresh
    split
    · next i found =>
      rw [found] at fresh
      have earlier : ∀ j < i, numbered name (j + 1) ∈ taken := by
        intro j before
        simpa using (List.find?_range_eq_some.mp found).2.2 j before
      refine .form (i + 1) bare (by omega) (lt_length_of_taken bare earlier) fresh ?_
      intro j positive before
      obtain ⟨k, rfl⟩ := Nat.exists_eq_add_of_le' positive
      exact earlier k (by omega)
    · next none_free =>
      rw [none_free] at fresh
      exact absurd bare fresh
  · next free => exact .own free

theorem assigned_unique {taken : List String} {name first second : String} (one : Assigned taken name first)
    (other : Assigned taken name second) : first = second := by
  cases one with
  | own free =>
    cases other with
    | own _ => rfl
    | form _ bare => exact absurd bare free
  | form i bare positive _ free earlier =>
    cases other with
    | own free => exact absurd bare free
    | form j _ positive' _ free' earlier' =>
      rcases Nat.lt_trichotomy i j with before | rfl | behind
      · exact absurd (earlier' i positive before) free
      · rfl
      · exact absurd (earlier j positive' behind) free'

/-- Whatever names are taken, there is exactly one name that a document gets. -/
theorem assigned_iff (taken : List String) (name assigned : String) :
    Assigned taken name assigned ↔ assigned = freeName taken name :=
  ⟨fun one => assigned_unique one (assigned_freeName taken name), fun same => same ▸ assigned_freeName taken name⟩

/-! ## The documents of a registry -/

/-- A registry after a call, and the documents since the last reset, each with the name that was answered. -/
def enter (s : Registry × List (String × Json)) : Call → Registry × List (String × Json)
  | .process name document =>
    let (r, assigned) := s.1.process name document
    (r, s.2 ++ [(assigned, document)])
  | .reset => (.empty, [])

/-- The documents that came since the last reset, each with the name that was answered for it. -/
def ledger (calls : List Call) : List (String × Json) := (calls.foldl enter (.empty, [])).2

theorem foldl_enter (calls : List Call) : calls.foldl enter (.empty, []) = (after calls, ledger calls) := by
  suffices (calls.foldl enter (.empty, [])).1 = after calls from Prod.ext this rfl
  induction calls using List.reverseRecOn with
  | nil => rfl
  | append_singleton earlier c ih =>
    rw [after, List.foldl_append, List.foldl_append, ← after, ← ih]
    cases c <;> rfl

theorem ledger_concat (earlier : List Call) (c : Call) :
    ledger (earlier ++ [c]) = (enter (after earlier, ledger earlier) c).2 := by
  rw [ledger, List.foldl_append, foldl_enter]
  rfl

/-- A registry holds what came since the last reset, in order and under the names that were answered. -/
theorem documents_after (calls : List Call) : (after calls).documents = ledger calls := by
  induction calls using List.reverseRecOn with
  | nil => rfl
  | append_singleton earlier c ih =>
    rw [ledger_concat, after, List.foldl_append, ← after]
    cases c with
    | process name document =>
      change (after earlier).documents ++ _ = ledger earlier ++ _
      rw [ih]
    | reset => rfl

/-- A document is taken in under the one name that it gets: it is found under that name, which no other document
had, and whatever was found under another name still is. As an update of a map it would change no entry. -/
structure TakenIn (r : Registry) (name : String) (document : Json) (assigned : String) (r' : Registry) : Prop where
  named : ∀ other, Assigned r.names name other ↔ other = assigned
  fresh : assigned ∉ r.names
  found : r'.document? assigned = some document
  kept : ∀ other, other ≠ assigned → r'.document? other = r.document? other
  last : r'.documents = r.documents ++ [(assigned, document)]
  update : r'.documents = putMember assigned document r.documents

theorem putMember_of_fresh {α : Type} {key : String} {members : List (String × α)} (fresh : key ∉ members.map (·.1))
    (value : α) : putMember key value members = members ++ [(key, value)] := by
  induction members with
  | nil => rfl
  | cons m rest ih =>
    rw [List.map_cons, List.mem_cons, not_or] at fresh
    rw [putMember, if_neg (Ne.symm fresh.1), ih fresh.2, List.cons_append]

theorem takenIn_process (r : Registry) (name : String) (document : Json) :
    TakenIn r name document (r.process name document).2 (r.process name document).1 := by
  have fresh := freeName_not_mem r.names name
  have update : (r.process name document).1.documents = putMember (freeName r.names name) document r.documents :=
    (putMember_of_fresh fresh document).symm
  refine ⟨assigned_iff _ _, fresh, ?_, ?_, rfl, update⟩
  · rw [document?, update]
    exact lookup_putMember_self _ _ _
  · intro other apart
    rw [document?, update]
    exact lookup_putMember_of_ne apart _ _

/-- After any calls a registry lists the names that were answered since the last reset, in order and each once,
and finds under each the document that it was answered for. The next document is taken in under the name that
was given with it, or else under the first numbered form that is free, and takes the place of no other. -/
theorem documents_kept (calls : List Call) :
    (after calls).names = (ledger calls).map (·.1) ∧ (after calls).names.Nodup ∧
      (∀ entry ∈ ledger calls, (after calls).document? entry.1 = some entry.2) ∧
      ∀ name document, TakenIn (after calls) name document ((after calls).process name document).2
        ((after calls).process name document).1 := by
  have held := documents_after calls
  have distinct := nodup_names_after calls
  refine ⟨by rw [names, held], distinct, ?_, takenIn_process _⟩
  intro entry inside
  rw [← held] at inside
  exact (Documents.lookup_iff_mem distinct _ _).mpr inside

/-- Names of which some look like numbered forms of others. -/
def drafts : List Call :=
  [.process "draft" (.str "O"), .reset, .process "draft (1)" (.str "A"), .process "draft (3)" (.str "B"),
    .process "draft" (.str "C"), .process "draft" (.str "D"), .process "draft (1)" (.str "E"),
    .process "draft" (.str "F")]

theorem drafts_kept :
    (after drafts).names = ["draft (1)", "draft (3)", "draft", "draft (2)", "draft (1) (1)", "draft (4)"] ∧
      ("draft (4)", Json.str "F") ∈ ledger drafts ∧ (after drafts).document? "draft (4)" = some (.str "F") := by
  have listed : ledger drafts = [("draft (1)", .str "A"), ("draft (3)", .str "B"), ("draft", .str "C"),
      ("draft (2)", .str "D"), ("draft (1) (1)", .str "E"), ("draft (4)", .str "F")] := by rfl
  obtain ⟨names, _, found, _⟩ := documents_kept drafts
  have inside : ("draft (4)", Json.str "F") ∈ ledger drafts := by simp [listed]
  exact ⟨by rw [names, listed]; rfl, inside, found _ inside⟩

end RecordMapper.Proofs.AssignedNames
