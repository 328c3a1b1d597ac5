import RecordMapper.Proofs.Runs

/-!
# Declared backlinks

A design declares backlinks as pairs of a link type and a key, and nothing keeps it from declaring
two keys for one link type. A run keeps one rule for a link type and a receiver, so of such keys
the one declared last is honoured (`backlink_honoured_iff`) and another one is lost
(`earlier_backlink_lost`).
-/

namespace RecordMapper.Proofs.Backlinks
open RecordMapper.Run RecordMapper.Proofs.Runs

private theorem lastKey_of_declared {d : Design} {forward backward : String}
    (declared : (forward, backward) ∈ d.backlinks) : ∃ key, lastKey? forward d = some key := by
  unfold lastKey?
  have member : (forward, backward) ∈ d.backlinks.filter (·.1 = forward) := by simpa using declared
  rw [List.getLast?_eq_some_getLast (List.ne_nil_of_mem member)]
  exact ⟨_, rfl⟩

/-- What the last making of an id declares for a link type is in force. -/
private theorem keyInForce_of_builder {tolerable : List ErrorKind} {pairs : List (Design × Nat × Json)} {id : String}
    {d : Design} {own : Record} (built : builder? tolerable pairs id = some (d, own)) {forward key : String}
    (last : lastKey? forward d = some key) : keyInForce? tolerable pairs forward id = some key := by
  obtain ⟨before, makings⟩ := List.getLast?_eq_some_iff.mp built
  unfold keyInForce?
  rw [makings, List.filterMap_append]
  simp [last]

/-- For records `r` and `s` of a run, where `d` made what stands under the id of `r` and `s` links
to `r` by itself under a link type for which `d` declares a backlink: `r` holds that link back
exactly if `d` declares no other key for this link type later on, or made the very entry itself, or
`s` links to `r` under another link type too for which the same key is in force. -/
theorem backlink_honoured_iff {designs : List Design} {tolerable : List ErrorKind} {documents : List Json}
    {g : RecordGraph} (ran : run designs tolerable documents = .ok g) :
    ∀ r ∈ g.records, ∀ s ∈ g.records, ∃ d own sender sent,
      builder? tolerable (pairs designs documents) r.id = some (d, own) ∧
      builder? tolerable (pairs designs documents) s.id = some (sender, sent) ∧
      ∀ forward backward, (forward, backward) ∈ d.backlinks → sent.holds ⟨forward, .text r.id⟩ = true →
        (r.holds ⟨backward, .text s.id⟩ = true ↔
          lastKey? forward d = some backward ∨ own.holds ⟨backward, .text s.id⟩ = true ∨
          ∃ other, other ≠ forward ∧ sent.holds ⟨other, .text r.id⟩ = true ∧
            keyInForce? tolerable (pairs designs documents) other r.id = some backward) := by
  intro r member s member'
  obtain ⟨d, own, built, holds⟩ := holds_iff_of_run ran member
  obtain ⟨sender, sent, sentBuilt, _⟩ := holds_iff_of_run ran member'
  refine ⟨d, own, sender, sent, built, sentBuilt, ?_⟩
  intro forward backward declared linked
  have sentId : sent.id = s.id := id_of_builder sentBuilt
  rw [holds]
  constructor
  · rintro (made | ⟨sender', sent', forward', key, sentBuilt', linked', inForce, same⟩)
    · exact .inr (.inl made)
    · obtain ⟨rfl, sameText⟩ := (Sameness.entry_same_iff _ _).mp same
      have sameId : s.id = sent'.id := by simpa [Atom.same] using sameText
      -- one id has one last making, so the links of `sent'` are those of `sent`
      rw [← sameId, sentBuilt] at sentBuilt'
      cases sentBuilt'
      by_cases sameType : forward' = forward
      · obtain ⟨key, last⟩ := lastKey_of_declared declared
        rw [sameType, keyInForce_of_builder built last] at inForce
        exact .inl (last.trans inForce)
      · exact .inr (.inr ⟨forward', sameType, linked', inForce⟩)
  · rintro (last | made | ⟨other, _, linked', inForce⟩)
    · refine .inr ⟨sender, sent, forward, backward, sentId.symm ▸ sentBuilt, linked,
        keyInForce_of_builder built last, ?_⟩
      rw [sentId]
      exact Entry.same_refl _
    · exact .inl made
    · refine .inr ⟨sender, sent, other, backward, sentId.symm ▸ sentBuilt, linked', inForce, ?_⟩
      rw [sentId]
      exact Entry.same_refl _

/-- Makes the record `B` and asks for links back under two keys for one link type. -/
def citedTwice : Design :=
  (({ Design.empty "cited" with id := some (Evaluator.const (.str "B")) }).add "isCitedBy"
    (.backlink "cites")).add "citedIn" (.backlink "cites")

/-- Makes the record `A` that cites `B`. -/
def citing : Design :=
  ({ Design.empty "citing" with id := some (Evaluator.const (.str "A")) }).add "cites"
    (.value (Evaluator.const (.str "B")))

/-- What `citedTwice` and `citing` come to on one document. -/
def citations : RecordGraph :=
  ⟨[⟨"B", none, [⟨"citedIn", .text "A"⟩]⟩, ⟨"A", none, [⟨"cites", .text "B"⟩]⟩], ⟨2, 1, 2, 0, 0, 1, 0⟩⟩

/-- Of the two keys that `citedTwice` declares for citations, the later one is honoured and the
earlier one is not, by the general rule. -/
theorem later_backlink_honoured :
    run [citedTwice, citing] [] [.null] = .ok citations ∧
    ∃ r ∈ citations.records, ∃ s ∈ citations.records,
      r.holds ⟨"citedIn", .text s.id⟩ = true ∧ ¬ r.holds ⟨"isCitedBy", .text s.id⟩ = true := by
  have ran : run [citedTwice, citing] [] [.null] = .ok citations := rfl
  refine ⟨ran, _, List.mem_cons_self, _, List.mem_cons_of_mem _ List.mem_cons_self, ?_⟩
  obtain ⟨d, own, sender, sent, built, sentBuilt, honoured⟩ :=
    backlink_honoured_iff ran _ List.mem_cons_self _ (List.mem_cons_of_mem _ List.mem_cons_self)
  cases built
  cases sentBuilt
  constructor
  · exact (honoured "cites" "citedIn" (by decide) (by decide)).mpr (.inl (by decide))
  · rw [honoured "cites" "isCitedBy" (by decide) (by decide)]
    rintro (last | made | ⟨other, different, linked, _⟩)
    · exact absurd last (by decide)
    · exact absurd made (by decide)
    · change (Entry.same ⟨other, .text "B"⟩ ⟨"cites", .text "B"⟩ || false) = true at linked
      rw [Bool.or_false, Sameness.entry_same_iff] at linked
      exact different linked.1

/-- A declared backlink can be lost although a record links in the way that it names. -/
theorem earlier_backlink_lost :
    ¬ ∀ (designs : List Design) (tolerable : List ErrorKind) (documents : List Json) (g : RecordGraph),
      run designs tolerable documents = .ok g →
      ∀ r ∈ g.records, ∀ s ∈ g.records, ∀ d own sender sent forward backward,
        builder? tolerable (pairs designs documents) r.id = some (d, own) →
        builder? tolerable (pairs designs documents) s.id = some (sender, sent) →
        (forward, backward) ∈ d.backlinks → sent.holds ⟨forward, .text r.id⟩ = true →
        r.holds ⟨backward, .text s.id⟩ = true := by
  intro all
  have held := all [citedTwice, citing] [] [.null] citations rfl _ List.mem_cons_self _
    (List.mem_cons_of_mem _ List.mem_cons_self) _ _ _ _ "cites" "isCitedBy" rfl rfl (by decide) (by decide)
  exact absurd held (by decide)

end RecordMapper.Proofs.Backlinks
