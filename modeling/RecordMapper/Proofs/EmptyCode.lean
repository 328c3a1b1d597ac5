import Mathlib.Data.List.TakeWhile
import RecordMapper.Program.Fragment
import RecordMapper.Proofs.PathTexts
import RecordMapper.Proofs.Runs
import RecordMapper.Proofs.StringLiterals

/-!
# Empty code

What to leave out of a program is decided on code: whether it is empty, blank or an empty literal.
Here the same is decided on blocks. A block comes to empty code exactly if it is silent, and code in a
slot is an empty literal exactly if the slot is silent or says nothing itself (`reads_slot`). A silent
block is a reference to nothing, a query whose own slot is silent, or a backlink whose key is silent or
says nothing.
-/

namespace RecordMapper.Proofs.EmptyCode
open RecordMapper.Program RecordMapper.Block

/-! ## Code that shows something -/

/-- Whether code has a character other than blanks and quotation marks. -/
def shows (code : String) : Bool :=
  code.toList.any fun c => !Text.isBlank c && c != '\x27' && c != '\x22'

theorem shows_append (a b : String) : shows (a ++ b) = (shows a || shows b) := by
  simp [shows]

private theorem shows_of_mem {code : String} {c : Char} (inside : c ∈ code.toList)
    (plain : Text.isBlank c = false ∧ c ≠ '\x27' ∧ c ≠ '\x22') : shows code = true := by
  rw [shows, List.any_eq_true]
  exact ⟨c, inside, by simp [plain]⟩

private theorem mem_dropWhile {p : Char → Bool} {c : Char} {cs : List Char} (inside : c ∈ cs)
    (other : p c = false) : c ∈ cs.dropWhile p := by
  rw [← List.takeWhile_append_dropWhile (p := p) (l := cs)] at inside
  rcases List.mem_append.mp inside with taken | left
  · rw [List.mem_takeWhile_imp taken] at other
    cases other
  · exact left

theorem mem_trimChars {c : Char} {cs : List Char} (inside : c ∈ cs) (plain : Text.isBlank c = false) :
    c ∈ Text.trimChars cs := by
  rw [Text.trimChars, List.mem_reverse]
  refine mem_dropWhile ?_ plain
  rw [List.mem_reverse]
  exact mem_dropWhile inside plain

theorem isEmptyLiteral_of_shows {code : String} (shown : shows code = true) : isEmptyLiteral code = false := by
  rw [shows, List.any_eq_true] at shown
  obtain ⟨c, inside, plain⟩ := shown
  simp only [Bool.and_eq_true, Bool.not_eq_true', bne_iff_ne] at plain
  have kept : c ∈ (Text.trim code).toList := by
    rw [Text.trim_toList]
    exact mem_trimChars inside plain.1.1
  rw [isEmptyLiteral]
  generalize Text.trim code = trimmed at kept
  by_contra empty
  simp only [Bool.not_eq_false, Bool.or_eq_true, beq_iff_eq] at empty
  rcases empty with (rfl | rfl) | rfl <;> simp_all

theorem isBlankText_of_shows {code : String} (shown : shows code = true) : Text.isBlankText code = false := by
  rw [shows, List.any_eq_true] at shown
  obtain ⟨c, inside, plain⟩ := shown
  simp only [Bool.and_eq_true, Bool.not_eq_true'] at plain
  rw [Text.isBlankText, List.all_eq_false]
  exact ⟨c, inside, by simp [plain.1.1]⟩

theorem ne_empty_of_shows {code : String} (shown : shows code = true) : code ≠ "" := by
  rintro rfl
  cases shown

theorem shows_append_right (a : String) {b : String} (shown : shows b = true) : shows (a ++ b) = true := by
  rw [shows_append, shown, Bool.or_true]

/-! ## Literals and calls -/

theorem isDigit_plain {c : Char} (digit : c.isDigit = true) :
    Text.isBlank c = false ∧ c ≠ '\x27' ∧ c ≠ '\x22' := by
  have range : 48 ≤ c.val ∧ c.val ≤ 57 := by simpa [Char.isDigit] using digit
  have low : 48 ≤ c.toNat := UInt32.le_iff_toNat_le.mp range.1
  have high : c.toNat ≤ 57 := UInt32.le_iff_toNat_le.mp range.2
  refine ⟨?_, ?_, ?_⟩
  · simp only [Text.isBlank, Bool.or_eq_false_iff, Bool.and_eq_false_iff, decide_eq_false_iff_not, beq_eq_false_iff_ne]
    omega
  · rintro rfl
    revert low
    decide
  · rintro rfl
    revert low
    decide

private theorem shows_digits (n : Nat) : shows (toString n) = true := by
  have digits := PathTexts.isDigits_toString n
  rw [Text.isDigits, Bool.and_eq_true, List.all_eq_true, Bool.not_eq_true', List.isEmpty_eq_false_iff] at digits
  obtain ⟨c, inside⟩ := List.exists_mem_of_ne_nil _ digits.1
  exact shows_of_mem inside (isDigit_plain (digits.2 c inside))

private theorem mark_of_layout (layout : DecimalLayout) (d : Decimal) : '.' ∈ layout.render d ∨ 'e' ∈ layout.render d := by
  rw [DecimalLayout.render]
  split_ifs
  · simp
  · simp
  · simp
  · split <;> simp

theorem shows_number (n : Number) : shows n.render = true := by
  cases n with
  | int n =>
    cases n with
    | ofNat m => exact shows_digits m
    | negSucc m =>
      have spelled : Number.render (.int (Int.negSucc m)) = "-" ++ toString (m + 1) := rfl
      rw [spelled, shows_append, shows_digits, Bool.or_true]
  | float x =>
    rcases mark_of_layout Number.layout x.shortest with point | exponent
    · exact shows_of_mem (c := '.') (by simp [Number.render, point]) (by decide)
    · exact shows_of_mem (c := 'e') (by simp [Number.render, exponent]) (by decide)

theorem shows_queryCall (t : Target) (language : QueryLanguage) (query : String) :
    shows (queryCall t language query) = true := by
  cases t <;> cases language <;> exact shows_append_right _ (by decide)

theorem shows_stopCall (t : Target) (message : String) : shows (t.stopCall message) = true := by
  cases t <;> exact shows_append_right _ (by decide)

theorem shows_backlinkCall (t : Target) (key : String) : shows (t.backlinkCall key) = true :=
  shows_append_right _ (by decide)

theorem shows_listCode (s : Style) (items : List String) : shows (listCode s items) = true := by
  unfold listCode
  split_ifs
  · decide
  · exact shows_append_right _ (by decide)

private theorem nil_of_pair {mark a b : Char} {body : List Char} (pair : mark :: body ++ [mark] = [a, b]) :
    body = [] := by
  have size := congrArg List.length pair
  simp only [List.cons_append, List.length_cons, List.length_append, List.length_nil] at size
  exact List.length_eq_zero_iff.mp (by omega)

private theorem trimChars_of_ends {mark : Char} (plain : Text.isBlank mark = false) (body : List Char) :
    Text.trimChars (mark :: body ++ [mark]) = mark :: body ++ [mark] := by
  simp [Text.trimChars, plain]

/-! ## What code in a slot tells -/

/-- Code that is nothing at all, the literal of the empty text, or neither. -/
structure Reads (silent empty : Bool) (code : String) : Prop where
  literal : isEmptyLiteral code = (silent || empty)
  text : code.isEmpty = silent
  blank : Text.isBlankText code = silent

theorem reads_nothing (empty : Bool) : Reads true empty "" where
  literal := rfl
  text := rfl
  blank := rfl

theorem reads_of_shows {code : String} (shown : shows code = true) : Reads false false code where
  literal := isEmptyLiteral_of_shows shown
  text := by simpa using ne_empty_of_shows shown
  blank := isBlankText_of_shows shown

theorem reads_quote (t : Target) (s : String) : Reads false s.isEmpty (t.quote s) := by
  obtain ⟨mark, quotes, spelled⟩ := StringLiterals.quote_written t s
  have plain : Text.isBlank mark = false := by rcases quotes with rfl | rfl <;> decide
  have trimmed : Text.trim (t.quote s) = t.quote s := by
    rw [← String.toList_inj, Text.trim_toList, spelled, trimChars_of_ends plain]
  have nonempty : t.quote s ≠ "" := by
    rw [← String.toList_inj.ne, spelled]
    simp
  refine ⟨?_, by simpa using nonempty, by simp [Text.isBlankText, spelled, plain]⟩
  -- an empty literal leaves no room between its marks, and each character takes some
  have room : (t.quote s = "\x27\x27" ∨ t.quote s = "\x22\x22") ↔ s = "" := by
    rw [← String.toList_inj, ← String.toList_inj, ← String.toList_inj, spelled]
    constructor
    · rintro (two | two) <;>
      · have body := List.flatMap_eq_nil_iff.mp (nil_of_pair two)
        exact List.eq_nil_iff_forall_not_mem.mpr fun c inside => StringLiterals.written_ne_nil mark c (body c inside)
    · intro none
      rcases quotes with rfl | rfl <;> simp [none]
  rw [Bool.eq_iff_iff]
  simp only [isEmptyLiteral, trimmed, Bool.or_eq_true, beq_iff_eq, nonempty, false_or, Bool.false_or, room,
    String.isEmpty_iff]

/-! ## Silent blocks -/

mutual

/-- Whether a block comes to no code. -/
def isSilent : Block → Bool
  | .reference _ pid => pid.isEmpty
  | .slotQuery _ _ query => isSilentSlot query
  | .backlink _ key => isSilentSlot key || isEmptySlot key
  | _ => false

/-- Whether a slot comes to no code. -/
def isSilentSlot : Option Block → Bool
  | none => true
  | some b => isSilent b

end

/-- What a block comes to fits the block: a statement comes to a statement, and a value to code that
reads as the block does and holds together unless it shows something. -/
def Fits (b : Block) : Fragment → Prop
  | .statement _ => b.isStatement = true
  | .expression code order =>
    b.isStatement = false ∧ Reads (isSilent b) (isEmptySlot (some b)) code ∧ (order = .atomic ∨ shows code = true)

private theorem fits_of_shows {b : Block} {code : String} (order : Order) (value : b.isStatement = false)
    (telling : isSilent b = false ∧ isEmptySlot (some b) = false) (shown : shows code = true) :
    Fits b (.expression code order) := by
  refine ⟨value, ?_, .inr shown⟩
  rw [telling.1, telling.2]
  exact reads_of_shows shown

private theorem fits_nothing {b : Block} (value : b.isStatement = false) (silent : isSilent b = true) :
    Fits b (.expression "" .atomic) := by
  refine ⟨value, ?_, .inl rfl⟩
  rw [silent]
  exact reads_nothing _

/-- Parentheses change nothing in how code reads. -/
private theorem reads_in_slot {b : Block} {f : Fragment} {code : String} (fits : Fits b f)
    (placed : valueCode b f = .ok code) : Reads (isSilent b) (isEmptySlot (some b)) code := by
  cases f with
  | statement st => cases placed
  | expression bare order =>
    obtain ⟨_, reads, open_or_shown⟩ := fits
    rw [valueCode] at placed
    cases placed
    split_ifs with whole
    · exact reads
    · have shown : shows bare = true := open_or_shown.resolve_left (by rintro rfl; simp at whole)
      have silent : isSilent b = false := by
        rw [← reads.text]
        simpa using ne_empty_of_shows shown
      have told : isEmptySlot (some b) = false := by
        have literal := reads.literal
        rwa [isEmptyLiteral_of_shows shown, silent, Bool.false_or, eq_comm] at literal
      rw [silent, told]
      exact reads_of_shows (shows_append_right _ (by decide))

mutual

-- Only a query in a slot and a backlink pass on what their slot comes to; the code of every other value
-- shows something of its own.
theorem fits_fragment (s : Style) : ∀ (b : Block) {f : Fragment}, fragment s b = .ok f → Fits b f
  | .record _ _ _ _, _, came => by
    rw [fragment] at came
    split at came
    · cases came
    · obtain ⟨_, _, came⟩ := Runs.bind_eq_ok came
      obtain ⟨_, _, came⟩ := Runs.bind_eq_ok came
      obtain ⟨_, _, came⟩ := Runs.bind_eq_ok came
      cases came
      rfl
  | .attr _ _ _, _, came => by
    rw [fragment] at came
    obtain ⟨_, _, came⟩ := Runs.bind_eq_ok came
    obtain ⟨_, _, came⟩ := Runs.bind_eq_ok came
    cases came
    rfl
  | .profile _ _ _, _, came => by
    rw [fragment] at came
    split at came
    · cases came
    · obtain ⟨_, _, came⟩ := Runs.bind_eq_ok came
      cases came
      rfl
  | .fieldQuery _ _ query, _, came => by
    rw [fragment] at came
    cases came
    exact fits_of_shows _ rfl ⟨rfl, rfl⟩ (shows_queryCall s.target .pointer _)
  | .slotQuery _ form query, _, came => by
    rw [fragment] at came
    obtain ⟨code, slot, came⟩ := Runs.bind_eq_ok came
    cases came
    rw [(reads_slot s query slot).text]
    cases silent : isSilentSlot query with
    | true => exact fits_nothing rfl (by rw [isSilent, silent])
    | false =>
      exact fits_of_shows _ rfl ⟨by rw [isSilent, silent], rfl⟩ (shows_queryCall s.target form.language code)
  | .stop _ _, _, came => by
    rw [fragment] at came
    obtain ⟨_, _, came⟩ := Runs.bind_eq_ok came
    cases came
    exact fits_of_shows _ rfl ⟨rfl, rfl⟩ (shows_stopCall _ _)
  | .log _ _ _, _, came => by
    rw [fragment] at came
    obtain ⟨_, _, came⟩ := Runs.bind_eq_ok came
    cases came
    exact fits_of_shows _ rfl ⟨rfl, rfl⟩ (shows_append_right _ (by decide))
  | .otherwise _ _ _, _, came => by
    rw [fragment] at came
    obtain ⟨_, _, came⟩ := Runs.bind_eq_ok came
    obtain ⟨_, _, came⟩ := Runs.bind_eq_ok came
    cases came
    exact fits_of_shows _ rfl ⟨rfl, rfl⟩ (shows_append_right _ (by decide))
  | .backlink _ key, _, came => by
    rw [fragment] at came
    obtain ⟨code, slot, came⟩ := Runs.bind_eq_ok came
    cases came
    rw [(reads_slot s key slot).literal]
    cases silent : isSilentSlot key || isEmptySlot key with
    | true => exact fits_nothing rfl (by rw [isSilent, silent])
    | false => exact fits_of_shows _ rfl ⟨by rw [isSilent, silent], rfl⟩ (shows_backlinkCall s.target code)
  | .reference _ pid, _, came => by
    rw [fragment] at came
    cases came
    cases empty : pid.isEmpty with
    | true => exact fits_nothing rfl empty
    | false => exact ⟨rfl, by simpa [isSilent, isEmptySlot, empty] using reads_quote s.target pid, .inl rfl⟩
  | .literal _ value, _, came => by
    rw [fragment] at came
    cases came
    cases value with
    | text text => exact ⟨rfl, reads_quote s.target text, .inl rfl⟩
    | number n => exact fits_of_shows _ rfl ⟨rfl, rfl⟩ (shows_number n)
    | truth truth => exact fits_of_shows _ rfl ⟨rfl, rfl⟩ (by cases s.target <;> cases truth <;> decide)
    | null => exact fits_of_shows _ rfl ⟨rfl, rfl⟩ (by cases s.target <;> decide)
  | .list _ _, _, came => by
    rw [fragment] at came
    obtain ⟨codes, _, came⟩ := Runs.bind_eq_ok came
    cases came
    exact fits_of_shows _ rfl ⟨rfl, rfl⟩ (shows_listCode s codes)

/-- How the code of a slot reads is decided by what the slot holds. -/
theorem reads_slot (s : Style) : ∀ (slot : Option Block) {code : String}, slotCode s slot = .ok code →
    Reads (isSilentSlot slot) (isEmptySlot slot) code
  | none, _, came => by
    rw [slotCode] at came
    cases came
    exact reads_nothing _
  | some b, _, came => by
    rw [slotCode] at came
    obtain ⟨f, came, placed⟩ := Runs.bind_eq_ok came
    exact reads_in_slot (fits_fragment s b came) placed

end

/-- A slot that says nothing, or holds a silent block. -/
def ComesToNothing (slot : Option Block) : Prop := isEmptySlot slot = true ∨ isSilentSlot slot = true

theorem emptyLiteral_slot_iff {s : Style} {slot : Option Block} {code : String} (came : slotCode s slot = .ok code) :
    isEmptyLiteral code = true ↔ ComesToNothing slot := by
  rw [(reads_slot s slot came).literal, Bool.or_eq_true, ComesToNothing, or_comm]

theorem blank_slot_iff {s : Style} {slot : Option Block} {code : String} (came : slotCode s slot = .ok code) :
    Text.isBlankText code = true ↔ isSilentSlot slot = true := by
  rw [(reads_slot s slot came).blank]

end RecordMapper.Proofs.EmptyCode
