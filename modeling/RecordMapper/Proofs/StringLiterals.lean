import Mathlib.Data.List.Basic
import RecordMapper.Program.Target

/-!
# String literals read back

A scanner of string literals that knows nothing of how they are written: it reads the opening
quotation mark, decodes escapes from left to right and stops behind the first mark of the same
kind that is not escaped. Whatever text a target quotes and whatever follows the literal, the
scanner gives that text and leaves what follows (`quote_scanned_back`).
-/

namespace RecordMapper.Proofs.StringLiterals
open RecordMapper.Program

/-! ## The scanner -/

/-- The value of a hexadecimal digit, in either case. -/
def hexValue? (c : Char) : Option Nat :=
  if '0' ≤ c ∧ c ≤ '9' then some (c.toNat - '0'.toNat)
  else if 'a' ≤ c ∧ c ≤ 'f' then some (c.toNat - 'a'.toNat + 10)
  else if 'A' ≤ c ∧ c ≤ 'F' then some (c.toNat - 'A'.toNat + 10)
  else none

/-- The number that hexadecimal digits stand for. -/
def hexNumber? (digits : List Char) : Option Nat :=
  (digits.mapM hexValue?).map fun values => values.foldl (fun n d => n * 16 + d) 0

/-- The character of a number, none for a number that is no scalar value. -/
def scalar? (n : Nat) : Option Char := if n.isValidChar then some (Char.ofNat n) else none

/-- The character that an escape stands for, read from behind the backslash, and the rest. -/
def escaped? : List Char → Option (Char × List Char)
  | '\\' :: rest => some ('\\', rest)
  | '\x27' :: rest => some ('\x27', rest)
  | '\x22' :: rest => some ('\x22', rest)
  | 'n' :: rest => some ('\n', rest)
  | 'r' :: rest => some ('\x0d', rest)
  | 't' :: rest => some ('\t', rest)
  | 'x' :: a :: b :: rest => ((hexNumber? [a, b]).bind scalar?).map (·, rest)
  | 'u' :: a :: b :: c :: d :: rest => ((hexNumber? [a, b, c, d]).bind scalar?).map (·, rest)
  | _ => none

theorem escaped_shorter {cs rest : List Char} {c : Char} (read : escaped? cs = some (c, rest)) :
    rest.length < cs.length := by
  unfold escaped? at read
  split at read <;> simp only [Option.some.injEq, Prod.mk.injEq, Option.map_eq_some_iff, reduceCtorEq] at read
  case h_7 => obtain ⟨_, _, _, rfl⟩ := read; simp only [List.length_cons]; omega
  case h_8 => obtain ⟨_, _, _, rfl⟩ := read; simp only [List.length_cons]; omega
  all_goals obtain ⟨_, rfl⟩ := read; simp

/-- The text up to the first mark that is not escaped, and what follows the mark. -/
def body? (mark : Char) (cs : List Char) : Option (List Char × List Char) :=
  match cs with
  | [] => none
  | c :: rest =>
    if c = mark then some ([], rest)
    else if c = '\\' then
      match read : escaped? rest with
      | none => none
      | some (d, rest') =>
        have := escaped_shorter read
        (body? mark rest').map fun (text, rest) => (d :: text, rest)
    else (body? mark rest).map fun (text, rest) => (c :: text, rest)
termination_by cs.length
decreasing_by all_goals simp only [List.length_cons]; omega

/-- The text of the literal that characters begin with, and what follows the literal. -/
def scan? : List Char → Option (List Char × List Char)
  | '\x27' :: rest => body? '\x27' rest
  | '\x22' :: rest => body? '\x22' rest
  | _ => none

/-! ## One character -/

/-- A character inside a literal with a given mark. -/
def written (mark c : Char) : List Char := if c = mark then ['\\', c] else escapeChar c

theorem written_ne_nil (mark c : Char) : written mark c ≠ [] := by
  unfold written escapeChar
  split_ifs <;> simp

private theorem hexValue_hexDigit : ∀ d < 16, hexValue? (Json.hexDigit d) = some d := by decide

private theorem scalar_toNat (c : Char) : scalar? c.toNat = some c := by
  have valid : c.toNat.isValidChar := c.valid
  rw [scalar?, if_pos valid, Char.ofNat_toNat]

/-- Two digits give back a number below 256. -/
private theorem hexNumber_pair (n : Nat) (small : n < 256) :
    hexNumber? [Json.hexDigit (n / 16 % 16), Json.hexDigit (n % 16)] = some n := by
  have high := hexValue_hexDigit (n / 16 % 16) (by omega)
  have low := hexValue_hexDigit (n % 16) (by omega)
  have value : n / 16 % 16 * 16 + n % 16 = n := by omega
  simp [hexNumber?, high, low, value]

/-- Four digits give back a number of 16 bits. -/
private theorem hexNumber_quad (n : Nat) (small : n < 65536) : hexNumber? (Json.hex4 n) = some n := by
  have first := hexValue_hexDigit (n / 4096 % 16) (by omega)
  have second := hexValue_hexDigit (n / 256 % 16) (by omega)
  have third := hexValue_hexDigit (n / 16 % 16) (by omega)
  have fourth := hexValue_hexDigit (n % 16) (by omega)
  have value : ((n / 4096 % 16 * 16 + n / 256 % 16) * 16 + n / 16 % 16) * 16 + n % 16 = n := by omega
  simp [hexNumber?, Json.hex4, first, second, third, fourth, value]

/-- What an escaped character stands for is read back, and what follows it is left. -/
private theorem escaped_of_escapeChar (c : Char) (rest : List Char) (changed : escapeChar c ≠ [c]) :
    ∃ tail, escapeChar c = '\\' :: tail ∧ escaped? (tail ++ rest) = some (c, rest) := by
  unfold escapeChar at changed ⊢
  split_ifs at changed ⊢ with backslash feed carriage tab separator control
  · exact ⟨['\\'], rfl, by simp [escaped?, backslash]⟩
  · exact ⟨['n'], rfl, by simp [escaped?, feed]⟩
  · exact ⟨['r'], rfl, by simp [escaped?, carriage]⟩
  · exact ⟨['t'], rfl, by simp [escaped?, tab]⟩
  · have small : c.toNat < 65536 := by rcases separator with rfl | rfl <;> decide
    have digits := hexNumber_quad c.toNat small
    refine ⟨'u' :: Json.hex4 c.toNat, rfl, ?_⟩
    simp only [Json.hex4] at digits ⊢
    simp [escaped?, digits, scalar_toNat]
  · have small : c.toNat < 256 := by
      simp only [Text.isControl, Bool.or_eq_true, Bool.and_eq_true, decide_eq_true_eq] at control
      omega
    have digits := hexNumber_pair c.toNat small
    refine ⟨['x', Json.hexDigit (c.toNat / 16 % 16), Json.hexDigit (c.toNat % 16)], rfl, ?_⟩
    simp [escaped?, digits, scalar_toNat]
  · exact absurd rfl changed

/-- Reading on from one written character gives that character first. -/
private theorem body_written (mark c : Char) (rest : List Char) (quotes : mark = '\x27' ∨ mark = '\x22') :
    body? mark (written mark c ++ rest) = (body? mark rest).map fun (text, rest) => (c :: text, rest) := by
  have notBackslash : mark ≠ '\\' := by rcases quotes with rfl | rfl <;> decide
  have throughEscape (tail : List Char) (read : escaped? (tail ++ rest) = some (c, rest)) :
      body? mark ('\\' :: tail ++ rest) = (body? mark rest).map fun (text, rest) => (c :: text, rest) := by
    rw [List.cons_append, body?, if_neg (Ne.symm notBackslash), if_pos rfl]
    split
    · next none => simp [read] at none
    · next some =>
      rw [read] at some
      cases some
      rfl
  unfold written
  split_ifs with isMark
  · subst isMark
    have read : escaped? ([c] ++ rest) = some (c, rest) := by rcases quotes with rfl | rfl <;> rfl
    exact throughEscape [c] read
  · by_cases plain : escapeChar c = [c]
    · have notEscape : c ≠ '\\' := by rintro rfl; exact absurd plain (by decide)
      rw [plain, List.singleton_append, body?, if_neg isMark, if_neg notEscape]
    · obtain ⟨tail, spelled, read⟩ := escaped_of_escapeChar c rest plain
      rw [spelled]
      exact throughEscape tail read

/-! ## Whole texts -/

/-- A written text and its closing mark are read back, and what follows is left. -/
private theorem body_flatMap_written (mark : Char) (quotes : mark = '\x27' ∨ mark = '\x22') (cs rest : List Char) :
    body? mark (cs.flatMap (written mark) ++ mark :: rest) = some (cs, rest) := by
  induction cs with
  | nil => simp [body?]
  | cons c cs ih =>
    rw [List.flatMap_cons, List.append_assoc, body_written mark c _ quotes, ih]
    rfl

/-- No line end, line or paragraph separator or other control character. -/
def Harmless (c : Char) : Prop :=
  c ≠ '\n' ∧ c ≠ '\x0d' ∧ c ≠ '\u2028' ∧ c ≠ '\u2029' ∧ Text.isControl c = false

/-- What escapes are spelled with: ASCII that shows, and no quotation mark. -/
def Spelling (c : Char) : Prop := 0x20 ≤ c.toNat ∧ c.toNat < 0x7F ∧ c ≠ '\x27' ∧ c ≠ '\x22'

instance (c : Char) : Decidable (Spelling c) := inferInstanceAs (Decidable (_ ∧ _))

private theorem hexDigit_spelling : ∀ d < 16, Spelling (Json.hexDigit d) := by decide

private theorem harmless_of_spelling {c : Char} (spelling : Spelling c) : Harmless c := by
  obtain ⟨low, high, _⟩ := spelling
  refine ⟨?_, ?_, ?_, ?_, ?_⟩
  · rintro rfl; revert low; decide
  · rintro rfl; revert low; decide
  · rintro rfl; revert high; decide
  · rintro rfl; revert high; decide
  · simp only [Text.isControl, Bool.or_eq_false_iff, Bool.and_eq_false_iff, decide_eq_false_iff_not]
    omega

private theorem escapeChar_spelling {c : Char} (changed : escapeChar c ≠ [c]) : ∀ d ∈ escapeChar c, Spelling d := by
  have pair {c d : Char} (first : Spelling c) (second : Spelling d) : ∀ e ∈ [c, d], Spelling e := by
    simp [first, second]
  unfold escapeChar at changed ⊢
  split_ifs at changed ⊢ with backslash feed carriage tab separator control
  · exact pair (by decide) (by decide)
  · exact pair (by decide) (by decide)
  · exact pair (by decide) (by decide)
  · exact pair (by decide) (by decide)
  · simp only [Json.hex4, List.forall_mem_cons]
    exact ⟨by decide, by decide, hexDigit_spelling _ (by omega), hexDigit_spelling _ (by omega),
      hexDigit_spelling _ (by omega), hexDigit_spelling _ (by omega), by simp⟩
  · simp only [List.forall_mem_cons]
    exact ⟨by decide, by decide, hexDigit_spelling _ (by omega), hexDigit_spelling _ (by omega), by simp⟩
  · exact absurd rfl changed

private theorem harmless_of_plain {c : Char} (plain : escapeChar c = [c]) : Harmless c := by
  unfold escapeChar at plain
  split_ifs at plain with backslash feed carriage tab separator control
  · simp at plain
  · simp at plain
  · simp at plain
  · simp at plain
  · simp at plain
  · simp at plain
  · simp only [not_or] at separator
    exact ⟨feed, carriage, separator.1, separator.2, by simpa using control⟩

private theorem harmless_escapeChar (c : Char) : ∀ d ∈ escapeChar c, Harmless d := by
  intro d inside
  by_cases plain : escapeChar c = [c]
  · rw [plain, List.mem_singleton] at inside
    exact inside ▸ harmless_of_plain plain
  · exact harmless_of_spelling (escapeChar_spelling plain d inside)

theorem harmless_written (mark c : Char) (quotes : mark = '\x27' ∨ mark = '\x22') :
    ∀ d ∈ written mark c, Harmless d := by
  unfold written
  split_ifs with isMark
  · subst isMark
    simp only [List.forall_mem_cons]
    exact ⟨harmless_of_spelling (by decide), by rcases quotes with rfl | rfl <;> exact harmless_of_plain (by decide),
      by simp⟩
  · exact harmless_escapeChar c

/-! ## The two ways of quoting -/

private theorem escapeSingle_escapeChar (c : Char) : escapeSingle (escapeChar c) = written '\x27' c := by
  unfold written
  split_ifs with isMark
  · subst isMark; decide
  · have untouched : ∀ d ∈ escapeChar c, d ≠ '\x27' := by
      intro d inside
      by_cases plain : escapeChar c = [c]
      · rw [plain, List.mem_singleton] at inside
        exact inside ▸ isMark
      · exact (escapeChar_spelling plain d inside).2.2.1
    unfold escapeSingle
    rw [← List.flatMap_singleton' (escapeChar c), List.flatMap_assoc]
    exact List.flatMap_congr fun d inside => by simp [untouched d inside]

private theorem escapeSingle_escapeBody (cs : List Char) : escapeSingle (escapeBody cs) = cs.flatMap (written '\x27') := by
  unfold escapeSingle escapeBody
  rw [List.flatMap_assoc]
  exact List.flatMap_congr fun c _ => escapeSingle_escapeChar c

private theorem escapeBody_of_no_double (cs : List Char) (free : '\x22' ∉ escapeBody cs) :
    escapeBody cs = cs.flatMap (written '\x22') := by
  refine List.flatMap_congr fun c inside => ?_
  have other : c ≠ '\x22' := by
    rintro rfl
    exact free (List.mem_flatMap.mpr ⟨_, inside, by decide⟩)
  rw [written, if_neg other]

/-- Either way of quoting writes a text between marks of one kind, character by character. -/
theorem quote_written (t : Target) (s : String) :
    ∃ mark, (mark = '\x27' ∨ mark = '\x22') ∧
      (t.quote s).toList = mark :: s.toList.flatMap (written mark) ++ [mark] := by
  cases t with
  | python =>
    by_cases double : (escapeBody s.toList).contains '\x27' && !(escapeBody s.toList).contains '\x22'
    · have free : '\x22' ∉ escapeBody s.toList := by simp at double; exact double.2
      refine ⟨'\x22', .inr rfl, ?_⟩
      simp only [Target.quote, quoteEither, double, if_true, String.toList_ofList]
      rw [escapeBody_of_no_double _ free]
    · refine ⟨'\x27', .inl rfl, ?_⟩
      simp only [Target.quote, quoteEither, double, if_false, String.toList_ofList, Bool.false_eq_true]
      rw [escapeSingle_escapeBody]
  | javaScript =>
    refine ⟨'\x27', .inl rfl, ?_⟩
    simp only [Target.quote, quoteSingle, String.toList_ofList]
    rw [escapeSingle_escapeBody]

/-- The literal of a text is a mark, a body on one line without control characters and the same
mark; read from the opening mark on, it gives the text back and leaves what follows it, whatever
that is. So no two texts have one literal. -/
theorem quote_scanned_back (t : Target) :
    (∀ s : String, ∃ mark body, (mark = '\x27' ∨ mark = '\x22') ∧
      (t.quote s).toList = mark :: body ++ [mark] ∧ (∀ c ∈ body, Harmless c) ∧
      ∀ rest : String, scan? (t.quote s ++ rest).toList = some (s.toList, rest.toList)) ∧
    Function.Injective t.quote := by
  have scanned (s rest : String) : scan? (t.quote s ++ rest).toList = some (s.toList, rest.toList) := by
    obtain ⟨mark, quotes, spelled⟩ := quote_written t s
    have body := body_flatMap_written mark quotes s.toList rest.toList
    rw [String.toList_append, spelled]
    rcases quotes with rfl | rfl <;> simpa [scan?] using body
  constructor
  · intro s
    obtain ⟨mark, quotes, spelled⟩ := quote_written t s
    refine ⟨mark, s.toList.flatMap (written mark), quotes, spelled, ?_, scanned s⟩
    intro d inside
    obtain ⟨c, _, inside⟩ := List.mem_flatMap.mp inside
    exact harmless_written mark c quotes d inside
  · intro s s' same
    have first := scanned s ""
    rw [same, scanned s' ""] at first
    have chars : s'.toList = s.toList := by simpa using first
    exact (String.toList_inj.mp chars).symm

end RecordMapper.Proofs.StringLiterals
