import Mathlib.Data.List.TakeWhile
import RecordMapper.Number.Text
import RecordMapper.Proofs.PathTexts

/-!
# Texts of numbers

The text of a number is made of digits, signs, points and the mark of an exponent, and of nothing else
(`numeric_render`), so whatever is decided on other characters is the same for all numbers.
-/

namespace RecordMapper.Proofs.NumberTexts

/-- Whether a character may stand in the text of a number. -/
def isNumeric (c : Char) : Bool := c.isDigit || c == '.' || c == '-' || c == '+' || c == 'e'

/-- A text of characters of numbers only. -/
def Numeric (text : List Char) : Prop := ∀ c ∈ text, isNumeric c = true

instance (text : List Char) : Decidable (Numeric text) :=
  decidable_of_iff (text.all isNumeric = true) List.all_eq_true

theorem Numeric.append {a b : List Char} (first : Numeric a) (second : Numeric b) : Numeric (a ++ b) :=
  List.forall_mem_append.mpr ⟨first, second⟩

theorem Numeric.cons {c : Char} {cs : List Char} (first : isNumeric c = true) (later : Numeric cs) : Numeric (c :: cs) :=
  List.forall_mem_cons.mpr ⟨first, later⟩

theorem isNumeric_of_isDigit {c : Char} (digit : c.isDigit = true) : isNumeric c = true := by
  simp [isNumeric, digit]

theorem numeric_toDigits (n : Nat) : Numeric (Nat.toDigits 10 n) := fun _ inside =>
  isNumeric_of_isDigit (Nat.isDigit_of_mem_toDigits (by decide) (by decide) inside)

private theorem numeric_ofScaled (n : Nat) (k : Int) : Numeric (Decimal.ofScaled n k).digits := by
  intro c inside
  rw [Decimal.ofScaled, Decimal.trimZeros, List.mem_reverse] at inside
  exact numeric_toDigits n c (List.mem_reverse.mp ((List.dropWhile_suffix _).subset inside))

private theorem numeric_shortest (x : Binary64) : Numeric x.shortest.digits := by
  have zero : Numeric ['0'] := by decide
  have found (i : Binary64.Interval) (point : Int) (n left : Nat) :
      ∀ d ∈ Binary64.searchDigits i point n left, Numeric d.digits := by
    induction left generalizing n with
    | zero => intro d none; cases none
    | succ left ih =>
      rw [Binary64.searchDigits]
      split
      · rintro _ ⟨⟩
        exact numeric_ofScaled _ _
      · exact ih (n + 1)
  rw [Binary64.shortest]
  split
  · exact zero
  · cases search : Binary64.searchDigits x.interval (Binary64.pointOf x.numerator x.denominator) 1 17 with
    | none => exact zero
    | some d => exact found _ _ _ _ d search

private theorem numeric_layout (layout : DecimalLayout) {d : Decimal} (digits : Numeric d.digits) :
    Numeric (layout.render d) := by
  have zeros (n : Nat) : Numeric (List.replicate n '0') := fun c inside => by
    rw [List.eq_of_mem_replicate inside]
    rfl
  have exponent (e : Int) : Numeric (['e', if e < 0 then '-' else '+'] ++ Nat.toDigits 10 e.natAbs) := by
    refine Numeric.append ?_ (numeric_toDigits _)
    split <;> decide
  rw [DecimalLayout.render]
  split_ifs
  · exact (Numeric.append (by decide) (zeros _)).append digits
  · exact (Numeric.append digits (zeros _)).append (by decide)
  · exact Numeric.append (fun c inside => digits c (List.mem_of_mem_take inside))
      (.cons rfl fun c inside => digits c (List.mem_of_mem_drop inside))
  · simp only
    split
    · exact exponent _
    · next c only =>
      rw [only] at digits
      exact .cons (digits c List.mem_cons_self) (exponent _)
    · next c rest _ only =>
      rw [only] at digits
      obtain ⟨first, later⟩ := List.forall_mem_cons.mp digits
      exact .cons first (.cons rfl (Numeric.append later (exponent _)))

theorem numeric_render (n : Number) : Numeric n.render.toList := by
  have natural (m : Nat) : Numeric (toString m).toList := fun c inside =>
    isNumeric_of_isDigit (List.all_eq_true.mp (Bool.and_eq_true_iff.mp (PathTexts.isDigits_toString m)).2 c inside)
  cases n with
  | int n =>
    cases n with
    | ofNat m => exact natural m
    | negSucc m =>
      have spelled : Number.render (.int (Int.negSucc m)) = "-" ++ toString (m + 1) := rfl
      rw [spelled, String.toList_append]
      exact Numeric.append (by decide) (natural _)
  | float x =>
    rw [Number.render, String.toList_ofList]
    refine Numeric.append ?_ (numeric_layout _ (numeric_shortest x))
    split <;> decide

end RecordMapper.Proofs.NumberTexts
