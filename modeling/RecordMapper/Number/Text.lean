import RecordMapper.Number.Basic
import RecordMapper.Text.Blank
import RecordMapper.Text.Digits

/-!
# Numbers in free text

A number may also be typed as text: a whole number with a sign in front if one likes, or a decimal
with a point, an exponent or both, and at least one digit beside the point. A whole number of at
most 64 bits, signed, stays whole; every other one is the double nearest to it.
-/

namespace RecordMapper.Number

/-- The sign in front of a text, and the rest. -/
def takeSign : List Char → Bool × List Char
  | '-' :: rest => (true, rest)
  | '+' :: rest => (false, rest)
  | cs => (false, cs)

/-- A whole number with a sign in front if one likes, if it fits 64 bits signed. -/
def wholeOfText? (cs : List Char) : Option Int :=
  let (negative, digits) := takeSign cs
  if Text.isDigits digits then
    let n : Int := Text.digitsValue digits
    let n := if negative then -n else n
    if -(twoTo 63 : Int) ≤ n ∧ n < twoTo 63 then some n else none
  else none

/-- The double nearest to `n * 10 ^ e`, none if it is not finite. No power of ten is formed for
numbers that are far beyond the greatest or far below the least double. -/
def nearestDecimal? (negative : Bool) (n : Nat) (e : Int) : Option Binary64 :=
  let size : Int := (Nat.toDigits 10 n).length + e
  if n = 0 ∨ size < -400 then some (if negative then .negZero else .zero)
  else if 400 < size then none
  else Binary64.ofRatio? negative (n * tenTo e.toNat) (tenTo (-e).toNat)

/-- The exponent at the end of a decimal: none if it is malformed, zero if it is left out. -/
def exponentOfText? : List Char → Option Int
  | [] => some 0
  | c :: cs =>
    let (negative, digits) := takeSign cs
    if (c == 'e' || c == 'E') && Text.isDigits digits then
      let n : Int := Text.digitsValue digits
      some (if negative then -n else n)
    else none

/-- A decimal as the double nearest to it. -/
def decimalOfText? (cs : List Char) : Option Binary64 :=
  let (negative, cs) := takeSign cs
  let whole := cs.takeWhile Char.isDigit
  let rest := cs.dropWhile Char.isDigit
  let (fraction, rest) := match rest with
    | '.' :: rest => (rest.takeWhile Char.isDigit, rest.dropWhile Char.isDigit)
    | rest => ([], rest)
  if (whole ++ fraction).isEmpty then none
  else
    match exponentOfText? rest with
    | some e =>
      nearestDecimal? negative (Text.digitsValue (whole ++ fraction)) (e - fraction.length)
    | none => none

/-- The number that a text stands for; blanks around it are ignored. -/
def ofText? (s : String) : Option Number :=
  let cs := Text.trimChars s.toList
  match wholeOfText? cs with
  | some n => some (int n)
  | none => (decimalOfText? cs).map float

end RecordMapper.Number
