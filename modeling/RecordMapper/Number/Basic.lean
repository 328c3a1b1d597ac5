import RecordMapper.Number.Shortest

/-!
# Numbers of a document

A number is a whole number or a double; `1` and `1.0` are different numbers until one is
normalized. `normalize` turns a double with a whole value into that whole number as long as
all whole numbers of its size have a double of their own.
-/

namespace RecordMapper

/-- A number: a whole one, within 64 bits signed or unsigned, or a finite double. -/
inductive Number where
  | int (value : Int)
  | float (value : Binary64)
deriving DecidableEq

namespace Number

/-- Greatest whole number below which every whole number is a double. -/
def maxSafe : Nat := twoTo 53 - 1

/-- A double with a whole value of at most `maxSafe` becomes that whole number. -/
def normalize : Number → Number
  | int n => int n
  | float x =>
    match x.toInt? with
    | some n => if n.natAbs ≤ maxSafe then int n else float x
    | none => float x

/-- Equality of numbers of one kind by value: a whole number is never equal to a double, and
the two zeros among the doubles are equal. -/
def same : Number → Number → Bool
  | int m, int n => m == n
  | float x, float y => x.same y
  | _, _ => false

theorem same_refl (n : Number) : n.same n = true := by
  cases n with
  | int m => simp [same]
  | float x => exact x.same_refl

/-- Whether a number is zero, of either kind. -/
def isZero : Number → Bool
  | int n => n == 0
  | float x => x.isZero

/-- Doubles are written positionally from `0.00001` on and below `10 ^ 16`. -/
def layout : DecimalLayout := ⟨-5, 15⟩

/-- The text of a number, as it stands in documents and in generated code. -/
def render : Number → String
  | int n => toString n
  | float x =>
    String.ofList ((if x.negative then ['-'] else []) ++ layout.render x.shortest)

/-- Digits, with a point and an exponent if they are not whole, as a number is written. -/
structure Literal where
  negative : Bool
  whole : List Nat
  fraction : Option (List Nat)
  exponent : Option Int

/-- The significand that digits add up to, up to the first digit with which it would not fit
64 bits, and the digits from that one on. -/
def takeSignificand (acc : Nat) : List Nat → Nat × List Nat
  | [] => (acc, [])
  | d :: ds =>
    if acc * 10 + d < twoTo 64 then takeSignificand (acc * 10 + d) ds else (acc, d :: ds)

/-- The double `x * 10 ^ e` by steps that each round: one multiplication or division by a power
of ten that is a double itself, after as many divisions by `10 ^ 308` as it takes to come into
that range. None if it overflows. -/
def scaleByTen (x : Binary64) (e : Int) : Option Binary64 :=
  if e.natAbs ≤ 308 then do
    let power ← Binary64.ofNat? (tenTo e.natAbs)
    if 0 ≤ e then x.mul? power else x.div? power
  else if x.isZero then some x
  else if 0 ≤ e then none
  else do
    let power ← Binary64.ofNat? (tenTo 308)
    let y ← x.div? power
    scaleByTen y (e + 308)
termination_by e.natAbs
decreasing_by omega

/-- The number that a literal denotes. Without point and exponent it is whole if it fits 64
bits, signed or unsigned, and is not a negative zero. Otherwise it is the double of the digits
that fit 64 bits, scaled by the power of ten that the others, the point and the exponent ask
for. None if that overflows. -/
def ofLiteral? (l : Literal) : Option Number :=
  let (s, rest) := takeSignificand 0 l.whole
  if l.fraction.isNone && l.exponent.isNone && rest.isEmpty && !l.negative then some (int s)
  else if l.fraction.isNone && l.exponent.isNone && rest.isEmpty && 0 < s && s ≤ twoTo 63 then
    some (int (-(s : Int)))
  else do
    let digits := l.fraction.getD []
    let (s', rest') := takeSignificand s digits
    let shift : Int := rest.length - (digits.length - rest'.length : Nat)
    let x ← Binary64.ofNat? s'
    let y ← if l.fraction.isNone && l.exponent.isNone && rest.isEmpty then some x
      else scaleByTen x (l.exponent.getD 0 + shift)
    some (float (if l.negative then y.neg else y))

end Number

end RecordMapper
