/-!
# Finite double-precision numbers

A finite double is a sign and a magnitude. The finite magnitudes, taken in increasing order,
are numbered from 0; that number is also the 63-bit pattern of the magnitude, so two doubles
are the same value with the same sign exactly if they are equal here. `nearest` rounds a
quotient of naturals to the nearest magnitude, a tie going to the even one; all arithmetic is
the exact result of the operation, rounded once.
-/

namespace RecordMapper

/-- The power of two with an exponent. -/
def twoTo (k : Nat) : Nat := Nat.pow 2 k

/-- The power of ten with an exponent. -/
def tenTo (k : Nat) : Nat := Nat.pow 10 k

/-- The count of finite magnitudes, which is also the bit pattern of infinity. -/
def Binary64.limit : Nat := 2047 * twoTo 52

/-- A finite double: its sign, and its magnitude by position among the finite magnitudes. -/
structure Binary64 where
  negative : Bool
  magnitude : Nat
  finite : magnitude < Binary64.limit

namespace Binary64

instance : DecidableEq Binary64 := fun x y =>
  decidable_of_iff (x.negative = y.negative ∧ x.magnitude = y.magnitude) <| by
    cases x; cases y; simp

/-- Positive zero. -/
def zero : Binary64 := ⟨false, 0, by decide⟩

/-- Negative zero. -/
def negZero : Binary64 := ⟨true, 0, by decide⟩

instance : Inhabited Binary64 := ⟨zero⟩

/-- The zeros of both signs are one number. -/
def isZero (x : Binary64) : Bool := x.magnitude == 0

/-- Numeric equality, which does not see the sign of a zero. -/
def same (x y : Binary64) : Bool :=
  x.magnitude == y.magnitude && (x.negative == y.negative || x.magnitude == 0)

theorem same_refl (x : Binary64) : x.same x = true := by simp [same]

/-- The double with the other sign. -/
def neg (x : Binary64) : Binary64 := { x with negative := !x.negative }

/-! ## The value -/

/-- The whole number `m` in the magnitude `m * 2 ^ q`; below `2 ^ 53`. -/
def significand (x : Binary64) : Nat :=
  if x.magnitude < twoTo 52 then x.magnitude else twoTo 52 + x.magnitude % twoTo 52

/-- The scale `q` in the magnitude `m * 2 ^ q`. -/
def scale (x : Binary64) : Int :=
  if x.magnitude < twoTo 52 then -1074 else (x.magnitude / twoTo 52 : Nat) - 1075

/-- The magnitude as a quotient of naturals: numerator. -/
def numerator (x : Binary64) : Nat := x.significand * twoTo x.scale.toNat

/-- The magnitude as a quotient of naturals: denominator, a power of two. -/
def denominator (x : Binary64) : Nat := twoTo (-x.scale).toNat

/-- The signed whole number that a double is equal to, if it is one. -/
def toInt? (x : Binary64) : Option Int :=
  if x.numerator % x.denominator = 0 then
    let n : Int := (x.numerator / x.denominator : Nat)
    some (if x.negative then -n else n)
  else none

/-! ## Rounding -/

/-- The quotient rounded to the nearest natural, a tie to the even one. -/
def roundDiv (num den : Nat) : Nat :=
  let q := num / den
  let twice := 2 * (num % den)
  if twice < den then q
  else if den < twice then q + 1
  else if q % 2 = 0 then q else q + 1

/-- The scale at which `num / den` has a significand of 53 bits, or the least scale if that is
greater. The logarithms are off by at most one, which the comparison settles. -/
def scaleOf (num den : Nat) : Int :=
  let guess : Int := (num.log2 : Int) - den.log2 - 52
  let atGuess := num * twoTo (-guess).toNat < twoTo 52 * den * twoTo guess.toNat
  max (-1074) (if atGuess then guess - 1 else guess)

/-- The position of the magnitude nearest to `num / den`, not bounded by the finite ones. The
positions of consecutive scales follow each other, so a significand that is rounded up to the
next power of two lands on the right place. -/
def nearest (num den : Nat) : Nat :=
  if num = 0 then 0
  else
    let q := scaleOf num den
    let m := roundDiv (num * twoTo (-q).toNat) (den * twoTo q.toNat)
    (q + 1074).toNat * twoTo 52 + m

/-- The double nearest to a quotient, none if it rounds to infinity. -/
def ofRatio? (negative : Bool) (num den : Nat) : Option Binary64 :=
  let b := nearest num den
  if h : b < limit then some ⟨negative, b, h⟩ else none

/-- The double nearest to a natural. -/
def ofNat? (n : Nat) : Option Binary64 := ofRatio? false n 1

/-- The product, rounded once. -/
def mul? (x y : Binary64) : Option Binary64 :=
  ofRatio? (x.negative != y.negative) (x.numerator * y.numerator) (x.denominator * y.denominator)

/-- The quotient, rounded once; the divisor is not to be zero. -/
def div? (x y : Binary64) : Option Binary64 :=
  ofRatio? (x.negative != y.negative) (x.numerator * y.denominator) (x.denominator * y.numerator)

end Binary64

end RecordMapper
