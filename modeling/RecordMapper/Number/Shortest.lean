import RecordMapper.Number.Binary64

/-!
# Shortest decimal digits

The reals that round to a double form an interval around it, which holds its ends exactly if
the significand is even. `shortest` finds the fewest digits of a decimal in that interval, and
of those the decimal nearest to the double; if two are equally near, the one with the even last
digit. It tries the decimal grids from coarse to fine, and on each of them the two neighbours
of the double: if any decimal of the grid is in the interval, one of those two is.
-/

namespace RecordMapper

/-- The decimal `digits * 10 ^ (point - n)`, where `n` is the count of digits: `point` is the
number of digits before the decimal point. -/
structure Decimal where
  digits : List Char
  point : Int
deriving DecidableEq

namespace Decimal

/-- The decimal without zeros at the end of its digits; the point stays where it is. -/
def trimZeros (d : Decimal) : Decimal :=
  { d with digits := (d.digits.reverse.dropWhile (· == '0')).reverse }

/-- The decimal `n * 10 ^ k`. -/
def ofScaled (n : Nat) (k : Int) : Decimal :=
  let digits := Nat.toDigits 10 n
  trimZeros ⟨digits, digits.length + k⟩

end Decimal

namespace Binary64

/-- The interval of reals that round to a double, over one denominator: its lower end, the
double itself, its upper end, and whether the ends belong to it. Below a power of two the
doubles are twice as close as above it. -/
structure Interval where
  low : Nat
  value : Nat
  high : Nat
  denominator : Nat
  closed : Bool

/-- The interval of a double that is not zero. -/
def interval (x : Binary64) : Interval :=
  let m := x.significand
  let unit := twoTo (x.scale - 2).toNat
  let narrow := m == twoTo 52 && x.scale != -1074
  { low := (if narrow then 4 * m - 1 else 4 * m - 2) * unit
    value := 4 * m * unit
    high := (4 * m + 2) * unit
    denominator := twoTo (2 - x.scale).toNat
    closed := m % 2 == 0 }

/-- The interval in units of `10 ^ k`: all of it is divided by the unit. -/
def Interval.rescale (i : Interval) (k : Int) : Interval :=
  let up := tenTo (-k).toNat
  { i with
    low := i.low * up
    value := i.value * up
    high := i.high * up
    denominator := i.denominator * tenTo k.toNat }

/-- Whether a natural lies in the interval. -/
def Interval.holds (i : Interval) (n : Nat) : Bool :=
  let p := n * i.denominator
  (i.low < p && p < i.high) || (i.closed && (p == i.low || p == i.high))

/-- The natural in the interval that is nearest to its value, if there is one. -/
def Interval.nearest? (i : Interval) : Option Nat :=
  let below := i.value / i.denominator
  let above := below + 1
  match i.holds below, i.holds above with
  | false, false => none
  | true, false => some below
  | false, true => some above
  | true, true =>
    let toBelow := i.value - below * i.denominator
    let toAbove := above * i.denominator - i.value
    if toBelow < toAbove then some below
    else if toAbove < toBelow then some above
    else if below % 2 = 0 then some below else some above

/-- The number of digits before the decimal point of `num / den`, or less the number of zeros
that follow the point. No double has as many as 400 of those. -/
def pointOf (num den : Nat) : Int :=
  if den ≤ num then (Nat.toDigits 10 (num / den)).length
  else -((List.range 400).takeWhile fun k => num * tenTo (k + 1) < den).length

/-- The first grid, of those with `n`, `n + 1`, … digits, that has a decimal in the interval. -/
def searchDigits (i : Interval) (point : Int) (n : Nat) : Nat → Option Decimal
  | 0 => none
  | left + 1 =>
    match (i.rescale (point - n)).nearest? with
    | some d => some (Decimal.ofScaled d (point - n))
    | none => searchDigits i point (n + 1) left

/-- The fewest digits that read back as the double's magnitude. Seventeen always do. -/
def shortest (x : Binary64) : Decimal :=
  if x.isZero then ⟨['0'], 1⟩
  else (searchDigits x.interval (pointOf x.numerator x.denominator) 1 17).getD ⟨['0'], 1⟩

end Binary64

/-! ## Layout -/

/-- How a decimal is laid out: the exponents of the first digit for which it is written
positionally. -/
structure DecimalLayout where
  least : Int
  greatest : Int

/-- The text of a decimal. A positional text always has a point with a digit on both sides; in
the other form the exponent has a sign and as many digits as it needs. -/
def DecimalLayout.render (layout : DecimalLayout) (d : Decimal) : List Char :=
  let n : Int := d.digits.length
  let zeros (k : Int) : List Char := List.replicate k.toNat '0'
  if layout.least ≤ d.point - 1 ∧ d.point - 1 ≤ layout.greatest then
    if d.point ≤ 0 then ['0', '.'] ++ zeros (-d.point) ++ d.digits
    else if n ≤ d.point then d.digits ++ zeros (d.point - n) ++ ['.', '0']
    else d.digits.take d.point.toNat ++ '.' :: d.digits.drop d.point.toNat
  else
    let e := d.point - 1
    let tail := ['e', if e < 0 then '-' else '+'] ++ Nat.toDigits 10 e.natAbs
    match d.digits with
    | [] => tail
    | [c] => c :: tail
    | c :: rest => c :: '.' :: rest ++ tail

end RecordMapper
