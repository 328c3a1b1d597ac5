/-!
# Decimal digits

Digits are the ten of ASCII; no other character that stands for a number counts.
-/

namespace RecordMapper.Text

/-- Whether a text is one digit or more, and nothing else. -/
def isDigits (cs : List Char) : Bool := !cs.isEmpty && cs.all Char.isDigit

/-- The natural that digits stand for. -/
def digitsValue (cs : List Char) : Nat :=
  cs.foldl (fun n c => n * 10 + (c.toNat - '0'.toNat)) 0

end RecordMapper.Text
