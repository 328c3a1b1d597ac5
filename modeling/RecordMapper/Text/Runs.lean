/-!
# Sets of characters as runs

A set of characters may be given by lengths of runs in the order of the characters' numbers: a run
of characters outside, one of characters inside, and so on. No character beyond the runs is
inside.
-/

namespace RecordMapper.Text

/-- Whether the `n`th character of runs is inside, where `inside` tells it of the first run. -/
def isInside (inside : Bool) (n : Nat) : List Nat → Bool
  | [] => false
  | run :: rest => if n < run then inside else isInside (!inside) (n - run) rest

/-- Whether a character is inside a set given by runs. -/
def inRuns (runs : List Nat) (c : Char) : Bool := isInside false c.toNat runs

end RecordMapper.Text
