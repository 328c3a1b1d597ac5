import RecordMapper.Program.Script.Reader

/-!
# Phrases of scripts

The kinds of phrases that stand inside other phrases, and what matters of a phrase once it is
read: whether it may be assigned to, and whether it stands as it is. An array or object in
brackets is both an operand and a target to which parts of a value are assigned, and only what
follows tells which; `Shape.literal` says what it may be.
-/

namespace RecordMapper.Program.Script

/-- Where a statement stands: in the script itself, in a block, or alone as the body of another
statement. -/
inductive Place where
  | script
  | block
  | body
deriving DecidableEq

/-- The kinds of phrases that stand inside others. -/
inductive Phrase where
  /-- an expression without a comma -/
  | expression
  /-- an operand of an operator that binds as tightly as the level says -/
  | operand (level : Nat)
  /-- an operand of a sign or word before it -/
  | unary
  /-- a chain of members and calls -/
  | chain
  /-- a chain of members that is called with `new` -/
  | callee
  /-- what is bound by a declaration or a parameter -/
  | binding
  | statement (place : Place)

/-- What matters of a phrase. -/
inductive Shape where
  /-- a variable -/
  | variable (name : String)
  /-- a member of an object -/
  | member
  /-- an array or object in brackets: whether it may be assigned to, and whether it has to be,
  since something in it stands only in targets -/
  | literal (isTarget mustBeTarget : Bool)
  /-- an assignment, and whether it is one by a plain equals sign -/
  | assignment (isPlain : Bool)
  /-- an expression in parentheses, and whether it may be assigned to -/
  | group (isTarget : Bool)
  /-- an expression of `||`, `&&` or `??`, and whether it is one of `??` -/
  | logical (coalesces : Bool)
  /-- an operand with a sign or word before it -/
  | signed
  /-- a module that is asked for -/
  | request
  /-- what is bound, with all its names -/
  | binding (names : List String)
  | other
deriving DecidableEq

/-- A reader for each kind of phrase. -/
abbrev Inner := Phrase → Reader Shape

namespace Shape

/-- Whether this may be assigned to as a whole. -/
def isSimpleTarget : Shape → Bool
  | .variable _ => true
  | .member => true
  | .group isTarget => isTarget
  | _ => false

/-- Whether this may be assigned to, as a whole or in parts. -/
def isTarget : Shape → Bool
  | .literal isTarget _ => isTarget
  | shape => shape.isSimpleTarget

/-- Whether this may stand in an array or object that is assigned to, perhaps with a value to
fall back to. -/
def isPartOfTarget : Shape → Bool
  | .assignment isPlain => isPlain
  | shape => shape.isTarget

/-- Whether this stands only where it is assigned to. -/
def mustBeTarget : Shape → Bool
  | .literal _ mustBeTarget => mustBeTarget
  | _ => false

/-- The names that are bound. -/
def names : Shape → List String
  | .binding names => names
  | _ => []

end Shape

namespace Reader

/-- A phrase that is not assigned to. -/
def settled (r : Reader Shape) : Reader Shape := do
  let shape ← r
  faultIf shape.mustBeTarget
  return shape

/-- An expression without a comma, where `in` stands between operands. -/
def element (inner : Inner) : Reader Unit := do
  let _ ← settled (within ({ · with takesIn := true }) (inner .expression))

/-- An expression with commas; of a single one its shape is kept. -/
def sequence (inner : Inner) : Reader Shape := do
  let first ← inner .expression
  if ← atSign "," then
    faultIf first.mustBeTarget
    whileTrue (eatSign ",") do
      let _ ← settled (inner .expression)
    return .other
  else
    return first

/-- An expression with commas in a place of its own. -/
def whole (inner : Inner) : Reader Unit := do
  let _ ← settled (within ({ · with takesIn := true, decorates := false }) (sequence inner))

/-- An expression in parentheses as a statement has it. -/
def condition (inner : Inner) : Reader Unit := do
  expectSign "("
  whole inner
  expectSign ")"

end Reader

end RecordMapper.Program.Script
