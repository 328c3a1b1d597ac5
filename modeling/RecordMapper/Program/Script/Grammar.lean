import RecordMapper.Program.Script.Statement
import RecordMapper.Program.WellFormed

/-!
# The grammar of scripts

Each kind of phrase is read by its own rule, and a rule reads the phrases inside a phrase by a
reader for all kinds. `phrase` ties them together: it reads phrases that stand inside each other
no more deeply than it is told. A phrase inside another starts behind the start of that one, so a
script is never deeper than it is long. The reader makes a checker of scripts, which is one of many
that programs may be checked with.
-/

namespace RecordMapper.Program.Script

namespace Reader

/-- The rule for a kind of phrase. -/
def rule (inner : Inner) : Phrase → Reader Shape
  | .expression => expression inner
  | .operand level => operand inner level
  | .unary => unary inner
  | .chain => chain inner
  | .callee => callee inner
  | .binding => binding inner
  | .statement place => statement inner place

/-- The reader for phrases that stand inside each other no more deeply than some depth. -/
def phrase : Nat → Inner
  | 0, _ => failure
  | depth + 1, p => rule (phrase depth) p

/-- The statements of a script. -/
def script (depth : Nat) : Reader Unit :=
  whileTrue (return (← kind) != .finish) do
    let _ ← phrase depth (.statement .script)

end Reader

/-- What a script allows at its start. -/
def outermost : Context := ⟨true, false, true, false, false⟩

/-- The place at the start of a script. -/
def start (code : String) : State :=
  let cs := code.toList
  ⟨.firstOfScript cs, 0, outermost, false, [], [], cs.length + 2⟩

/-- Whether a text is a script without faults. -/
def isScript (code : String) : Bool :=
  match (Reader.script (code.toList.length + 2)).run.run (start code) with
  | (some _, s) => !s.isFaulty
  | (none, _) => false

/-- The checker that says no more than whether a text can be read. -/
instance : ScriptChecker where
  faults code := if isScript code then [] else ["The program is not well formed"]

end RecordMapper.Program.Script
