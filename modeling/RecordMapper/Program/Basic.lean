import RecordMapper.Diagnostic
import RecordMapper.Program.Fragment
import RecordMapper.Program.Preamble

/-!
# Programs

The program of a graph is the code of its chains, with an empty line between each two, inside the
preamble and the line that runs it.
-/

namespace RecordMapper.Program

/-- The code of a block at the top level: an expression becomes a statement of its own. -/
def topCode (s : Style) : Fragment → String
  | .statement statement => statement.render s
  | .expression code _ => if code.isEmpty then "" else s.target.nakedValue code

/-- The code of a chain. -/
def chainCode (s : Style) : List Block → GraphResult String
  | [] => .ok ""
  | b :: rest => do
    let f ← fragment s b
    let more ← chainCode s rest
    .ok (topCode s f ++ more)

/-- The code of all chains, those without code left out. -/
def graphCode (s : Style) (g : Graph) : GraphResult String := do
  let codes ← g.chains.mapM (chainCode s)
  .ok ("\n".intercalate (codes.filter fun code => !code.isEmpty))

/-- The program of a graph. -/
def generate (s : Style) (g : Graph) : GraphResult String := do
  let code ← graphCode s g
  .ok (tidy (s.target.finish code s.target.preamble))

end RecordMapper.Program
