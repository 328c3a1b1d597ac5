import RecordMapper.Block.Reader

/-!
# Block graphs

A workspace is an array of blocks, an object with such an array under `blocks`, or an object with
an object under `blocks` that has such an array. Each of these blocks heads a chain.
-/

namespace RecordMapper

/-- A graph: chains of blocks, each from its head down. -/
structure Graph where
  chains : List (List Block)

namespace Graph

/-- The graph without blocks. -/
def empty : Graph := ⟨[]⟩

/-- The values that stand for the top-level blocks of a workspace. -/
def topValues (workspace : Json) : Except Malformation (List Json) :=
  match workspace with
  | .arr blocks => .ok blocks
  | .obj _ =>
    match workspace.get? "blocks" with
    | some (.arr blocks) => .ok blocks
    | some (.obj inner) =>
      match inner.lookup "blocks" with
      | some (.arr blocks) => .ok blocks
      | some _ => .error .blocksNotAnArray
      | none => .ok []
    | some _ => .error .blocksNotAContainer
    | none => .ok []
  | _ => .error .notAWorkspace

/-- The chain that a top-level value stands for. -/
def chainOf (j : Json) : GraphResult (List Block) :=
  match BlockSource.read j with
  | .ok source => Block.chainOfSource source
  | .error e => .error (.malformed (.unreadable e))

/-- The graph of a workspace. Its top-level blocks are read one after the other, each with its
whole chain. -/
def ofWorkspace (workspace : Json) : GraphResult Graph :=
  match topValues workspace with
  | .ok values => (values.mapM chainOf).map Graph.mk
  | .error e => .error (.malformed e)

/-- The blocks of all chains in order. -/
def topLevel (g : Graph) : List Block := g.chains.flatten

/-- The top-level records. -/
def records (g : Graph) : List Block := g.topLevel.filter Block.isRecord

end Graph

end RecordMapper
