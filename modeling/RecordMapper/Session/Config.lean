import RecordMapper.Design.Run
import RecordMapper.Json.Fields
import RecordMapper.Program.Fragment

/-!
# Configuration

A configuration says how programs are written and which failures a run tolerates. All of it has
defaults, so an empty object is a whole configuration.
-/

namespace RecordMapper

/-- How programs are written. -/
structure GeneratorConfig where
  target : Target
  indent : UInt64
  comments : Bool
deriving DecidableEq

/-- Which failures a run tolerates. -/
structure RuntimeConfig where
  tolerable : List ErrorKind
deriving DecidableEq

/-- A configuration. -/
structure Config where
  generator : GeneratorConfig
  runtime : RuntimeConfig
deriving DecidableEq

/-- The width of a level unless a configuration says otherwise. -/
def defaultIndent : UInt64 := 2

namespace GeneratorConfig

/-- Programs as they are written unless a configuration says otherwise. -/
def default : GeneratorConfig := ⟨.python, defaultIndent, true⟩

/-- The style of programs. -/
def style (c : GeneratorConfig) : Program.Style := ⟨c.target, c.indent.toNat, c.comments⟩

/-- The options that a tree stands for. -/
def ofTree? (t : Json.Tree) : Option GeneratorConfig := do
  match ← t.fields? ["target", "indent", "emitBlockComments"] with
  | [target, indent, comments] =>
    let target ← Json.Tree.orDefault default.target (·.choice?.bind Target.ofName?) target
    let indent ← Json.Tree.orDefault default.indent (·.word?) indent
    let comments ← Json.Tree.orDefault default.comments (·.truth?) comments
    some ⟨target, indent, comments⟩
  | _ => none

end GeneratorConfig

namespace RuntimeConfig

/-- What a run tolerates unless a configuration says otherwise. -/
def default : RuntimeConfig := ⟨ErrorKind.defaultTolerable⟩

/-- The options that a tree stands for. -/
def ofTree? (t : Json.Tree) : Option RuntimeConfig := do
  match ← t.fields? ["tolerableErrors"] with
  | [kinds] =>
    let kinds ← Json.Tree.orDefault default.tolerable
      (fun t => t.items?.bind fun ts => ts.mapM fun t => t.choice?.bind ErrorKind.ofName?) kinds
    some ⟨kinds⟩
  | _ => none

end RuntimeConfig

namespace Config

/-- The configuration that says nothing. -/
def default : Config := ⟨.default, .default⟩

/-- The configuration that a tree stands for. -/
def ofTree? (t : Json.Tree) : Option Config := do
  match ← t.fields? ["generator", "runtime"] with
  | [generator, runtime] =>
    let generator ← Json.Tree.orDefault .default GeneratorConfig.ofTree? generator
    let runtime ← Json.Tree.orDefault .default RuntimeConfig.ofTree? runtime
    some ⟨generator, runtime⟩
  | _ => none

/-- The configuration that a text holds. -/
def read? (s : String) : Option Config := do
  let t ← Json.Tree.read? s
  ofTree? t

/-- A configuration as a document value. -/
def toJson (c : Config) : Json :=
  .obj [("generator", .obj [("target", .str c.generator.target.name),
      ("indent", .num (.int c.generator.indent.toNat)),
      ("emitBlockComments", .bool c.generator.comments)]),
    ("runtime", .obj [("tolerableErrors",
      .arr (c.runtime.tolerable.map fun kind => .str kind.name))])]

end Config

end RecordMapper
