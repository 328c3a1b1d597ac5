import RecordMapper.Design.Lowering
import RecordMapper.Design.Run
import RecordMapper.Program.Basic
import RecordMapper.Program.Script.Grammar
import RecordMapper.Schema.Registry
import RecordMapper.Session.Cache

/-!
# Sessions

A session holds a configuration, the registered documents and a cache. `generate` writes the
program of a workspace, which it looks for in the cache first; `execute` runs the designs of a
workspace on documents. A session works with any checker of scripts; the one of `Program.Script` is
at hand where no other is given.
-/

namespace RecordMapper

/-- A session. -/
structure Session where
  config : Config
  registry : Registry
  cache : Cache

/-- Why designs of a workspace come to no records. -/
inductive ExecutionError where
  | graph (cause : GraphError)
  | run (cause : RunError)

namespace Session

/-- The session that starts with a configuration and a cache. -/
def start (config : Config) (cache : Cache) : Session := ⟨config, .empty, cache⟩

/-- The session with another configuration. -/
def configure (config : Config) (s : Session) : Session := { s with config }

/-- The session with a document registered, and the name that it got. -/
def process (name : String) (document : Json) (s : Session) : Session × String :=
  let (registry, assigned) := s.registry.process name document
  ({ s with registry }, assigned)

/-- The session with several documents registered in order, and the names that they got. -/
def processAll (s : Session) : List (String × Json) → Session × List String
  | [] => (s, [])
  | (name, document) :: rest =>
    let (s, assigned) := s.process name document
    let (s, more) := processAll s rest
    (s, assigned :: more)

/-- The session without documents. -/
def reset (s : Session) : Session := { s with registry := .empty }

/-- The finished program of a workspace under options. -/
def programOf [Program.ScriptChecker] (options : GeneratorConfig) (workspace : Json) : GraphResult FinishedProgram := do
  let graph ← Graph.ofWorkspace workspace
  let code ← Program.generate options.style graph
  .ok (.ofCode options.target code graph.validate)

/-- The finished program of a workspace, and the session afterwards. A failure is not cached. -/
def generate [Program.ScriptChecker] (workspace : Json) (s : Session) : GraphResult FinishedProgram × Session :=
  let options := s.config.generator
  let key := Cache.key options workspace.render
  match s.cache.get key with
  | (some program, cache) => (.ok program, { s with cache })
  | (none, cache) =>
    match programOf options workspace with
    | .ok program => (.ok program, { s with cache := cache.set key program })
    | .error e => (.error e, { s with cache })

/-- The diagnostics of a workspace. -/
def validate (workspace : Json) : GraphResult (List Diagnostic) :=
  (Graph.ofWorkspace workspace).map Graph.validate

/-- The known queries of a workspace. -/
def queryUses (workspace : Json) : GraphResult (List Graph.QueryUse) :=
  (Graph.ofWorkspace workspace).map Graph.queryUses

/-- The designs of a workspace. -/
def designs (workspace : Json) : GraphResult (List Design) := do
  let graph ← Graph.ofWorkspace workspace
  graph.lower

/-- The records that the designs of a workspace make of documents. -/
def execute (workspace : Json) (documents : List Json) (s : Session) :
    Except ExecutionError RecordGraph :=
  match designs workspace with
  | .ok designs => (run designs s.config.runtime.tolerable documents).mapError .run
  | .error e => .error (.graph e)

/-- The records that the designs of a workspace make of the registered documents. -/
def executeRegistered (workspace : Json) (s : Session) : Except ExecutionError RecordGraph :=
  s.execute workspace (s.registry.documents.map (·.2))

end Session

end RecordMapper
