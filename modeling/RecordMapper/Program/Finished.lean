import RecordMapper.Diagnostic
import RecordMapper.Json.Fields
import RecordMapper.Program.WellFormed

/-!
# Finished programs

A finished program is handed on with what was found wrong with its text and with the diagnostics
of its graph. `toJson` and `ofTree?` are the form in which it is kept: nothing is left out of it
and nothing has a default.
-/

namespace RecordMapper

/-- A program with what is known of it. -/
structure FinishedProgram where
  target : Target
  code : String
  hasErrors : Bool
  errors : List String
  diagnostics : List Diagnostic

namespace Diagnostic

/-- The diagnostic that a tree stands for. -/
def ofTree? (t : Json.Tree) : Option Diagnostic := do
  match ← t.fields? ["code", "message", "consequence", "blockId", "hints"] with
  | [some code, some message, some consequence, some blockId, some hints] =>
    let hints ← (← hints.items?).mapM Json.Tree.text?
    some ⟨← code.text?, ← message.text?, ← consequence.text?, ← blockId.text?, hints⟩
  | _ => none

end Diagnostic

namespace FinishedProgram

/-- A program with its text checked. -/
def ofCode [Program.ScriptChecker] (target : Target) (code : String) (diagnostics : List Diagnostic) :
    FinishedProgram :=
  let errors := Program.textErrors target code
  ⟨target, code, !errors.isEmpty, errors, diagnostics⟩

/-- A finished program as a document value. -/
def toJson (p : FinishedProgram) : Json :=
  .obj [("target", .str p.target.name), ("code", .str p.code), ("hasErrors", .bool p.hasErrors),
    ("errors", .arr (p.errors.map .str)),
    ("diagnostics", .arr (p.diagnostics.map Diagnostic.toJson))]

/-- The finished program that a tree stands for. -/
def ofTree? (t : Json.Tree) : Option FinishedProgram := do
  match ← t.fields? ["target", "code", "hasErrors", "errors", "diagnostics"] with
  | [some target, some code, some hasErrors, some errors, some diagnostics] =>
    let target ← target.choice?.bind Target.ofName?
    let errors ← (← errors.items?).mapM Json.Tree.text?
    let diagnostics ← (← diagnostics.items?).mapM Diagnostic.ofTree?
    some ⟨target, ← code.text?, ← hasErrors.truth?, errors, diagnostics⟩
  | _ => none

end FinishedProgram

end RecordMapper
