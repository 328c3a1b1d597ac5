import RecordMapper.Files.Directory
import RecordMapper.Json.Reader
import RecordMapper.Session.Config

/-!
# Files of documents

Files whose name ends in `.json`, in any case, hold documents. They are looked for in a directory
and all that is below it, and read under the path names that lead to them. A configuration may be
read from any file.
-/

namespace RecordMapper

/-- Why documents cannot be had from files. -/
inductive InputError where
  | notJson
  | unreadable
  | badJson
  | notFound
deriving DecidableEq

/-- Why a configuration cannot be had from a file. -/
inductive ConfigError where
  | unreadable
  | badJson
deriving DecidableEq

/-- A document from a file. -/
structure InputDocument where
  name : String
  path : PathName
  content : Json

namespace Directory

/-- The path names of the documents at or below where a path name leads, in order. -/
def discover (p : PathName) (d : Directory) : Except InputError (List PathName) :=
  match d.locate? p with
  | some start =>
    if (d.tree.at? start).isSome then
      let found := (d.tree.filesFrom start).filter fun l => PathName.isJson (l.getLastD "")
      .ok (found.map fun l => p.below (l.drop start.length))
    else .error .notFound
  | none => .error .notFound

/-- The document that a path name leads to. -/
def load (p : PathName) (d : Directory) : Except InputError InputDocument :=
  match p.fileName?.filter PathName.isJson with
  | some name =>
    match d.read? p with
    | some text =>
      match Json.read? text with
      | some content => .ok ⟨PathName.stem name, p, content⟩
      | none => .error .badJson
    | none => .error .unreadable
  | none => .error .notJson

/-- The documents that several path names lead to; the first that fails decides. -/
def loadAll (ps : List PathName) (d : Directory) : Except InputError (List InputDocument) :=
  ps.mapM fun p => d.load p

/-- The configuration that a path name leads to. -/
def config (p : PathName) (d : Directory) : Except ConfigError Config :=
  match d.read? p with
  | some text =>
    match Config.read? text with
    | some config => .ok config
    | none => .error .badJson
  | none => .error .unreadable

end Directory

end RecordMapper
