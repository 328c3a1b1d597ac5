import RecordMapper.Program.Target

/-!
# Preamble of a program

The preamble is a list of named definitions; a name that comes again changes nothing. A whole
program is its preamble, its code, and the line that runs it.
-/

namespace RecordMapper.Program

/-- Named definitions in the order in which they first came. -/
structure Preamble where
  definitions : List (String × String)

namespace Preamble

/-- The preamble without definitions. -/
def empty : Preamble := ⟨[]⟩

/-- The preamble with a definition, unless its name is taken. -/
def insert (p : Preamble) (name code : String) : Preamble :=
  if p.definitions.any (·.1 == name) then p else ⟨p.definitions ++ [(name, code)]⟩

theorem definitions_insert (p : Preamble) (name code : String) :
    (p.insert name code).definitions =
      if p.definitions.any (·.1 == name) then p.definitions
      else p.definitions ++ [(name, code)] := by
  unfold insert
  split <;> rfl

/-- The preamble with several definitions inserted in order. -/
def insertAll (p : Preamble) (ds : List (String × String)) : Preamble :=
  ds.foldl (fun p d => p.insert d.1 d.2) p

/-- The code of the definitions in order. -/
def codes (p : Preamble) : List String := p.definitions.map (·.2)

/-- The number of definitions. -/
def size (p : Preamble) : Nat := p.definitions.length

end Preamble

/-- What follows a word and at least one blank, if a text starts with these. -/
def afterWord (word cs : List Char) : Option (List Char) :=
  if word.isPrefixOf cs then
    let rest := cs.drop word.length
    if (rest.takeWhile Text.isBlank).isEmpty then none else some (rest.dropWhile Text.isBlank)
  else none

/-- Whether a text starts like an import of a module. -/
def startsImport (cs : List Char) : Bool :=
  match afterWord "import".toList cs with
  | some rest => !rest.isEmpty
  | none => false

/-- Whether a definition is an import: of a module, or of names from a module. -/
def isImport (definition : String) : Bool :=
  let cs := definition.toList
  startsImport cs ||
    match afterWord "from".toList cs with
    | some rest =>
      let tail := rest.dropWhile fun c => !Text.isBlank c
      tail.length < rest.length && startsImport (tail.dropWhile Text.isBlank)
    | none => false

end RecordMapper.Program

namespace RecordMapper.Target

open Program

/-- The definitions that every program of a target starts with. -/
def definitions : Target → List (String × String)
  | python =>
    [("import-main", "import executor"),
      ("import-from-main", "from executor import RecordDesign, Executor, BackwardLinkFor, log"),
      ("import-from-conditionals", "from conditionals import *"),
      ("import-jsonpath", "import jsonpath"),
      ("executor", "EXECUTOR: Executor = Executor()")]
  | javaScript =>
    [("executor", "const EXECUTOR = new Executor(INPUT_DOCUMENTS);")]

/-- The preamble that every program of a target starts with. -/
def preamble (t : Target) : Preamble := Preamble.empty.insertAll t.definitions

/-- The text of a preamble. Imports come first, one a line, and the other definitions have blank
lines between them. -/
def preambleText : Target → Preamble → String
  | python, p =>
    let (imports, others) := p.codes.partition isImport
    let all := "\n".intercalate imports ++ "\n\n" ++ "\n\n".intercalate others
    String.ofList (dropFinalLineFeeds (squeezeLineFeeds all.toList)) ++ "\n\n\n"
  | javaScript, p => "\n\n".intercalate p.codes ++ "\n\n\n"

/-- The line that runs a program. -/
def runLine : Target → String
  | python => "\nEXECUTOR.execute()\n"
  | javaScript => "\nEXECUTOR.execute();\n"

/-- The whole program around its code. -/
def finish (t : Target) (code : String) (p : Preamble) : String :=
  t.preambleText p ++ code ++ t.runLine

end RecordMapper.Target
