/-!
# Path names

A path name is the text by which a file is asked for: pieces with slashes between them. Most
pieces are names; an empty piece and a single dot stay where they are, and two dots lead to the
directory above. A path name keeps its text, since answers show it.
-/

namespace RecordMapper

/-- The text by which a file is asked for. -/
structure PathName where
  text : String
deriving DecidableEq

namespace PathName

/-- What stands between the slashes. -/
def pieces (p : PathName) : List String := (p.text.toList.splitOn '/').map String.ofList

/-- Whether a path name starts at the top of the tree of files. -/
def isAbsolute (p : PathName) : Bool := p.text.toList.head? == some '/'

/-- Whether a piece stays where it is. -/
def stays (piece : String) : Bool := piece == "" || piece == "."

/-- Whether a piece leads to the directory above. -/
def leadsUp (piece : String) : Bool := piece == ".."

/-- Whether files can have a name: no null character, and at most 255 bytes. -/
def isFileName (name : String) : Bool :=
  name.utf8ByteSize ≤ 255 && !name.toList.contains '\x00'

/-- The name that a path name ends with. -/
def fileName? (p : PathName) : Option String :=
  (p.pieces.reverse.find? fun piece => !stays piece).filter fun piece => !leadsUp piece

/-- A name cut before its last dot and behind it. There is nothing behind if there is no dot, or
only one with nothing before it. -/
def cutExtension (name : List Char) : List Char × Option (List Char) :=
  let extension := (name.reverse.takeWhile (· != '.')).reverse
  let stem := (name.reverse.drop (extension.length + 1)).reverse
  if stem.isEmpty then (name, none) else (stem, some extension)

/-- A name without its extension. -/
def stem (name : String) : String := String.ofList (cutExtension name.toList).1

/-- Whether a name has the extension of documents. -/
def isJson (name : String) : Bool :=
  match (cutExtension name.toList).2 with
  | some extension => String.ofList (extension.map Char.toLower) == "json"
  | none => false

/-- The path name of what is below a directory, the names that lead there given. -/
def below (p : PathName) : List String → PathName
  | [] => p
  | names =>
    let start := if p.text.toList.getLast? == some '/' then p.text else p.text ++ "/"
    ⟨start ++ "/".intercalate names⟩

/-- The text without the pieces at both its ends that stay where they are. -/
def shown (p : PathName) : String :=
  "/".intercalate ((p.pieces.dropWhile stays).reverse.dropWhile stays).reverse

end PathName

end RecordMapper
