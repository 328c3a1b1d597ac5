import RecordMapper.Files.PathName

/-!
# Directories of files

A tree of files is given by the locations of its files and directories, each location the list of
the names that lead there from the top; a directory is also there if anything is in it. Path
names lead from one directory of the tree to others, each piece from a directory that is there.
-/

namespace RecordMapper

/-- What is at a location: a file, with its text if its bytes are one, or a directory. -/
inductive FileContent where
  | file (text : Option String)
  | directory

/-- The names that lead to a file or directory from the top. -/
abbrev Location := List String

/-- A tree of files. -/
structure FileTree where
  entries : List (Location × FileContent)

/-- A directory in a tree of files. -/
structure Directory where
  tree : FileTree
  location : Location

namespace FileContent

/-- The file with some bytes. -/
def ofBytes (bytes : List UInt8) : FileContent := .file (String.fromUTF8? bytes.toByteArray)

/-- The text of a file. -/
def text? : FileContent → Option String
  | .file text => text
  | .directory => none

/-- Whether this is a directory. -/
def isDirectory : FileContent → Bool
  | .file _ => false
  | .directory => true

end FileContent

namespace Location

/-- The location to which a piece of a path name leads; there is nothing above the top. -/
def step (piece : String) (l : Location) : Location :=
  if PathName.stays piece then l
  else if PathName.leadsUp piece then l.dropLast
  else l ++ [piece]

/-- The order of locations: name by name, a location before what is in it. -/
def inOrder : Location → Location → Bool
  | [], _ => true
  | _ :: _, [] => false
  | a :: as, b :: bs => decide (a < b) || (a == b && inOrder as bs)

end Location

namespace FileTree

/-- What is at a location. -/
def at? (l : Location) (t : FileTree) : Option FileContent :=
  match t.entries.lookup l with
  | some content => some content
  | none =>
    if l.isEmpty || t.entries.any fun e => l.isPrefixOf e.1 then some .directory else none

/-- Whether a directory is at a location. -/
def hasDirectory (l : Location) (t : FileTree) : Bool :=
  match t.at? l with
  | some content => content.isDirectory
  | none => false

/-- The tree with something else at a location. -/
def put (l : Location) (content : FileContent) (t : FileTree) : FileTree :=
  ⟨t.entries.filter (·.1 != l) ++ [(l, content)]⟩

/-- The tree with nothing at a location. -/
def erase (l : Location) (t : FileTree) : FileTree := ⟨t.entries.filter (·.1 != l)⟩

/-- The locations of the files at or below a location, in order. -/
def filesFrom (l : Location) (t : FileTree) : List Location :=
  ((t.entries.filter fun e => !e.2.isDirectory && l.isPrefixOf e.1).map (·.1)).mergeSort
    Location.inOrder

end FileTree

namespace Directory

/-- The directory that is alone in a tree, under a name of its own that no path name has. -/
def fresh : Directory := ⟨⟨[([""], .directory)]⟩, [""]⟩

/-- Where a path name starts. -/
def start (p : PathName) (d : Directory) : Location := if p.isAbsolute then [] else d.location

/-- The location to which a path name leads, if all on the way are directories that are there. -/
def locate? (p : PathName) (d : Directory) : Option Location :=
  p.pieces.foldlM (fun l piece =>
    if d.tree.hasDirectory l && PathName.isFileName piece then some (l.step piece) else none)
    (d.start p)

/-- What a path name leads to. -/
def at? (p : PathName) (d : Directory) : Option FileContent :=
  (d.locate? p).bind fun l => d.tree.at? l

/-- The text of the file that a path name leads to. -/
def read? (p : PathName) (d : Directory) : Option String := (d.at? p).bind FileContent.text?

/-- The directory with a text written to the file that a path name leads to. Nothing happens if
there is no way to it or a directory stands in its place. -/
def write (p : PathName) (text : String) (d : Directory) : Directory :=
  match d.locate? p with
  | some l =>
    if d.tree.hasDirectory l then d else { d with tree := d.tree.put l (.file (some text)) }
  | none => d

/-- The directory without the file that a path name leads to. -/
def remove (p : PathName) (d : Directory) : Directory :=
  match d.locate? p with
  | some l => if d.tree.hasDirectory l then d else { d with tree := d.tree.erase l }
  | none => d

/-- The names of the files in a directory, in order. -/
def names (d : Directory) : List String :=
  ((d.tree.filesFrom d.location).filter fun l => l.dropLast == d.location).filterMap List.getLast?

/-- The directory with something put where a path name leads, and with directories made on the
way. -/
def place (p : PathName) (content : FileContent) (d : Directory) : Directory :=
  let (l, tree) := p.pieces.foldl (fun (l, tree) piece =>
    (l.step piece, if tree.hasDirectory l then tree else tree.put l .directory))
    (d.start p, d.tree)
  { d with tree := tree.put l content }

/-- The directory that holds what the path names lead to. -/
def ofFiles (files : List (PathName × FileContent)) : Directory :=
  files.foldl (fun d file => d.place file.1 file.2) fresh

/-- A directory of the given name in a fresh one. -/
def freshNamed (name : String) : Directory :=
  let parent := fresh
  ⟨parent.tree.put (parent.location ++ [name]) .directory, parent.location ++ [name]⟩

end Directory

end RecordMapper
