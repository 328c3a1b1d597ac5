import RecordMapper.Digest.Sha256
import RecordMapper.Files.Directory
import RecordMapper.Program.Finished
import RecordMapper.Session.Config

/-!
# Cache of finished programs

A cache keeps finished programs in memory under a digest of all that decides them. It may also
keep each of them in a file of a directory, which outlives the memory: what is not in memory is
looked for there, a file that holds no entry is removed, and one that holds the entry of another
digest is left alone.
-/

namespace RecordMapper

/-- A cache: the programs in memory, and the directory if there is one. -/
structure Cache where
  memory : List (String × FinishedProgram)
  directory : Option Directory

namespace Cache

/-- The cache that holds nothing and has no directory. -/
def empty : Cache := ⟨[], none⟩

/-- The cache on a directory that has nothing in memory yet. -/
def onDirectory (d : Directory) : Cache := ⟨[], some d⟩

/-- The eight bytes of a word, low byte first. -/
def littleEndian (w : UInt64) : List UInt8 :=
  (List.range 8).map fun i => UInt8.ofNat (w.toNat >>> (8 * i))

/-- All that decides a program as bytes: the options and the text of the workspace. -/
def keyBytes (options : GeneratorConfig) (workspace : String) : List UInt8 :=
  options.target.name.toUTF8.toList ++ 0 :: littleEndian options.indent ++
    (if options.comments then 1 else 0) :: workspace.toUTF8.toList

/-- The digest of all that decides a program. -/
def key (options : GeneratorConfig) (workspace : String) : String :=
  Sha256.hexDigest (keyBytes options workspace)

/-- The path name of the file of a digest. -/
def fileOf (key : String) : PathName := ⟨key ++ ".json"⟩

/-- The text of the file of a program. -/
def entryText (key : String) (p : FinishedProgram) : String :=
  Json.render (.obj [("hash", .str key), ("program", p.toJson)])

/-- The digest and the program that the text of a file holds. -/
def entry? (text : String) : Option (String × FinishedProgram) := do
  match ← (← Json.Tree.read? text).fields? ["hash", "program"] with
  | [some key, some program] => some (← key.text?, ← FinishedProgram.ofTree? program)
  | _ => none

/-- The program of a digest from the directory, and the cache afterwards. -/
def load (key : String) (c : Cache) : Option FinishedProgram × Cache :=
  match c.directory with
  | none => (none, c)
  | some d =>
    match d.read? (fileOf key) with
    | none => (none, c)
    | some text =>
      match entry? text with
      | none => (none, { c with directory := some (d.remove (fileOf key)) })
      | some (found, program) =>
        if found = key then (some program, { c with memory := putMember key program c.memory })
        else (none, c)

/-- The program of a digest, and the cache afterwards. -/
def get (key : String) (c : Cache) : Option FinishedProgram × Cache :=
  match c.memory.lookup key with
  | some program => (some program, c)
  | none => c.load key

/-- The cache with a program under a digest. -/
def set (key : String) (p : FinishedProgram) (c : Cache) : Cache :=
  ⟨putMember key p c.memory, c.directory.map (Directory.write (fileOf key) (entryText key p))⟩

/-- A cache has what was put into it last. -/
theorem get_set (key : String) (p : FinishedProgram) (c : Cache) :
    (c.set key p).get key = (some p, c.set key p) := by
  simp [get, set, lookup_putMember_self]

/-- The number of programs in memory. -/
def size (c : Cache) : Nat := c.memory.length

/-- The cache with nothing in memory; the files stay. -/
def clear (c : Cache) : Cache := { c with memory := [] }

end Cache

end RecordMapper
