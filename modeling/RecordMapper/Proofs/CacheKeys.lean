import Mathlib.Data.List.Basic
import Mathlib.Data.String.Basic
import RecordMapper.Session.Cache

/-!
# Keys of a cache

The bytes that are digested for a request tell the options and the text of the workspace apart from all
others (`keyBytes_injective`). The digits of a digest are a name that files can have, so a file of a
directory is changed by writing an entry only if it is the file of that entry (`read_write`).
-/

namespace RecordMapper.Proofs.CacheKeys

/-! ## Bytes of a request -/

private theorem toList_loop (bytes : ByteArray) (i : Nat) (read : List UInt8) :
    ByteArray.toList.loop bytes i read = read.reverse ++ bytes.data.toList.drop i := by
  fun_induction ByteArray.toList.loop bytes i read with
  | case1 i read more ih =>
    have size : i < bytes.data.toList.length := by simpa using more
    rw [ih, List.drop_eq_getElem_cons size]
    simp [ByteArray.get!, more]
  | case2 i read ended =>
    have size : bytes.data.toList.length ≤ i := by simpa using Nat.not_lt.mp ended
    rw [List.drop_eq_nil_of_le size, List.append_nil]

private theorem toList_eq (bytes : ByteArray) : bytes.toList = bytes.data.toList := by
  rw [ByteArray.toList, toList_loop]
  rfl

private theorem utf8_injective {a b : String} (same : a.toUTF8.toList = b.toUTF8.toList) : a = b := by
  rw [toList_eq, toList_eq, Array.toList_inj] at same
  exact String.toByteArray_inj.mp (ByteArray.ext same)

private theorem littleEndian_injective {v w : UInt64} (same : Cache.littleEndian v = Cache.littleEndian w) : v = w := by
  have byte (i : Nat) (inside : i < 8) : v.toNat / 2 ^ (8 * i) % 256 = w.toNat / 2 ^ (8 * i) % 256 := by
    have at_ := congrArg (fun bytes => (bytes[i]?).map UInt8.toNat) same
    simpa [Cache.littleEndian, inside, Nat.shiftRight_eq_div_pow] using at_
  have zero := byte 0 (by decide)
  have one := byte 1 (by decide)
  have two := byte 2 (by decide)
  have three := byte 3 (by decide)
  have four := byte 4 (by decide)
  have five := byte 5 (by decide)
  have six := byte 6 (by decide)
  have seven := byte 7 (by decide)
  have small := v.toNat_lt
  have small' := w.toNat_lt
  rw [← UInt64.toNat_inj]
  simp only [Nat.reduceMul, Nat.reducePow, Nat.div_one] at *
  omega

/-- The names of the targets begin differently. -/
private theorem target_of_name {t t' : Target}
    (same : t.name.toUTF8.toList.head? = t'.name.toUTF8.toList.head?) : t = t' := by
  rw [toList_eq, toList_eq] at same
  revert same
  cases t <;> cases t' <;> decide +kernel

private theorem name_begins (t : Target) (rest : List UInt8) :
    (t.name.toUTF8.toList ++ rest).head? = t.name.toUTF8.toList.head? := by
  rw [toList_eq]
  cases t <;> rfl

/-- The bytes of a request tell its options and the text of its workspace. -/
theorem keyBytes_injective {o o' : GeneratorConfig} {text text' : String}
    (same : Cache.keyBytes o text = Cache.keyBytes o' text') : o = o' ∧ text = text' := by
  obtain ⟨t, indent, comments⟩ := o
  obtain ⟨t', indent', comments'⟩ := o'
  simp only [Cache.keyBytes, List.append_assoc] at same
  have targets : t = t' := by
    have first := congrArg List.head? same
    rw [name_begins, name_begins] at first
    exact target_of_name first
  subst targets
  obtain ⟨-, behind⟩ := List.cons.inj (List.append_cancel_left same)
  obtain ⟨indents, behind⟩ := List.append_inj behind rfl
  obtain ⟨flags, texts⟩ := List.cons.inj behind
  have comments_eq : comments = comments' := by
    cases comments <;> cases comments' <;> first | rfl | cases flags
  rw [littleEndian_injective indents, comments_eq, utf8_injective texts]
  exact ⟨rfl, rfl⟩

/-! ## Digests as names -/

private theorem hexByte_eq (b : UInt8) :
    Sha256.hexByte b = [Json.hexDigit (b.toNat / 16), Json.hexDigit (b.toNat % 16)] := rfl

private theorem hexDigit_injective : ∀ d < 16, ∀ e < 16, Json.hexDigit d = Json.hexDigit e → d = e := by decide

private theorem hexByte_injective {b b' : UInt8} (same : Sha256.hexByte b = Sha256.hexByte b') : b = b' := by
  rw [hexByte_eq, hexByte_eq, List.cons.injEq, List.cons.injEq] at same
  have small := b.toNat_lt
  have small' := b'.toNat_lt
  have high := hexDigit_injective (b.toNat / 16) (by omega) (b'.toNat / 16) (by omega) same.1
  have low := hexDigit_injective (b.toNat % 16) (by omega) (b'.toNat % 16) (by omega) same.2.1
  exact UInt8.toNat_inj.mp (by omega)

private theorem flatMap_hexByte_injective (a b : List UInt8) (same : a.flatMap Sha256.hexByte = b.flatMap Sha256.hexByte) :
    a = b := by
  induction a generalizing b with
  | nil =>
    cases b with
    | nil => rfl
    | cons => cases same
  | cons x a ih =>
    cases b with
    | nil => cases same
    | cons y b =>
      rw [List.flatMap_cons, List.flatMap_cons] at same
      obtain ⟨first, later⟩ := List.append_inj same rfl
      rw [hexByte_injective first, ih b later]

/-- The digits tell the digest. -/
theorem digest_of_hexDigest {a b : List UInt8} (same : Sha256.hexDigest a = Sha256.hexDigest b) :
    Sha256.digest a = Sha256.digest b :=
  flatMap_hexByte_injective _ _ (String.ofList_inj.mp same)

/-- A text that is the digest of some bytes. -/
def IsKey (key : String) : Prop := ∃ bytes, key = Sha256.hexDigest bytes

private theorem plain_hexDigit : ∀ d < 16,
    Json.hexDigit d ≠ '/' ∧ Json.hexDigit d ≠ '.' ∧ Json.hexDigit d ≠ '\x00' ∧ (Json.hexDigit d).utf8Size = 1 := by
  decide

private theorem plain_hexByte (b : UInt8) : ∀ c ∈ Sha256.hexByte b, c ≠ '/' ∧ c ≠ '.' ∧ c ≠ '\x00' ∧ c.utf8Size = 1 := by
  have small := b.toNat_lt
  rw [hexByte_eq]
  simp only [List.forall_mem_cons]
  exact ⟨plain_hexDigit _ (by omega), plain_hexDigit _ (by omega), List.forall_mem_nil _⟩

private theorem plain_key {key : String} (isKey : IsKey key) :
    ∀ c ∈ key.toList, c ≠ '/' ∧ c ≠ '.' ∧ c ≠ '\x00' ∧ c.utf8Size = 1 := by
  obtain ⟨bytes, rfl⟩ := isKey
  rw [Sha256.hexDigest, String.toList_ofList]
  exact List.forall_mem_flatMap.mpr fun b _ => plain_hexByte b

private theorem length_key {key : String} (isKey : IsKey key) : key.toList.length = 64 := by
  obtain ⟨bytes, rfl⟩ := isKey
  have pairs (bytes : List UInt8) : (bytes.flatMap Sha256.hexByte).length = 2 * bytes.length := by
    induction bytes with
    | nil => rfl
    | cons b rest ih => rw [List.flatMap_cons, List.length_append, ih, List.length_cons, hexByte_eq]; simp; omega
  rw [Sha256.hexDigest, String.toList_ofList, pairs, Sha256.length_digest]

/-! ## Files of entries -/

/-- The name of the file of a key. -/
def fileName (key : String) : String := key ++ ".json"

theorem fileName_injective {key key' : String} (same : fileName key = fileName key') : key = key' := by
  have chars := congrArg String.toList same
  rw [fileName, fileName, String.toList_append, String.toList_append] at chars
  exact String.toList_inj.mp (List.append_cancel_right chars)

/-- The file of a key stands in the directory itself, under a name that files can have. -/
private structure Plain (key : String) : Prop where
  pieces : (Cache.fileOf key).pieces = [fileName key]
  relative : (Cache.fileOf key).isAbsolute = false
  named : PathName.isFileName (fileName key) = true
  stays : PathName.stays (fileName key) = false
  leadsUp : PathName.leadsUp (fileName key) = false

private theorem file_of_key {key : String} (isKey : IsKey key) : Plain key := by
  have plain := plain_key isKey
  have size := length_key isKey
  have slashless : '/' ∉ (fileName key).toList := by
    rw [fileName, String.toList_append, List.mem_append, not_or]
    exact ⟨fun inside => (plain _ inside).1 rfl, by decide⟩
  obtain ⟨c, rest, first⟩ : ∃ c rest, key.toList = c :: rest := by
    cases chars : key.toList with
    | nil => rw [chars] at size; cases size
    | cons c rest => exact ⟨c, rest, rfl⟩
  obtain ⟨noSlash, noDot, _⟩ := plain c (by simp [first])
  have begins : (fileName key).toList = c :: (rest ++ ".json".toList) := by
    rw [fileName, String.toList_append, first, List.cons_append]
  have other {word : String} (begins' : ∀ d ∈ word.toList.head?, d = '.') : (fileName key == word) = false := by
    rw [beq_eq_false_iff_ne]
    rintro rfl
    exact noDot (begins' c (by simp [begins]))
  refine ⟨?_, ?_, ?_, ?_, ?_⟩
  · rw [PathName.pieces, Cache.fileOf, ← fileName, List.splitOn_eq_singleton slashless, List.map_singleton,
      String.ofList_toList]
  · rw [PathName.isAbsolute, Cache.fileOf, ← fileName, begins]
    simpa using noSlash
  · have one (cs : List Char) (each : ∀ c ∈ cs, c.utf8Size = 1) : String.utf8Len cs = cs.length := by
      induction cs with
      | nil => rfl
      | cons c cs ih =>
        obtain ⟨here, later⟩ := List.forall_mem_cons.mp each
        rw [String.utf8Len, here, ih later, List.length_cons]
    have digits : key.utf8ByteSize = 64 := by
      rw [← String.ofList_toList (s := key), String.utf8ByteSize_ofList, one _ fun c inside => (plain c inside).2.2.2, size]
    have bytes : (fileName key).utf8ByteSize = 69 := by
      rw [fileName, String.utf8ByteSize_append, digits]
      rfl
    have nulless : (fileName key).toList.contains '\x00' = false := by
      rw [List.contains_eq_mem, decide_eq_false_iff_not, fileName, String.toList_append, List.mem_append, not_or]
      exact ⟨fun inside => (plain _ inside).2.2.1 rfl, by decide⟩
    rw [PathName.isFileName, bytes, nulless]
    rfl
  · rw [PathName.stays, other (by simp), other (by simp)]
    rfl
  · rw [PathName.leadsUp, other (by simp)]

private theorem locate_key {key : String} (isKey : IsKey key) (d : Directory) :
    d.locate? (Cache.fileOf key) =
      if d.tree.hasDirectory d.location then some (d.location ++ [fileName key]) else none := by
  obtain ⟨pieces, relative, named, stays, leadsUp⟩ := file_of_key isKey
  simp [Directory.locate?, Directory.start, pieces, relative, named, Location.step, stays, leadsUp]

private theorem lookup_filter_of_ne {l l' : Location} (other : l' ≠ l) (entries : List (Location × FileContent)) :
    (entries.filter (·.1 != l)).lookup l' = entries.lookup l' := by
  induction entries with
  | nil => rfl
  | cons e rest ih =>
    obtain ⟨place, content⟩ := e
    by_cases own : place = l
    · have skipped : (l' == place) = false := by rw [beq_eq_false_iff_ne, own]; exact other
      rw [List.filter_cons_of_neg (by simp [own]), ih, List.lookup_cons, skipped]
    · rw [List.filter_cons_of_pos (by simp [own]), List.lookup_cons, List.lookup_cons, ih]

private theorem at_put_self (l : Location) (content : FileContent) (t : FileTree) :
    (t.put l content).at? l = some content := by
  have none : (t.entries.filter (·.1 != l)).lookup l = none := by
    rw [List.lookup_eq_none_iff]
    intro e inside
    exact bne_iff_ne.mpr (Ne.symm (bne_iff_ne.mp (List.mem_filter.mp inside).2))
  rw [FileTree.at?, FileTree.put, List.lookup_append, none, List.lookup_cons_self]
  rfl

/-- What is neither at a location nor above it stays as it is. -/
private theorem at_put_apart {l l' : Location} (apart : ¬ l' <+: l) (content : FileContent) (t : FileTree) :
    (t.put l content).at? l' = t.at? l' := by
  have other : l' ≠ l := by
    rintro rfl
    exact apart (List.prefix_refl _)
  have closed : l'.isPrefixOf l = false := by rwa [Bool.eq_false_iff, Ne, List.isPrefixOf_iff_prefix]
  have above : ((t.put l content).entries.any fun e => l'.isPrefixOf e.1) = t.entries.any fun e => l'.isPrefixOf e.1 := by
    rw [FileTree.put, List.any_append, List.any_filter, List.any_cons, closed, List.any_nil, Bool.or_false, Bool.or_false]
    congr 1
    funext e
    by_cases own : e.1 = l
    · rw [own, closed, Bool.and_false]
    · rw [bne_iff_ne.mpr own, Bool.true_and]
  have found : (t.put l content).entries.lookup l' = t.entries.lookup l' := by
    have skipped : (l' == l) = false := by rwa [beq_eq_false_iff_ne]
    rw [FileTree.put, List.lookup_append, lookup_filter_of_ne other, List.lookup_cons, skipped, List.lookup_nil,
      Option.or_none]
  rw [FileTree.at?, FileTree.at?, above, found]

private theorem hasDirectory_put {l : Location} {name : String} (content : FileContent) {t : FileTree}
    (there : t.hasDirectory l = true) : (t.put (l ++ [name]) content).hasDirectory l = true := by
  have other : l ≠ l ++ [name] := by simp
  have skipped : (l == l ++ [name]) = false := by rwa [beq_eq_false_iff_ne]
  rw [FileTree.hasDirectory, FileTree.at?] at there ⊢
  rw [FileTree.put, List.lookup_append, lookup_filter_of_ne other, List.lookup_cons, skipped, List.lookup_nil, Option.or_none]
  cases found : t.entries.lookup l with
  | some content' => rwa [found] at there
  | none => simp [FileContent.isDirectory]

/-- After an entry is written, the file of a key says that entry if it is its file, or what it said before. -/
theorem read_write {key key' text text' : String} (isKey : IsKey key) (isKey' : IsKey key') {d : Directory}
    (read : (d.write (Cache.fileOf key) text).read? (Cache.fileOf key') = some text') :
    (key' = key ∧ text' = text) ∨ d.read? (Cache.fileOf key') = some text' := by
  rw [Directory.write, locate_key isKey] at read
  by_cases there : d.tree.hasDirectory d.location = true
  · rw [if_pos there] at read
    simp only at read
    split at read
    · exact .inr read
    · rw [Directory.read?, Directory.at?, locate_key isKey'] at read ⊢
      rw [if_pos (hasDirectory_put _ there), Option.bind_some] at read
      rw [if_pos there, Option.bind_some]
      by_cases own : key' = key
      · subst own
        rw [at_put_self] at read
        cases read
        exact .inl ⟨rfl, rfl⟩
      · rw [at_put_apart] at read
        · exact .inr read
        · intro within
          have same := within.eq_of_length (by simp)
          rw [List.append_cancel_left_eq, List.singleton_inj] at same
          exact own (fileName_injective same)
  · rw [if_neg there] at read
    exact .inr read

/-- A directory that was just made has no file of a key. -/
theorem read_freshNamed {key : String} (isKey : IsKey key) (name : String) :
    (Directory.freshNamed name).read? (Cache.fileOf key) = none := by
  rw [Directory.read?, Directory.at?, locate_key isKey]
  split
  · have deeper (l : Location) (short : l.length ≤ 2) : ¬ ["", name] ++ [fileName key] <+: l := fun within => by
      have length := within.length_le
      rw [List.length_append, List.length_cons, List.length_singleton, List.length_singleton] at length
      omega
    have nowhere : (Directory.freshNamed name).tree.at? (["", name] ++ [fileName key]) =
        Directory.fresh.tree.at? (["", name] ++ [fileName key]) :=
      at_put_apart (deeper ["", name] (Nat.le_refl 2)) .directory Directory.fresh.tree
    have empty : Directory.fresh.tree.at? (["", name] ++ [fileName key]) = none := by
      simp [FileTree.at?, Directory.fresh, List.lookup_cons]
    rw [Option.bind_some]
    exact congrArg (Option.bind · FileContent.text?) (nowhere.trans empty)
  · rfl

end RecordMapper.Proofs.CacheKeys
