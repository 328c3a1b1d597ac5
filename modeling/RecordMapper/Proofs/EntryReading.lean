import Mathlib.Data.String.Basic
import RecordMapper.Session.Cache

/-!
# Rendered texts read back

A document without numbers is read back from its text: the scanner cuts the text into the tokens of the
document (`scan_render`), and these make up the tree that says what the document says (`read_render`). A
cache writes such documents, so it reads back each entry that it writes (`entry_entryText`).
-/

namespace RecordMapper.Proofs.EntryReading
open RecordMapper.Json

/-! ## Strings -/

private theorem hexDigit_value : ∀ d < 16, Token.hexDigit? (hexDigit d) = some d := by decide

private theorem piece_control {c : Char} (low : c.toNat < 0x20) (rest : List Char) :
    Token.piece? ('\\' :: 'u' :: hex4 c.toNat ++ rest) = some (.char c, rest) := by
  have first := hexDigit_value (c.toNat / 4096 % 16) (by omega)
  have second := hexDigit_value (c.toNat / 256 % 16) (by omega)
  have third := hexDigit_value (c.toNat / 16 % 16) (by omega)
  have fourth := hexDigit_value (c.toNat % 16) (by omega)
  have value : ((c.toNat / 4096 % 16 * 16 + c.toNat / 256 % 16) * 16 + c.toNat / 16 % 16) * 16 + c.toNat % 16 = c.toNat := by
    omega
  have high : Token.isHigh c.toNat = false := by
    rw [Token.isHigh, Bool.and_eq_false_iff, decide_eq_false_iff_not]
    omega
  have half : Token.isLow c.toNat = false := by
    rw [Token.isLow, Bool.and_eq_false_iff, decide_eq_false_iff_not]
    omega
  simp [Token.piece?, Token.hex4?, hex4, first, second, third, fourth, value, high, half]

/-- A written character is one piece of a string. -/
private theorem piece_escapeChar (c : Char) (rest : List Char) :
    Token.piece? (escapeChar c ++ rest) = some (.char c, rest) := by
  unfold escapeChar
  split_ifs with mark backslash backspace feed line carriage tab low
  · subst mark; rfl
  · subst backslash; rfl
  · subst backspace; rfl
  · subst feed; rfl
  · subst line; rfl
  · subst carriage; rfl
  · subst tab; rfl
  · exact piece_control low rest
  · rw [List.singleton_append, Token.piece?]
    · simp [low, backslash]
    all_goals simp_all

private theorem stringFrom_body (read cs rest : List Char) :
    Token.stringFrom? (some read) (cs.flatMap escapeChar ++ '\x22' :: rest) =
      some (some (String.ofList (read.reverse ++ cs)), rest) := by
  induction cs generalizing read with
  | nil =>
    have closed : Token.piece? ('\x22' :: rest) = some (.close, rest) := rfl
    rw [List.flatMap_nil, List.nil_append, Token.stringFrom?]
    split <;> simp_all
  | cons c cs ih =>
    have next := piece_escapeChar c (cs.flatMap escapeChar ++ '\x22' :: rest)
    rw [List.flatMap_cons, List.append_assoc, Token.stringFrom?]
    split
    · next none => rw [next] at none; cases none
    · next ended => rw [next] at ended; cases ended
    · next d later one =>
      rw [next] at one
      cases one
      rw [Option.map_some, ih]
      simp
    · next half => rw [next] at half; cases half

/-! ## Tokens -/

/-- A text that is cut into tokens whatever was read before it and comes behind it, each of at least one
character. -/
structure Cut (text : List Char) (ts : List Token) : Prop where
  short : ts.length ≤ text.length
  scanned : ∀ acc fuel rest,
    Token.scanFrom acc (fuel + ts.length) (text ++ rest) = Token.scanFrom (ts.reverse ++ acc) fuel rest

theorem cut_nil : Cut [] [] := ⟨Nat.le_refl 0, fun _ _ _ => rfl⟩

theorem cut_append {a b : List Char} {ts us : List Token} (first : Cut a ts) (second : Cut b us) :
    Cut (a ++ b) (ts ++ us) := by
  refine ⟨?_, fun acc fuel rest => ?_⟩
  · rw [List.length_append, List.length_append]
    exact Nat.add_le_add first.short second.short
  · have steps : fuel + (ts ++ us).length = fuel + us.length + ts.length := by
      rw [List.length_append]
      omega
    rw [steps, List.append_assoc, first.scanned, second.scanned, List.reverse_append, List.append_assoc]

theorem cut_token {c : Char} {text : List Char} {t : Token} (visible : Token.isSpace c = false)
    (next : ∀ rest, Token.next? (c :: (text ++ rest)) = some (t, rest)) : Cut (c :: text) [t] := by
  refine ⟨Nat.succ_le_succ (Nat.zero_le _), fun acc fuel rest => ?_⟩
  rw [List.length_singleton, Token.scanFrom, List.cons_append, List.dropWhile_cons_of_neg (by simp [visible])]
  simp only [next]
  rfl

theorem cut_quote (s : String) : Cut (quote s).toList [.str (some s)] := by
  rw [quote, String.toList_ofList, List.cons_append]
  refine cut_token rfl fun rest => ?_
  have body := stringFrom_body [] s.toList rest
  rw [List.append_assoc, List.singleton_append, Token.next?, body]
  simp

/-- Texts with commas between them are cut into their tokens with commas between them. -/
theorem cut_commaSeparated {texts : List String} {tss : List (List Token)}
    (each : List.Forall₂ (fun text ts => Cut text.toList ts) texts tss) :
    Cut (commaSeparated texts).toList ([Token.comma].intercalate tss) := by
  rw [commaSeparated, String.toList_intercalate]
  have comma : Cut [','] [.comma] := cut_token rfl fun _ => rfl
  induction each with
  | nil => exact cut_nil
  | cons first rest ih =>
    cases rest with
    | nil => simpa using first
    | cons =>
      rw [List.map_cons, List.map_cons, List.intercalate_cons_cons, List.intercalate_cons_cons]
      exact cut_append (cut_append first comma) ih

/-! ## Documents -/

mutual

/-- Whether there is no number in a document. -/
def isNumberless : Json → Bool
  | .num _ => false
  | .arr items => areNumberless items
  | .obj members => membersNumberless members
  | _ => true

/-- Whether there is no number in any of several documents. -/
def areNumberless : List Json → Bool
  | [] => true
  | j :: js => isNumberless j && areNumberless js

/-- Whether there is no number in the members of an object. -/
def membersNumberless : List (String × Json) → Bool
  | [] => true
  | (_, j) :: js => isNumberless j && membersNumberless js

end

mutual

/-- The tokens of a document. -/
def tokens : Json → List Token
  | .null => [.null]
  | .bool b => [.bool b]
  | .num n => [.num (some n)]
  | .str s => [.str (some s)]
  | .arr items => .openArray :: ([.comma].intercalate (tokensOfItems items) ++ [.closeArray])
  | .obj members => .openObject :: ([.comma].intercalate (tokensOfMembers members) ++ [.closeObject])

/-- The tokens of each item of an array. -/
def tokensOfItems : List Json → List (List Token)
  | [] => []
  | j :: js => tokens j :: tokensOfItems js

/-- The tokens of each member of an object. -/
def tokensOfMembers : List (String × Json) → List (List Token)
  | [] => []
  | (k, j) :: js => (.str (some k) :: .colon :: tokens j) :: tokensOfMembers js

end

mutual

/-- What a document says as a tree. -/
def treeOf : Json → Tree
  | .null => .null
  | .bool b => .bool b
  | .num n => .num (some n)
  | .str s => .str (some s)
  | .arr items => .arr (treesOfItems items)
  | .obj members => .obj (treesOfMembers members)

/-- The trees of the items of an array. -/
def treesOfItems : List Json → List Tree
  | [] => []
  | j :: js => treeOf j :: treesOfItems js

/-- The members of an object as trees. -/
def treesOfMembers : List (String × Json) → List (Option String × Tree)
  | [] => []
  | (k, j) :: js => (some k, treeOf j) :: treesOfMembers js

end

private theorem cut_bracketed {opening closing : Char} {before after : Token} {text : String} {ts : List Token}
    (opens : Cut [opening] [before]) (inside : Cut text.toList ts) (closes : Cut [closing] [after]) :
    Cut (String.ofList [opening] ++ text ++ String.ofList [closing]).toList (before :: (ts ++ [after])) := by
  simpa using cut_append (cut_append opens inside) closes

mutual

theorem cut_render : ∀ j : Json, isNumberless j = true → Cut (render j).toList (tokens j)
  | .null, _ => (cut_token rfl fun _ => rfl : Cut ('n' :: ['u', 'l', 'l']) [.null])
  | .bool true, _ => (cut_token rfl fun _ => rfl : Cut ('t' :: ['r', 'u', 'e']) [.bool true])
  | .bool false, _ => (cut_token rfl fun _ => rfl : Cut ('f' :: ['a', 'l', 's', 'e']) [.bool false])
  | .str s, _ => by
    rw [render, tokens]
    exact cut_quote s
  | .arr items, numberless => by
    rw [isNumberless] at numberless
    rw [render, tokens]
    exact cut_bracketed (cut_token rfl fun _ => rfl) (cut_commaSeparated (cut_items items numberless))
      (cut_token rfl fun _ => rfl)
  | .obj members, numberless => by
    rw [isNumberless] at numberless
    rw [render, tokens]
    exact cut_bracketed (cut_token rfl fun _ => rfl) (cut_commaSeparated (cut_members members numberless))
      (cut_token rfl fun _ => rfl)

theorem cut_items : ∀ items : List Json, areNumberless items = true →
    List.Forall₂ (fun text ts => Cut text.toList ts) (renderItems items) (tokensOfItems items)
  | [], _ => by
    rw [renderItems, tokensOfItems]
    exact .nil
  | j :: js, numberless => by
    rw [areNumberless, Bool.and_eq_true] at numberless
    rw [renderItems, tokensOfItems]
    exact .cons (cut_render j numberless.1) (cut_items js numberless.2)

theorem cut_members : ∀ members : List (String × Json), membersNumberless members = true →
    List.Forall₂ (fun text ts => Cut text.toList ts) (renderMembers members) (tokensOfMembers members)
  | [], _ => by
    rw [renderMembers, tokensOfMembers]
    exact .nil
  | (k, j) :: js, numberless => by
    rw [membersNumberless, Bool.and_eq_true] at numberless
    rw [renderMembers, tokensOfMembers]
    have colon : Cut [':'] [.colon] := cut_token rfl fun _ => rfl
    have member := cut_append (cut_append (cut_quote k) colon) (cut_render j numberless.1)
    exact .cons (by simpa using member) (cut_members js numberless.2)

end

/-! ## Trees -/

/-- What tokens make up from a state that may not be there. -/
private def resume (s : Option Tree.State) (ts : List Token) : Option Tree := s.bind fun s => Tree.ofTokensFrom s ts

private theorem resume_some (s : Tree.State) (ts : List Token) : resume (some s) ts = Tree.ofTokensFrom s ts := rfl

private theorem ofTokensFrom_cons (s : Tree.State) (t : Token) (ts : List Token) :
    Tree.ofTokensFrom s (t :: ts) = resume (Tree.step s t) ts := by
  rw [Tree.ofTokensFrom, resume]
  cases Tree.step s t <;> rfl

/-- Where a value may stand. -/
private def Awaits (mode : Tree.Mode) : Prop := mode = .value ∨ mode = .firstItem

private theorem step_awaits {mode : Tree.Mode} (awaits : Awaits mode) (stack : List Tree.Frame) {t : Token}
    (other : t ≠ .closeArray) : Tree.step ⟨stack, mode⟩ t = Tree.stepValue stack t := by
  rcases awaits with rfl | rfl
  · rfl
  · unfold Tree.step
    split <;> simp_all

private theorem intercalate_cons {α : Type} (separator : α) (first : List α) (others : List (List α)) :
    [separator].intercalate (first :: others) = first ++ others.flatMap (separator :: ·) := by
  induction others generalizing first with
  | nil => simp
  | cons next others ih => rw [List.intercalate_cons_cons, ih, List.flatMap_cons]; simp

mutual

-- The open arrays and objects are left as they were, so the induction is over the document with any of
-- them around it and any tokens behind it.
private theorem ofTokensFrom_tokens : ∀ (j : Json) {mode : Tree.Mode} (_ : Awaits mode) (stack : List Tree.Frame)
    (ts : List Token), Tree.ofTokensFrom ⟨stack, mode⟩ (tokens j ++ ts) = resume (Tree.complete (treeOf j) stack) ts
  | .null, _, awaits, stack, ts => by
    rw [tokens, treeOf, List.singleton_append, ofTokensFrom_cons, step_awaits awaits stack (by simp), Tree.stepValue]
  | .bool _, _, awaits, stack, ts => by
    rw [tokens, treeOf, List.singleton_append, ofTokensFrom_cons, step_awaits awaits stack (by simp), Tree.stepValue]
  | .num _, _, awaits, stack, ts => by
    rw [tokens, treeOf, List.singleton_append, ofTokensFrom_cons, step_awaits awaits stack (by simp), Tree.stepValue]
  | .str _, _, awaits, stack, ts => by
    rw [tokens, treeOf, List.singleton_append, ofTokensFrom_cons, step_awaits awaits stack (by simp), Tree.stepValue]
  | .arr items, _, awaits, stack, ts => by
    rw [tokens, treeOf, List.cons_append, ofTokensFrom_cons, step_awaits awaits stack (by simp), Tree.stepValue, resume_some]
    cases items with
    | nil => rw [tokensOfItems, treesOfItems]; exact ofTokensFrom_cons ⟨_, .firstItem⟩ .closeArray ts
    | cons j js =>
      rw [tokensOfItems, treesOfItems, intercalate_cons, List.append_assoc, List.append_assoc,
        ofTokensFrom_tokens j (.inr rfl), Tree.complete, resume_some]
      exact ofTokensFrom_items js [treeOf j] stack ts
  | .obj members, _, awaits, stack, ts => by
    rw [tokens, treeOf, List.cons_append, ofTokensFrom_cons, step_awaits awaits stack (by simp), Tree.stepValue, resume_some]
    match members with
    | [] => rw [tokensOfMembers, treesOfMembers]; exact ofTokensFrom_cons ⟨_, .firstKey⟩ .closeObject ts
    | (k, j) :: ms =>
      rw [tokensOfMembers, treesOfMembers, intercalate_cons, List.append_assoc, List.append_assoc, List.cons_append,
        ofTokensFrom_cons, Tree.step, resume_some, List.cons_append, ofTokensFrom_cons, Tree.step, resume_some, ofTokensFrom_tokens j (.inl rfl), Tree.complete, resume_some]
      exact ofTokensFrom_members ms [(some k, treeOf j)] stack ts

private theorem ofTokensFrom_items : ∀ (js : List Json) (done : List Tree) (stack : List Tree.Frame) (ts : List Token),
    Tree.ofTokensFrom ⟨.items done :: stack, .after⟩ ((tokensOfItems js).flatMap (.comma :: ·) ++ ([.closeArray] ++ ts)) =
      resume (Tree.complete (.arr (done.reverse ++ treesOfItems js)) stack) ts
  | [], done, stack, ts => by
    rw [tokensOfItems, treesOfItems, List.append_nil]
    exact ofTokensFrom_cons ⟨_, .after⟩ .closeArray ts
  | j :: js, done, stack, ts => by
    rw [tokensOfItems, treesOfItems, List.flatMap_cons, List.append_assoc, List.cons_append, ofTokensFrom_cons, Tree.step, resume_some, ofTokensFrom_tokens j (.inl rfl), Tree.complete, resume_some,
      ofTokensFrom_items js, List.reverse_cons, List.append_assoc, List.singleton_append]

private theorem ofTokensFrom_members : ∀ (ms : List (String × Json)) (done : List (Option String × Tree))
    (stack : List Tree.Frame) (ts : List Token),
    Tree.ofTokensFrom ⟨.members done :: stack, .after⟩
        ((tokensOfMembers ms).flatMap (.comma :: ·) ++ ([.closeObject] ++ ts)) =
      resume (Tree.complete (.obj (done.reverse ++ treesOfMembers ms)) stack) ts
  | [], done, stack, ts => by
    rw [tokensOfMembers, treesOfMembers, List.append_nil]
    exact ofTokensFrom_cons ⟨_, .after⟩ .closeObject ts
  | (k, j) :: ms, done, stack, ts => by
    rw [tokensOfMembers, treesOfMembers, List.flatMap_cons, List.append_assoc, List.cons_append, ofTokensFrom_cons,
      Tree.step, resume_some, List.cons_append, ofTokensFrom_cons, Tree.step, resume_some,
      List.cons_append, ofTokensFrom_cons, Tree.step, resume_some, ofTokensFrom_tokens j (.inl rfl),
      Tree.complete, resume_some, ofTokensFrom_members ms, List.reverse_cons, List.append_assoc,
      List.singleton_append]

end

/-! ## Texts -/

private theorem length_le_utf8Len (cs : List Char) : cs.length ≤ String.utf8Len cs := by
  induction cs with
  | nil => exact Nat.le_refl 0
  | cons c cs ih =>
    have one := c.utf8Size_pos
    rw [String.utf8Len, List.length_cons]
    omega

/-- A document without numbers is cut into its tokens. -/
theorem scan_render {j : Json} (numberless : isNumberless j = true) : Token.scan (render j) = some (tokens j) := by
  obtain ⟨short, scanned⟩ := cut_render j numberless
  have bytes : (render j).toList.length ≤ (render j).utf8ByteSize := by
    conv_rhs => rw [← String.ofList_toList (s := render j), String.utf8ByteSize_ofList]
    exact length_le_utf8Len _
  obtain ⟨more, enough⟩ := Nat.exists_eq_add_of_le (Nat.le_trans short bytes)
  have whole := scanned [] (more + 1) []
  have steps : (render j).utf8ByteSize + 1 = more + 1 + (tokens j).length := by omega
  rw [Token.scan, steps]
  simpa [Token.scanFrom] using whole

/-- A document without numbers is read back from its text. -/
theorem read_render {j : Json} (numberless : isNumberless j = true) : Tree.read? (render j) = some (treeOf j) := by
  have read := ofTokensFrom_tokens j (.inl rfl) [] []
  rw [List.append_nil] at read
  rw [Tree.read?, scan_render numberless]
  exact read

/-! ## Entries -/

private theorem numberless_texts (texts : List String) : areNumberless (texts.map .str) = true := by
  induction texts with
  | nil => rfl
  | cons text rest ih => rw [List.map_cons, areNumberless, ih]; rfl

private theorem texts_of_trees (texts : List String) : (treesOfItems (texts.map .str)).mapM Tree.text? = some texts := by
  induction texts with
  | nil => rfl
  | cons text rest ih => rw [List.map_cons, treesOfItems, List.mapM_cons, ih]; rfl

private theorem numberless_diagnostic (d : Diagnostic) : isNumberless d.toJson = true := by
  simp [Diagnostic.toJson, isNumberless, membersNumberless, numberless_texts]

private theorem numberless_program (p : FinishedProgram) : isNumberless p.toJson = true := by
  have diagnostics : areNumberless (p.diagnostics.map Diagnostic.toJson) = true := by
    induction p.diagnostics with
    | nil => rfl
    | cons d rest ih => rw [List.map_cons, areNumberless, numberless_diagnostic, ih]; rfl
  simp [FinishedProgram.toJson, isNumberless, membersNumberless, numberless_texts, diagnostics]

/-- A diagnostic is read back from what its document says. -/
theorem diagnostic_treeOf (d : Diagnostic) : Diagnostic.ofTree? (treeOf d.toJson) = some d := by
  simp [Diagnostic.ofTree?, Diagnostic.toJson, treeOf, treesOfMembers, Tree.fields?, Tree.member?, Tree.items?, Tree.text?,
    texts_of_trees]

/-- A finished program is read back from what its document says. -/
theorem program_treeOf (p : FinishedProgram) : FinishedProgram.ofTree? (treeOf p.toJson) = some p := by
  have diagnostics : (treesOfItems (p.diagnostics.map Diagnostic.toJson)).mapM Diagnostic.ofTree? = some p.diagnostics := by
    induction p.diagnostics with
    | nil => rfl
    | cons d rest ih => rw [List.map_cons, treesOfItems, List.mapM_cons, diagnostic_treeOf, ih]; rfl
  simp [FinishedProgram.ofTree?, FinishedProgram.toJson, treeOf, treesOfMembers, Tree.fields?, Tree.member?, Tree.items?,
    Tree.text?, Tree.truth?, Tree.choice?, Target.ofName?_name, texts_of_trees, diagnostics]

/-- Whatever program is written under a key, its entry is read back. -/
theorem entry_entryText (key : String) (p : FinishedProgram) : Cache.entry? (Cache.entryText key p) = some (key, p) := by
  have numberless : isNumberless (.obj [("hash", .str key), ("program", p.toJson)]) = true := by
    simp [isNumberless, membersNumberless, numberless_program]
  rw [Cache.entry?, Cache.entryText, read_render numberless]
  simp [treeOf, treesOfMembers, Tree.fields?, Tree.member?, Tree.text?, program_treeOf]

end RecordMapper.Proofs.EntryReading
