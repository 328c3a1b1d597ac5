import RecordMapper.Text.Blank

/-!
# Lines of program text

A text is cut into lines at line feeds only. `indent` puts something before each line, and
`tidy` is the last thing done to a program: it removes blank lines at both ends, the last line
feed excepted, and blanks at the ends of lines.
-/

namespace RecordMapper.Program

/-- The text with something put behind each line feed. -/
def afterLineFeeds (lead : List Char) : List Char → List Char
  | [] => []
  | c :: cs => if c = '\n' then c :: lead ++ afterLineFeeds lead cs else c :: afterLineFeeds lead cs

theorem afterLineFeeds_append (lead a b : List Char) :
    afterLineFeeds lead (a ++ b) = afterLineFeeds lead a ++ afterLineFeeds lead b := by
  induction a with
  | nil => rfl
  | cons c a ih =>
    rw [List.cons_append, afterLineFeeds, afterLineFeeds, ih]
    split
    · rw [List.append_assoc]
    · rfl

theorem afterLineFeeds_of_whole {line : List Char} (whole : '\n' ∉ line) (lead : List Char) :
    afterLineFeeds lead line = line := by
  induction line with
  | nil => rfl
  | cons c line ih =>
    rw [List.mem_cons, not_or] at whole
    rw [afterLineFeeds, if_neg (Ne.symm whole.1), ih whole.2]

/-- The text without the line feed at its end, and that line feed. -/
def splitFinal (cs : List Char) : List Char × List Char :=
  if cs.getLast? = some '\n' then (cs.dropLast, ['\n']) else (cs, [])

theorem splitFinal_append (cs : List Char) : (splitFinal cs).1 ++ (splitFinal cs).2 = cs := by
  rw [splitFinal]
  split
  · next ends =>
    obtain ⟨body, rfl⟩ := List.getLast?_eq_some_iff.mp ends
    rw [List.dropLast_concat]
  · exact List.append_nil _

theorem splitFinal_final (cs : List Char) : (splitFinal cs).2 = [] ∨ (splitFinal cs).2 = ['\n'] := by
  rw [splitFinal]
  split
  · exact .inr rfl
  · exact .inl rfl

/-- The text with something put before each line, which the end of the text after a final line
feed is not. -/
def indent (text lead : String) : String :=
  let (body, final) := splitFinal text.toList
  String.ofList (lead.toList ++ afterLineFeeds lead.toList body ++ final)

/-! ## Tidying -/

/-- The text after the last line feed of the blanks at its start, a line feed that is its first
character not counting. -/
def dropLeadingLines (cs : List Char) : List Char :=
  let blanks := cs.takeWhile Text.isBlank
  if (blanks.drop 1).contains '\n' then
    (blanks.reverse.takeWhile (· != '\n')).reverse ++ cs.dropWhile Text.isBlank
  else cs

/-- The text up to the first line feed of the blanks at its end, a line feed that is its last
character not counting. -/
def dropTrailingLines (cs : List Char) : List Char :=
  let blanks := (cs.reverse.takeWhile Text.isBlank).reverse
  let body := (cs.reverse.dropWhile Text.isBlank).reverse
  match blanks.dropWhile (· != '\n') with
  | _ :: _ :: _ => body ++ blanks.takeWhile (· != '\n') ++ ['\n']
  | _ => cs

/-- The text without spaces and tabs before line feeds. -/
def dropLineEndBlanks : List Char → List Char
  | [] => []
  | c :: cs =>
    let rest := dropLineEndBlanks cs
    if (c == ' ' || c == '\t') && rest.head? == some '\n' then rest else c :: rest

/-- A program text without blank lines at its ends and blanks at the ends of its lines. -/
def tidy (text : String) : String :=
  String.ofList (dropLineEndBlanks (dropTrailingLines (dropLeadingLines text.toList)))

/-! ## Runs of line feeds -/

/-- The text with each run of two or more line feeds cut to two. -/
def squeezeLineFeeds : List Char → List Char
  | [] => []
  | c :: cs =>
    let rest := squeezeLineFeeds cs
    if c == '\n' && rest.take 2 == ['\n', '\n'] then rest else c :: rest

/-- The text without the line feeds at its end. -/
def dropFinalLineFeeds (cs : List Char) : List Char :=
  (cs.reverse.dropWhile (· == '\n')).reverse

end RecordMapper.Program
