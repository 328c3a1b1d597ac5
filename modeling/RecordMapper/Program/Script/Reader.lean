import RecordMapper.Program.Script.Lexeme

/-!
# Readers of scripts

A reader takes lexemes one by one and either fails or goes on. Some faults do not keep a script
from being read to its end: a reader notes such a fault and goes on, and the script is refused in
the end, but no other way of reading is tried for it. `attempt` tries a way and takes it back if it
fails; what was found out on the way about places behind it is kept, so that nothing is tried at
one place again and again.
-/

namespace RecordMapper.Program.Script

/-- What a place in a script allows. -/
structure Context where
  /-- whether `in` stands between operands -/
  takesIn : Bool
  /-- whether this is the body of a generator -/
  yields : Bool
  /-- whether this is the body of an asynchronous function, or of the script itself -/
  awaits : Bool
  /-- whether this is the body of a function -/
  returns : Bool
  /-- whether this is the expression of a decorator, which a bracket ends -/
  decorates : Bool

/-- How far a script is read. -/
structure State where
  /-- the lexeme that is due -/
  lexeme : Lexeme
  /-- the number of lexemes before it -/
  place : Nat
  /-- what is allowed here -/
  context : Context
  /-- whether a fault was noted -/
  isFaulty : Bool
  /-- the names that the script exports so far -/
  exports : List String
  /-- the places that are known to start no arrow function -/
  noArrow : List Nat
  /-- a bound on the number of lexemes -/
  bound : Nat

/-- A reader of some part of a script. One that fails still tells how far it came. -/
abbrev Reader (α : Type) := OptionT (StateM State) α

namespace Reader

variable {α β : Type}

/-! ## Lexemes -/

/-- The lexeme that is due. -/
def lexeme : Reader Lexeme := return (← get).lexeme

/-- The kind of the lexeme that is due. -/
def kind : Reader LexemeKind := return (← get).lexeme.kind

/-- Whether a line ended before the lexeme that is due. -/
def newLine : Reader Bool := return (← get).lexeme.newLine

/-- The lexeme after the one that is due. -/
def following : Reader Lexeme := return (← get).lexeme.next

/-- Takes the lexeme that is due for another one. -/
def retake (l : Lexeme) : Reader Unit := modify fun s => { s with lexeme := l }

/-- Goes on to the next lexeme. -/
def advance : Reader Unit :=
  modify fun s => { s with lexeme := s.lexeme.next, place := s.place + 1 }

/-- Notes a fault if there is one. -/
def faultIf (b : Bool) : Reader Unit := modify fun s => { s with isFaulty := s.isFaulty || b }

/-! ## Signs and words -/

/-- Whether a sign is due. -/
def atSign (sign : String) : Reader Bool := return (← kind) == .sign sign

/-- Goes past a sign if it is due, and tells whether it was. -/
def eatSign (sign : String) : Reader Bool := do
  if ← atSign sign then
    advance
    return true
  else
    return false

/-- Goes past a sign. -/
def expectSign (sign : String) : Reader Unit := do
  if !(← eatSign sign) then failure

/-- Whether a lexeme is a word. -/
def isWord (word : String) (l : Lexeme) : Bool :=
  match l.kind with
  | .name text _ => text == word
  | _ => false

/-- Whether a lexeme is a word without escapes. -/
def isPlainWord (word : String) (l : Lexeme) : Bool := l.kind == .name word false

/-- Whether a word is due. -/
def atWord (word : String) : Reader Bool := return isWord word (← lexeme)

/-- Goes past a word if it is due, and tells whether it was. A word that means something is not
to have escapes. -/
def eatWord (word : String) : Reader Bool := do
  if ← atWord word then
    faultIf !(isPlainWord word (← lexeme))
    advance
    return true
  else
    return false

/-- Goes past a word. -/
def expectWord (word : String) : Reader Unit := do
  if !(← eatWord word) then failure

/-- Whether a statement may end here without a semicolon. -/
def mayEnd : Reader Bool := do
  match ← kind with
  | .sign ";" => return true
  | .sign "\x7d" => return true
  | .finish => return true
  | _ => newLine

/-- Goes past the end of a statement. -/
def endStatement : Reader Unit := do
  if !(← eatSign ";") then
    if !(← mayEnd) then failure

/-! ## Ways to read -/

/-- Tries a way to read; if it fails, nothing of it remains but the places that start no arrow
function. -/
def attempt (r : Reader α) : Reader (Option α) := OptionT.mk fun s =>
  match r.run.run s with
  | (some a, t) => (some (some a), t)
  | (none, t) => (some none, { s with noArrow := t.noArrow })

/-- What a way to read would tell; nothing of it remains. A way that fails tells no. -/
def ahead (r : Reader Bool) : Reader Bool := OptionT.mk fun s =>
  (some ((r.run.run s).1.getD false), s)

/-- Reads where something else is allowed. -/
def within (change : Context → Context) (r : Reader α) : Reader α := do
  let context := (← get).context
  modify fun s => { s with context := change context }
  let a ← r
  modify fun s => { s with context }
  return a

/-- Takes steps from a value on until one gives the result. No more steps are taken than
`bound`. -/
def iterate (step : α → Reader (α ⊕ β)) : Nat → α → Reader β
  | 0, _ => failure
  | bound + 1, a => do
    match ← step a with
    | .inl a => iterate step bound a
    | .inr b => return b

/-- Takes steps from a value on until one gives the result. Each step that gives none takes a
lexeme, so the bound on their number is enough. -/
def steps (step : α → Reader (α ⊕ β)) (a : α) : Reader β := do
  iterate step (← get).bound a

/-- Reads as long as a condition holds. -/
def whileTrue (condition : Reader Bool) (r : Reader Unit) : Reader Unit :=
  steps (fun _ => do
    if ← condition then
      r
      return .inl ()
    else
      return .inr ()) ()

/-- What a list in brackets holds. -/
structure Items (α : Type) where
  items : List α
  /-- whether the last comma has nothing behind it -/
  trailingComma : Bool

/-- The items up to the bracket that closes a list, with commas between them. -/
def itemsUntil (close : String) (item : Reader α) : Reader (Items α) :=
  steps (fun (found : List α) => do
    if ← atSign close then
      return .inr ⟨found.reverse, !found.isEmpty⟩
    else
      let found := (← item) :: found
      if ← eatSign "," then
        return .inl found
      else if ← atSign close then
        return .inr ⟨found.reverse, false⟩
      else
        failure) []

/-- The items of a list in brackets. -/
def bracketed (opening close : String) (item : Reader α) : Reader (Items α) := do
  expectSign opening
  let found ← itemsUntil close item
  expectSign close
  return found

/-! ## Names -/

/-- The words that are no names. -/
def reservedWords : List String :=
  ["break", "case", "catch", "class", "const", "continue", "debugger", "default", "delete", "do",
    "else", "enum", "export", "extends", "false", "finally", "for", "function", "if", "import",
    "in", "instanceof", "new", "null", "return", "super", "switch", "this", "throw", "true", "try",
    "typeof", "var", "void", "while", "with"]

/-- Whether a lexeme can name a variable. -/
def isVariable (l : Lexeme) : Bool :=
  match l.kind with
  | .name text _ => !reservedWords.contains text
  | _ => false

/-- Whether a word is free to be a name: `yield` is not in a generator, and `await` is not in an
asynchronous function. -/
def isFree (word : String) (c : Context) : Bool :=
  !(word == "yield" && c.yields) && !(word == "await" && c.awaits)

/-- The name of a variable. -/
def variableName : Reader String := do
  let l ← lexeme
  match l.kind with
  | .name text _ =>
    if !isVariable l then failure
    faultIf !(isFree text (← get).context)
    advance
    return text
  | _ => failure

/-- A name of any kind, as members have it. -/
def memberName : Reader String := do
  match ← kind with
  | .name text _ =>
    advance
    return text
  | _ => failure

end Reader

end RecordMapper.Program.Script
