import RecordMapper.Program.Script.Expression

/-!
# Declarations

Declarations of variables, functions and classes as statements. Each reader gives the names that
are declared.
-/

namespace RecordMapper.Program.Script.Reader

/-! ## Variables -/

/-- What variables are declared, and whether one of them lacks the value that it has to have. -/
structure Variables where
  names : List String
  lacksValue : Bool

/-- Whether the word before variables declares constants. -/
def isConstant (word : String) : Bool := word == "const" || word == "using"

/-- One variable, or several in brackets, with a value. -/
def declarator (inner : Inner) (word : String) : Reader Variables := do
  let isSingle := isVariable (← lexeme)
  faultIf (word == "using" && !isSingle)
  let bound ← inner .binding
  if ← eatSign "=" then
    let _ ← settled (inner .expression)
    return ⟨bound.names, false⟩
  else return ⟨bound.names, !isSingle || isConstant word⟩

/-- Variables behind the word that declares them. -/
def declarators (inner : Inner) (word : String) : Reader Variables :=
  steps (fun before => do
    let found ← declarator inner word
    let all := ⟨before.names ++ found.names, before.lacksValue || found.lacksValue⟩
    if ← eatSign "," then return .inl all
    else return .inr all) ⟨[], false⟩

/-- Variables as a statement. Those with a block for their scope do not stand alone as the body of
another statement. -/
def variableStatement (inner : Inner) (place : Place) (word : String) : Reader (List String) := do
  expectWord word
  let found ← declarators inner word
  endStatement
  faultIf found.lacksValue
  faultIf (place == .body && word != "var")
  return found.names

/-- Whether a variable is declared here that is disposed of at the end of its block. -/
def atUsing : Reader Bool := do
  if !isPlainWord "using" (← lexeme) then return false
  let next ← following
  return isVariable next && !next.newLine

/-- Whether such a variable is declared here, and its disposal is waited for. -/
def atAwaitUsing : Reader Bool := do
  if !(← atWord "await") then return false
  let next ← following
  return isPlainWord "using" next && !next.newLine && isVariable next.next && !next.next.newLine

/-- Whether a lexeme stands between operands or assigns. -/
def isInfix (l : Lexeme) : Bool :=
  match l.kind with
  | .sign sign => sign == "=" || updateSigns.contains sign || levels.any (·.contains sign)
  | .name text _ => text == "in" || text == "instanceof"
  | _ => false

/-- What starts with the word `let`: variables, or an expression if `let` is itself one. -/
def letStatement (inner : Inner) (place : Place) : Reader (List String) := do
  let next ← following
  if isInfix next || next.kind == .sign "." || next.kind == .sign "(" then
    let _ ← settled (sequence inner)
    endStatement
    return []
  else if next.kind == .sign ";" || (place == .body && next.kind != .sign "[") then
    let _ ← variableName
    endStatement
    return []
  else variableStatement inner place "let"

/-! ## Functions and classes -/

/-- A function as a statement. Asynchronous functions and generators do not stand alone as the
body of another statement. -/
def functionStatement (inner : Inner) (place : Place) : Reader (List String) := do
  let isAsync ← atAsyncFunction
  if isAsync then expectWord "async"
  expectWord "function"
  let (names, isGenerator) ← functionDeclaration inner isAsync true
  faultIf (place == .body && (isAsync || isGenerator))
  return names

/-- A class as a statement. It does not stand alone as the body of another statement. -/
def classStatement (inner : Inner) (place : Place) : Reader (List String) := do
  let _ ← decorators inner
  expectWord "class"
  let names ← classRest inner true
  faultIf (place == .body)
  return names

end RecordMapper.Program.Script.Reader
