import RecordMapper.Program.Script.Binding

/-!
# Functions

Functions, methods and arrow functions. The body of a function allows other things than its
surroundings: what it returns, whether it waits and whether it yields is its own.
-/

namespace RecordMapper.Program.Script.Reader

/-- Statements up to a closing brace. -/
def statements (inner : Inner) : Reader Unit :=
  whileTrue (return !(← atSign "\x7d")) do
    let _ ← inner (.statement .block)

/-- Statements in braces. -/
def block (inner : Inner) : Reader Unit := do
  expectSign "\x7b"
  statements inner
  expectSign "\x7d"

/-- The body of a function. -/
def functionBody (inner : Inner) : Reader Unit :=
  within ({ · with takesIn := true, returns := true }) (block inner)

/-- What a function allows inside. -/
def inFunction (isAsync isGenerator : Bool) (c : Context) : Context :=
  { c with takesIn := true, awaits := isAsync, yields := isGenerator }

/-- The parameters and the body of a function. -/
def callable (inner : Inner) (isAsync isGenerator : Bool) : Reader Parameters :=
  within (inFunction isAsync isGenerator) do
    let found ← parameters inner
    functionBody inner
    return found

/-- A function behind its first word; its name, if it has one, is outside of it. -/
def functionDeclaration (inner : Inner) (isAsync isNamed : Bool) : Reader (List String × Bool) := do
  let isGenerator ← eatSign "*"
  let names ← if isVariable (← lexeme) then pure [← variableName] else pure []
  faultIf (isNamed && names.isEmpty)
  let _ ← callable inner isAsync isGenerator
  return (names, isGenerator)

/-- A function behind its first word as an operand; its name, if it has one, is part of it. -/
def functionOperand (inner : Inner) (isAsync : Bool) : Reader Unit := do
  let isGenerator ← eatSign "*"
  if isVariable (← lexeme) then
    let _ ← within (inFunction isAsync isGenerator) variableName
  let _ ← callable inner isAsync isGenerator

/-- Whether a function starts here with the word `async`. -/
def atAsyncFunction : Reader Bool := do
  if !isPlainWord "async" (← lexeme) then return false
  let next ← following
  return isWord "function" next && !next.newLine

/-! ## Methods -/

/-- Whether a word is due that says something of the member behind it: the key follows, or a star
before the key if `takesStar`. -/
def atModifier (word : String) (takesStar sameLine : Bool) : Reader Bool := do
  if !(← atWord word) then return false
  let next ← following
  return (startsKey next || (takesStar && isStar next)) && !(sameLine && next.newLine)

/-- What a method is for. -/
inductive MethodKind where
  | plain
  | getter
  | setter

/-- The parameters and the body of a method. A getter takes nothing and a setter one value. -/
def method (inner : Inner) (k : MethodKind) (isAsync isGenerator : Bool) : Reader Unit := do
  let found ← callable inner isAsync isGenerator
  match k with
  | .plain => return
  | .getter => faultIf (found.count != 0)
  | .setter => faultIf (found.count != 1 || found.hasRest)

/-! ## Arrow functions -/

/-- The body of an arrow function. -/
def arrowBody (inner : Inner) (isAsync : Bool) : Reader Unit :=
  within ({ · with awaits := isAsync, yields := false }) do
    if ← atSign "\x7b" then functionBody inner
    else
      let _ ← settled (inner .expression)

/-- The arrow of an arrow function; no line ends before it. -/
def arrow : Reader Unit := do
  faultIf (← newLine)
  expectSign "=>"

/-- The parameters of an arrow function in parentheses, up to the arrow, and whether the function
is asynchronous. -/
def arrowHead (inner : Inner) : Reader Bool := do
  let isAsync ← eatWord "async"
  let _ ← within (fun c => { c with awaits := c.awaits || isAsync }) (parameters inner)
  arrow
  return isAsync

/-- Whether the parameters of an arrow function may start here. -/
def mayStartArrow : Reader Bool := do
  if ← atSign "(" then return true
  if !(← atWord "async") then return false
  let next ← following
  return next.kind == .sign "(" && !next.newLine

/-- Whether an asynchronous arrow function with one name for a parameter starts here. -/
def atAsyncArrow : Reader Bool := do
  if !(← atWord "async") then return false
  let next ← following
  return isVariable next && !next.newLine && next.next.kind == .sign "=>"

/-- An arrow function that can be told by its start, if there is one. -/
def arrowFunction? (inner : Inner) : Reader Bool := do
  if ← mayStartArrow then
    let place := (← get).place
    if (← get).noArrow.contains place then return false
    match ← attempt (arrowHead inner) with
    | some isAsync =>
      arrowBody inner isAsync
      return true
    | none =>
      modify fun s => { s with noArrow := place :: s.noArrow }
      return false
  else if ← atAsyncArrow then
    let _ ← eatWord "async"
    let _ ← within ({ · with awaits := true }) variableName
    arrow
    arrowBody inner true
    return true
  else return false

end RecordMapper.Program.Script.Reader
