import RecordMapper.Program.Script.Exchange

/-!
# Statements

The statements of a script. A statement ends at a semicolon, before a closing brace or at the end
of a line behind which it cannot go on.
-/

namespace RecordMapper.Program.Script.Reader

/-- A statement that is the body of another one. -/
def body (inner : Inner) : Reader Unit := do
  let _ ← inner (.statement .body)

/-- An expression as a statement, or a statement with a label. -/
def expressionStatement (inner : Inner) : Reader Unit := do
  let shape ← settled (sequence inner)
  match shape, ← atSign ":" with
  | .variable _, true =>
    advance
    body inner
  | _, _ => endStatement

/-! ## Conditions and loops -/

/-- A statement under a condition. -/
def ifStatement (inner : Inner) : Reader Unit := do
  expectWord "if"
  condition inner
  body inner
  if ← eatWord "else" then body inner

/-- A loop with its condition before it. -/
def whileStatement (inner : Inner) : Reader Unit := do
  expectWord "while"
  condition inner
  body inner

/-- A loop with its condition behind it. -/
def doStatement (inner : Inner) : Reader Unit := do
  expectWord "do"
  body inner
  expectWord "while"
  condition inner
  let _ ← eatSign ";"

/-- A statement with an object whose members it may name. -/
def withStatement (inner : Inner) : Reader Unit := do
  expectWord "with"
  condition inner
  body inner

/-- The head of a loop behind what it starts with, and its body. -/
def countedLoop (inner : Inner) (waits : Bool) : Reader Unit := do
  expectSign ";"
  if !(← atSign ";") then whole inner
  expectSign ";"
  if !(← atSign ")") then whole inner
  expectSign ")"
  faultIf waits
  body inner

/-- The head of a loop over the members of something, behind the target, and its body. -/
def memberLoop (inner : Inner) (waits : Bool) : Reader Unit := do
  if ← eatWord "in" then
    faultIf waits
    whole inner
  else
    expectWord "of"
    element inner
  expectSign ")"
  body inner

/-- A loop whose head starts with variables. -/
def variableLoop (inner : Inner) (waits : Bool) (word : String) : Reader Unit := do
  let found ← within ({ · with takesIn := false }) (declarators inner word)
  if ← atAnyWord ["in", "of"] then memberLoop inner waits
  else
    faultIf found.lacksValue
    countedLoop inner waits

/-- A loop whose head starts with an expression. -/
def expressionLoop (inner : Inner) (waits : Bool) : Reader Unit := do
  let startsWithLet ← atWord "let"
  let startsWithAsync := isPlainWord "async" (← lexeme) && isWord "of" (← following)
  let shape ← within ({ · with takesIn := false }) (sequence inner)
  if ← atAnyWord ["in", "of"] then
    if !shape.isTarget then failure
    faultIf ((← atWord "of") && ((startsWithAsync && !waits) || startsWithLet))
    memberLoop inner waits
  else
    faultIf shape.mustBeTarget
    countedLoop inner waits

/-- Whether the word `let` at the start of a loop declares variables. -/
def atLetVariables : Reader Bool := do
  if !isPlainWord "let" (← lexeme) then return false
  match (← following).kind with
  | .sign sign => return sign == "\x7b" || sign == "["
  | .name text _ => return text != "in"
  | _ => return false

/-- A loop with a head. -/
def forStatement (inner : Inner) : Reader Unit := do
  expectWord "for"
  let waits ← atWord "await"
  if waits then
    faultIf !(← get).context.awaits
    expectWord "await"
  expectSign "("
  if ← atSign ";" then countedLoop inner waits
  else if ← eatWord "var" then variableLoop inner waits "var"
  else if ← eatWord "const" then variableLoop inner waits "const"
  else if ← atLetVariables then
    expectWord "let"
    variableLoop inner waits "let"
  else if ← atAwaitUsing then
    expectWord "await"
    expectWord "using"
    variableLoop inner waits "using"
  else if (← atUsing) && !isWord "of" (← following) then
    expectWord "using"
    variableLoop inner waits "using"
  else expressionLoop inner waits

/-! ## Jumps -/

/-- A jump out of a statement or to its start, perhaps one with a label. -/
def jumpStatement (word : String) : Reader Unit := do
  expectWord word
  if !(← mayEnd) then
    if !(isFree (← variableName) (← get).context) then failure
  endStatement

/-- The end of a function, perhaps with a value. -/
def returnStatement (inner : Inner) : Reader Unit := do
  faultIf !(← get).context.returns
  expectWord "return"
  if !(← mayEnd) then whole inner
  endStatement

/-- A failure. -/
def throwStatement (inner : Inner) : Reader Unit := do
  expectWord "throw"
  faultIf (← newLine)
  let _ ← settled (sequence inner)
  endStatement

/-- A block with what is done if it fails, and what is done in the end. -/
def tryStatement (inner : Inner) : Reader Unit := do
  expectWord "try"
  block inner
  let catches ← eatWord "catch"
  if catches then
    if ← eatSign "(" then
      let _ ← inner .binding
      expectSign ")"
    block inner
  let finishes ← eatWord "finally"
  if finishes then block inner
  if !catches && !finishes then failure

/-- One of several cases with its statements. -/
def switchCase (inner : Inner) : Reader Unit := do
  if !(← eatWord "default") then
    expectWord "case"
    let _ ← settled (sequence inner)
  expectSign ":"
  whileTrue (return !((← atSign "\x7d") || (← atAnyWord ["case", "default"]))) do
    let _ ← inner (.statement .block)

/-- A choice between cases. -/
def switchStatement (inner : Inner) : Reader Unit := do
  expectWord "switch"
  condition inner
  expectSign "\x7b"
  whileTrue (return !(← atSign "\x7d")) (switchCase inner)
  expectSign "\x7d"

/-! ## All statements -/

/-- A statement that starts with a word that is no name. -/
def reservedStatement (inner : Inner) (place : Place) (word : String) : Reader Unit := do
  match word with
  | "if" => ifStatement inner
  | "while" => whileStatement inner
  | "do" => doStatement inner
  | "for" => forStatement inner
  | "with" => withStatement inner
  | "switch" => switchStatement inner
  | "break" => jumpStatement word
  | "continue" => jumpStatement word
  | "return" => returnStatement inner
  | "throw" => throwStatement inner
  | "try" => tryStatement inner
  | "debugger" =>
    expectWord word
    endStatement
  | "var" =>
    let _ ← variableStatement inner place word
  | "const" =>
    let _ ← variableStatement inner place word
  | "function" =>
    let _ ← functionStatement inner place
  | "class" =>
    let _ ← classStatement inner place
  | "export" => exportStatement inner place
  | "import" =>
    let next ← following
    if next.kind == .sign "." || next.kind == .sign "(" then expressionStatement inner
    else importStatement
  | _ => expressionStatement inner

/-- A statement that starts with a word that may also be a name. -/
def wordStatement (inner : Inner) (place : Place) : Reader Unit := do
  if isPlainWord "let" (← lexeme) then
    let _ ← letStatement inner place
  else if ← atAsyncFunction then
    let _ ← functionStatement inner place
  else if ← atUsing then
    let _ ← variableStatement inner place "using"
  else if ← atAwaitUsing then
    faultIf !(← get).context.awaits
    expectWord "await"
    let _ ← variableStatement inner place "using"
  else expressionStatement inner

/-- A class or its export, with decorators before it. -/
def decoratedStatement (inner : Inner) (place : Place) : Reader Unit := do
  let _ ← decorators inner
  if ← atWord "export" then exportStatement inner place
  else
    let _ ← classStatement inner place

/-- A statement. -/
def statement (inner : Inner) (place : Place) : Reader Shape := do
  match ← kind with
  | .sign "\x7b" => block inner
  | .sign ";" => advance
  | .sign "@" => decoratedStatement inner place
  | .name word _ =>
    if reservedWords.contains word then reservedStatement inner place word
    else wordStatement inner place
  | _ => expressionStatement inner
  return .other

end RecordMapper.Program.Script.Reader
