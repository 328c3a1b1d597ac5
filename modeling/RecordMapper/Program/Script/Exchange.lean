import RecordMapper.Program.Script.Declaration

/-!
# Imports and exports

What a script takes from other scripts and gives to them. No name is exported twice.
-/

namespace RecordMapper.Program.Script.Reader

/-- A string. -/
def string : Reader Unit := do
  match ← kind with
  | .string _ => advance
  | _ => failure

/-- A name in the list of what is imported or exported, and whether it is a string. A string has
a text if it is such a name. -/
def exchangeName : Reader (String × Bool) := do
  match ← kind with
  | .string text =>
    faultIf text.isNone
    advance
    return (text.getD "", true)
  | _ => return (← memberName, false)

/-- An attribute of what is asked for, and its name. -/
def importAttribute : Reader (Option String) := do
  let name ← match ← kind with
    | .string text => do
      advance
      pure text
    | _ => some <$> memberName
  expectSign ":"
  string
  return name

/-- The attributes of what is asked for, if there are any; no two have one name. -/
def importAttributes : Reader Unit := do
  if (← atWord "with") || ((← atWord "assert") && !(← newLine)) then
    advance
    let found ← bracketed "\x7b" "\x7d" importAttribute
    faultIf (found.items.eraseDups.length != found.items.length)

/-- Where something is imported from, up to the end of the statement. -/
def source : Reader Unit := do
  expectWord "from"
  string
  importAttributes
  endStatement

/-! ## Imports -/

/-- One of the names that are imported, perhaps under another one. -/
def importedName : Reader Unit := do
  let l ← lexeme
  let (name, _) ← exchangeName
  if ← eatWord "as" then
    let _ ← variableName
  else
    if !isVariable l then failure
    faultIf !(isFree name (← get).context)

/-- What is imported by name, or all of it under one name. -/
def importedNames : Reader Unit := do
  if ← eatSign "*" then
    expectWord "as"
    let _ ← variableName
  else
    let _ ← bracketed "\x7b" "\x7d" importedName

/-- Goes past the word that says when what is imported is run, if there is one. -/
def importPhase : Reader Unit := do
  let next ← following
  if ((← atWord "defer") && isStar next) ||
      ((← atWord "source") && isVariable next &&
        (!isWord "from" next || isWord "from" next.next)) then
    advance

/-- An import. -/
def importStatement : Reader Unit := do
  expectWord "import"
  match ← kind with
  | .string _ =>
    advance
    importAttributes
    endStatement
  | _ =>
    importPhase
    if isVariable (← lexeme) then
      let _ ← variableName
      if ← eatSign "," then importedNames
    else importedNames
    source

/-! ## Exports -/

/-- Adds to the names that the script exports. -/
def addExports (place : Place) (names : List String) : Reader Unit := do
  if place == .script then
    for name in names do
      faultIf ((← get).exports.contains name)
      modify fun s => { s with exports := name :: s.exports }

/-- The words that are names elsewhere, but not of what a script has. -/
def restrictedWords : List String :=
  ["await", "yield", "let", "static", "implements", "interface", "package", "private",
    "protected", "public"]

/-- One of the names that are exported, perhaps under another one, and whether the script itself
may have something of that name. -/
def exportedName : Reader (String × Bool) := do
  let (name, isString) ← exchangeName
  let isOwn := !isString && !reservedWords.contains name && !restrictedWords.contains name
  if ← eatWord "as" then
    let (other, _) ← exchangeName
    return (other, isOwn)
  else return (name, isOwn)

/-- What is exported by name, either of the script itself or of another one. -/
def exportedNames (place : Place) : Reader Unit := do
  let found ← bracketed "\x7b" "\x7d" exportedName
  addExports place (found.items.map (·.1))
  if ← atWord "from" then source
  else
    endStatement
    faultIf (found.items.any fun e => !e.2)

/-- All that another script exports, perhaps under one name. -/
def exportedAll (place : Place) : Reader Unit := do
  expectSign "*"
  if ← eatWord "as" then
    let (name, _) ← exchangeName
    addExports place [name]
  source

/-- What is exported without a name. -/
def exportedDefault (inner : Inner) (place : Place) : Reader Unit := do
  addExports place ["default"]
  if (← atWord "function") || (← atAsyncFunction) then
    let isAsync ← atAsyncFunction
    if isAsync then expectWord "async"
    expectWord "function"
    let _ ← functionDeclaration inner isAsync false
  else if (← atWord "class") || (← atSign "@") then
    let _ ← decorators inner
    expectWord "class"
    let _ ← classRest inner false
  else
    let _ ← settled (inner .expression)
    endStatement

/-- An export. -/
def exportStatement (inner : Inner) (place : Place) : Reader Unit := do
  expectWord "export"
  match ← kind with
  | .sign "*" => exportedAll place
  | .sign "\x7b" => exportedNames place
  | .sign "@" => addExports place (← classStatement inner place)
  | .name "default" _ =>
    expectWord "default"
    exportedDefault inner place
  | .name "class" _ => addExports place (← classStatement inner place)
  | .name "function" _ => addExports place (← functionStatement inner place)
  | .name "async" _ => addExports place (← functionStatement inner place)
  | .name word _ =>
    if ["var", "let", "const"].contains word then
      addExports place (← variableStatement inner place word)
    else failure
  | _ => failure

end RecordMapper.Program.Script.Reader
