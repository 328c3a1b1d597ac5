import RecordMapper.Program.Script.Composite

/-!
# Classes

Classes with their methods, fields and blocks that run once, and decorators before them. A class
has at most plain methods of the name `constructor`, and what it has of its own is not called
`prototype`.
-/

namespace RecordMapper.Program.Script.Reader

/-- Decorators, as many as there are; tells whether there are any. -/
def decorators (inner : Inner) : Reader Bool := do
  let found ← atSign "@"
  whileTrue (eatSign "@") do
    let _ ← within ({ · with decorates := true }) (settled (inner .chain))
  return found

/-- Whether a key is the private name that no class may have. -/
def isPrivateConstructor : Key → Bool
  | .privateName text => text == "constructor"
  | _ => false

/-- A method of a class behind its key. -/
def classMethod (inner : Inner) (isStatic : Bool) (k : MethodKind) (isAsync isGenerator : Bool)
    (key : Key) : Reader Unit := do
  let isPlain := match k with
    | .plain => !isAsync && !isGenerator
    | _ => false
  faultIf (isPrivateConstructor key ||
    (if isStatic then key.text? == some "prototype"
     else key.text? == some "constructor" && !isPlain))
  method inner k isAsync isGenerator

/-- A field of a class behind its key. -/
def classField (inner : Inner) (isStatic : Bool) (key : Key) : Reader Unit := do
  faultIf (isPrivateConstructor key || key.text? == some "constructor" ||
    (isStatic && key.text? == some "prototype"))
  if ← eatSign "=" then
    let _ ← within ({ · with takesIn := true, awaits := false, yields := false })
      (settled (inner .expression))
  endStatement

/-- A field or a method of a class. -/
def fieldOrMethod (inner : Inner) (isStatic : Bool) : Reader Unit := do
  let key ← key inner
  if ← atSign "(" then classMethod inner isStatic .plain false false key
  else classField inner isStatic key

/-- A member of a class behind the word that makes it the class's own, if there is one. -/
def classMember (inner : Inner) (isStatic : Bool) : Reader Unit := do
  if ← atModifier "async" true true then
    let _ ← eatWord "async"
    let isGenerator ← eatSign "*"
    classMethod inner isStatic .plain true isGenerator (← key inner)
  else if ← atModifier "get" false false then
    let _ ← eatWord "get"
    classMethod inner isStatic .getter false false (← key inner)
  else if ← atModifier "set" false false then
    let _ ← eatWord "set"
    classMethod inner isStatic .setter false false (← key inner)
  else if ← atModifier "accessor" false true then
    let _ ← eatWord "accessor"
    classField inner isStatic (← key inner)
  else if ← eatSign "*" then classMethod inner isStatic .plain false true (← key inner)
  else fieldOrMethod inner isStatic

/-- Whether what follows belongs to the class itself. -/
def atStatic : Reader Bool := do
  if !(← atWord "static") then return false
  let next ← following
  return startsKey next || isStar next || next.kind == .sign "\x7b"

/-- A part of a class. -/
def classPart (inner : Inner) : Reader Unit := do
  if ← eatSign ";" then return
  let _ ← decorators inner
  if ← atStatic then
    let _ ← eatWord "static"
    if ← atSign "\x7b" then
      within ({ · with takesIn := true, awaits := true, yields := false, returns := false })
        (block inner)
    else classMember inner true
  else classMember inner false

/-- The class that another one extends, and the body of the class. -/
def classBody (inner : Inner) : Reader Unit := do
  if ← eatWord "extends" then
    let _ ← settled (inner .chain)
  expectSign "\x7b"
  whileTrue (return !(← atSign "\x7d")) (classPart inner)
  expectSign "\x7d"

/-- A class behind its first word, and its name if it has one. -/
def classRest (inner : Inner) (isNamed : Bool) : Reader (List String) := do
  let l ← lexeme
  let names ← if isVariable l && !isWord "implements" l then pure [← variableName] else pure []
  faultIf (isNamed && names.isEmpty)
  classBody inner
  return names

end RecordMapper.Program.Script.Reader
