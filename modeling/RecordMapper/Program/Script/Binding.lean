import RecordMapper.Program.Script.Phrase

/-!
# Bindings and parameters

What declarations and parameters bind: a variable, or an array or object in brackets with more of
them inside. Keys of members stand here too, since bindings, objects and classes share them.
-/

namespace RecordMapper.Program.Script.Reader

/-! ## Keys -/

/-- The key of a member. -/
inductive Key where
  | name (text : String)
  | string (text : Option String)
  | privateName (text : String)
  | number
  | computed

namespace Key

/-- The text of a key that is known from the script alone. -/
def text? : Key → Option String
  | .name text => some text
  | .string text => text
  | _ => none

end Key

/-- Whether a key starts with a lexeme. -/
def startsKey (l : Lexeme) : Bool :=
  match l.kind with
  | .name _ _ => true
  | .privateName _ => true
  | .string _ => true
  | .number => true
  | .sign sign => sign == "["
  | _ => false

/-- Whether a lexeme is a star. -/
def isStar (l : Lexeme) : Bool := l.kind == .sign "*"

/-- The key of a member. -/
def key (inner : Inner) : Reader Key := do
  match ← kind with
  | .name text _ =>
    advance
    return .name text
  | .string text =>
    advance
    return .string text
  | .privateName text =>
    advance
    return .privateName text
  | .number =>
    advance
    return .number
  | .sign "[" =>
    advance
    element inner
    expectSign "]"
    return .computed
  | _ => failure

/-- The key of a member that is not private. -/
def publicKey (inner : Inner) : Reader Key := do
  match ← key inner with
  | .privateName _ => failure
  | key => return key

/-! ## Bindings -/

/-- Part of what is bound in brackets. -/
structure BindingPart where
  names : List String
  /-- whether this is bound to all that is left -/
  isRest : Bool

/-- A value to fall back to, if there is one. -/
def fallback (inner : Inner) : Reader Unit := do
  if ← eatSign "=" then element inner

/-- A binding with a value to fall back to, if there is one. -/
def bindingWithFallback (inner : Inner) : Reader BindingPart := do
  let bound ← inner .binding
  fallback inner
  return ⟨bound.names, false⟩

/-- Notes a fault if anything stands behind the part that is bound to all that is left. -/
def restIsLast (found : Items BindingPart) : Reader (List String) := do
  let parts := found.items
  faultIf (parts.dropLast.any (·.isRest) || (found.trailingComma && parts.any (·.isRest)))
  return parts.flatMap (·.names)

/-- Part of what is bound in an array. -/
def arrayBindingPart (inner : Inner) : Reader BindingPart := do
  if ← atSign "," then return ⟨[], false⟩
  else if ← eatSign "..." then return ⟨(← inner .binding).names, true⟩
  else bindingWithFallback inner

/-- Part of what is bound in an object. A variable may stand for the member of its name. -/
def objectBindingPart (inner : Inner) : Reader BindingPart := do
  if ← eatSign "..." then return ⟨[← variableName], true⟩
  let mayBeShort := isVariable (← lexeme)
  let key ← publicKey inner
  match mayBeShort && !(← atSign ":"), key with
  | true, .name text =>
    fallback inner
    return ⟨[text], false⟩
  | _, _ =>
    expectSign ":"
    bindingWithFallback inner

/-- What is bound by a declaration or a parameter. -/
def binding (inner : Inner) : Reader Shape := do
  match ← kind with
  | .sign "\x7b" =>
    return .binding (← restIsLast (← bracketed "\x7b" "\x7d" (objectBindingPart inner)))
  | .sign "[" => return .binding (← restIsLast (← bracketed "[" "]" (arrayBindingPart inner)))
  | _ => return .binding [← variableName]

/-! ## Parameters -/

/-- What matters of parameters. -/
structure Parameters where
  count : Nat
  hasRest : Bool

/-- A parameter. -/
def parameter (inner : Inner) : Reader BindingPart := do
  if ← eatSign "..." then return ⟨(← inner .binding).names, true⟩
  else bindingWithFallback inner

/-- Parameters in parentheses. -/
def parameters (inner : Inner) : Reader Parameters := do
  let found ← bracketed "(" ")" (parameter inner)
  let _ ← restIsLast found
  return ⟨found.items.length, found.items.any (·.isRest)⟩

end RecordMapper.Program.Script.Reader
