import RecordMapper.Program.Script.Function

/-!
# Arrays, objects and templates

Operands in brackets and templates. An array or object may turn out to be a target, so its shape
tells whether it may be one and whether it has to be.
-/

namespace RecordMapper.Program.Script.Reader

/-- Part of an array or object. -/
structure Part where
  /-- whether this may be part of a target -/
  isTarget : Bool
  /-- whether this is only read as part of a target -/
  mustBeTarget : Bool
  /-- whether this stands for several parts -/
  isSpread : Bool

/-- The shape of an array or object with some parts. In a target, only the last part takes all
that is left. -/
def literalShape (found : Items Part) : Shape :=
  let parts := found.items
  .literal
    (parts.all (·.isTarget) && !parts.dropLast.any (·.isSpread) &&
      !(found.trailingComma && parts.any (·.isSpread)))
    (parts.any (·.mustBeTarget))

/-- An expression in brackets that may be part of a target. -/
def partExpression (inner : Inner) : Reader Shape :=
  within ({ · with takesIn := true, decorates := false }) (inner .expression)

/-! ## Arrays -/

/-- Part of an array, which may be left out. -/
def arrayPart (inner : Inner) : Reader Part := do
  if ← atSign "," then return ⟨true, false, false⟩
  else if ← eatSign "..." then
    let shape ← partExpression inner
    return ⟨shape.isTarget, shape.mustBeTarget, true⟩
  else
    let shape ← partExpression inner
    return ⟨shape.isPartOfTarget, shape.mustBeTarget, false⟩

/-- An array in brackets. -/
def arrayLiteral (inner : Inner) : Reader Shape := do
  return literalShape (← bracketed "[" "]" (arrayPart inner))

/-! ## Objects -/

/-- A method of an object. -/
def objectMethod (inner : Inner) (k : MethodKind) (isAsync isGenerator : Bool) : Reader Part := do
  let _ ← publicKey inner
  method inner k isAsync isGenerator
  return ⟨false, false, false⟩

/-- Part of an object. A variable may stand for the member of its name, and a value to fall back
to stands only in targets. -/
def objectPart (inner : Inner) : Reader Part := do
  if ← eatSign "..." then
    let shape ← partExpression inner
    return ⟨shape.isSimpleTarget, shape.mustBeTarget, true⟩
  else if ← atModifier "async" true true then
    let _ ← eatWord "async"
    objectMethod inner .plain true (← eatSign "*")
  else if ← atModifier "get" false false then
    let _ ← eatWord "get"
    objectMethod inner .getter false false
  else if ← atModifier "set" false false then
    let _ ← eatWord "set"
    objectMethod inner .setter false false
  else if ← eatSign "*" then objectMethod inner .plain false true
  else
    let mayBeShort := isVariable (← lexeme)
    let key ← publicKey inner
    if ← atSign "(" then
      method inner .plain false false
      return ⟨false, false, false⟩
    match mayBeShort && !(← atSign ":"), key with
    | true, .name text =>
      if !isFree text (← get).context then failure
      let hasFallback ← atSign "="
      fallback inner
      return ⟨true, hasFallback, false⟩
    | _, _ =>
      expectSign ":"
      let shape ← partExpression inner
      return ⟨shape.isPartOfTarget, shape.mustBeTarget, false⟩

/-- An object in braces. -/
def objectLiteral (inner : Inner) : Reader Shape := do
  return literalShape (← bracketed "\x7b" "\x7d" (objectPart inner))

/-! ## Templates and arguments -/

/-- A template. If a function is called with it, its escapes need not be well formed. -/
def template (inner : Inner) (isCalled : Bool) : Reader Unit :=
  steps (fun _ => do
    match ← kind with
    | .template isLast isValid =>
      faultIf (!isCalled && !isValid)
      advance
      if isLast then return .inr ()
      whole inner
      match (← lexeme).asTemplate? with
      | some piece =>
        retake piece
        return .inl ()
      | none => failure
    | _ => failure) ()

/-- An argument of a call. -/
def argument (inner : Inner) : Reader Unit := do
  let _ ← eatSign "..."
  element inner

/-- The arguments of a call. -/
def arguments (inner : Inner) : Reader Unit :=
  within ({ · with decorates := false }) do
    let _ ← bracketed "(" ")" (argument inner)

end RecordMapper.Program.Script.Reader
