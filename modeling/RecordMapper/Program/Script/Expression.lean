import RecordMapper.Program.Script.Class

/-!
# Expressions

Operands, chains of members and calls, operators by how tightly they bind, and assignments. What
stands before an equals sign is read as an operand first and has to be a target.
-/

namespace RecordMapper.Program.Script.Reader

/-! ## Operands -/

/-- An expression in parentheses. -/
def group (inner : Inner) : Reader Shape := do
  let found ← bracketed "(" ")" (partExpression inner)
  faultIf (found.items.any Shape.mustBeTarget)
  if found.trailingComma then failure
  match found.items with
  | [] => failure
  | [shape] => return .group shape.isSimpleTarget
  | _ => return .group false

/-- The arguments of `import`. -/
def request (inner : Inner) : Reader Shape := do
  expectSign "("
  within ({ · with decorates := false }) do
    element inner
    if ← eatSign "," then
      if !(← atSign ")") then
        element inner
        let _ ← eatSign ","
  expectSign ")"
  return .request

/-- An operand behind the word `import`. -/
def importOperand (inner : Inner) : Reader Shape := do
  if ← eatSign "." then
    if ← eatWord "meta" then return .other
    else if ← eatWord "source" then request inner
    else if ← eatWord "defer" then request inner
    else failure
  else request inner

/-- An operand behind the word `new`. -/
def newOperand (inner : Inner) : Reader Shape := do
  if ← eatSign "." then
    expectWord "target"
    return .other
  else
    let callee ← settled (inner .callee)
    faultIf (callee == .request)
    if ← atSign "(" then arguments inner
    return .other

/-- An operand behind the word `super`: a member of it, or a call. -/
def superOperand : Reader Shape := do
  faultIf !((← atSign ".") || (← atSign "[") || (← atSign "("))
  return .other

/-- An operand that starts with a word. -/
def wordOperand (inner : Inner) (word : String) : Reader Shape := do
  match word with
  | "function" =>
    expectWord word
    functionOperand inner false
    return .other
  | "class" =>
    expectWord word
    let _ ← classRest inner false
    return .other
  | "new" =>
    expectWord word
    newOperand inner
  | "super" =>
    expectWord word
    superOperand
  | "import" =>
    expectWord word
    importOperand inner
  | _ =>
    if ["this", "null", "true", "false"].contains word then
      expectWord word
      return .other
    else if ← atAsyncFunction then
      expectWord "async"
      expectWord "function"
      functionOperand inner true
      return .other
    else return .variable (← variableName)

/-- An operand without signs, members and calls. -/
def primary (inner : Inner) : Reader Shape := do
  match ← kind with
  | .name word _ => wordOperand inner word
  | .number =>
    advance
    return .other
  | .string _ =>
    advance
    return .other
  | .template _ _ =>
    template inner false
    return .other
  | .sign "(" => group inner
  | .sign "[" => arrayLiteral inner
  | .sign "\x7b" => objectLiteral inner
  | .sign "@" =>
    let _ ← decorators inner
    expectWord "class"
    let _ ← classRest inner false
    return .other
  | _ =>
    match (← lexeme).asPattern? with
    | some pattern =>
      retake pattern
      advance
      return .other
    | none => failure

/-! ## Chains -/

/-- How far a chain of members and calls is read. -/
structure Link where
  shape : Shape
  /-- whether a part of the chain is left out if there is nothing before it -/
  isOptional : Bool

/-- A member behind its point. -/
def member : Reader Unit := do
  match ← kind with
  | .privateName _ => advance
  | _ =>
    let _ ← memberName

/-- A member in brackets. -/
def computedMember (inner : Inner) : Reader Unit := do
  expectSign "["
  whole inner
  expectSign "]"

/-- The part of a chain behind a question mark and a point. -/
def optionalLink (inner : Inner) : Reader Link := do
  match ← kind with
  | .sign "(" =>
    arguments inner
    return ⟨.other, true⟩
  | .sign "[" =>
    computedMember inner
    return ⟨.member, true⟩
  | _ =>
    member
    return ⟨.member, true⟩

/-- One more part of a chain, or its shape at its end. What is called with `new` is neither a
call itself nor left out. -/
def link (inner : Inner) (isCallee : Bool) (before : Link) : Reader (Link ⊕ Shape) := do
  let goOn := fun (r : Reader Link) => do
    faultIf before.shape.mustBeTarget
    return .inl (← r)
  let stop := .inr (if before.isOptional then .other else before.shape)
  match ← kind with
  | .sign "." => goOn do
    advance
    member
    return ⟨.member, before.isOptional⟩
  | .sign "?." => if isCallee then failure else goOn do
    advance
    optionalLink inner
  | .sign "[" => if (← get).context.decorates then return stop else goOn do
    computedMember inner
    return ⟨.member, before.isOptional⟩
  | .sign "(" => if isCallee then return stop else goOn do
    arguments inner
    return ⟨.other, before.isOptional⟩
  | .template _ _ => goOn do
    faultIf before.isOptional
    template inner true
    return ⟨.other, before.isOptional⟩
  | _ => return stop

/-- A chain of members and calls. -/
def chain (inner : Inner) : Reader Shape := do
  steps (link inner false) ⟨← primary inner, false⟩

/-- A chain of members that is called with `new`. -/
def callee (inner : Inner) : Reader Shape := do
  steps (link inner true) ⟨← primary inner, false⟩

/-! ## Operators -/

/-- Words before an operand. -/
def unaryWords : List String := ["typeof", "void", "delete"]

/-- Signs before an operand. -/
def unarySigns : List String := ["+", "-", "!", "~"]

/-- Signs that change a variable or member by one. -/
def stepSigns : List String := ["++", "--"]

/-- Whether one of some signs is due. -/
def atAnySign (signs : List String) : Reader Bool := do
  match ← kind with
  | .sign sign => return signs.contains sign
  | _ => return false

/-- Whether one of some words is due. -/
def atAnyWord (words : List String) : Reader Bool := do
  match ← kind with
  | .name text _ => return words.contains text
  | _ => return false

/-- Goes past a word or sign that means something. -/
def eatOperator : Reader Unit := do
  match ← kind with
  | .name text _ => expectWord text
  | _ => advance

/-- An operand with the signs and words before it. -/
def unary (inner : Inner) : Reader Shape := do
  if (← atAnySign unarySigns) || (← atAnyWord unaryWords) ||
      ((← atWord "await") && (← get).context.awaits) then
    eatOperator
    let _ ← settled (inner .unary)
    return .signed
  else if ← atAnySign stepSigns then
    advance
    if !(← inner .unary).isSimpleTarget then failure
    return .other
  else
    let shape ← chain inner
    if (← atAnySign stepSigns) && !(← newLine) then
      if !shape.isSimpleTarget then failure
      advance
      return .other
    else return shape

/-- How tightly the signs between operands bind. -/
def levels : List (List String) :=
  [["??"], ["||"], ["&&"], ["|"], ["^"], ["&"], ["==", "!=", "===", "!=="],
    ["<", ">", "<=", ">=", "in", "instanceof"], ["<<", ">>", ">>>"], ["+", "-"], ["*", "/", "%"],
    ["**"]]

/-- The level of comparisons. -/
def comparisonLevel : Nat := 8

/-- The level of powers, the one that groups to the right. -/
def powerLevel : Nat := 12

/-- The sign or word between operands that is due, and its level. -/
def operator? : Reader (Option (String × Nat)) := do
  let text ← match ← kind with
    | .sign sign => pure sign
    | .name "in" _ => pure (if (← get).context.takesIn then "in" else "")
    | .name "instanceof" _ => pure "instanceof"
    | _ => pure ""
  return (levels.findIdx? (·.contains text)).map fun i => (text, i + 1)

/-- The shape of two operands with an operator between them. The operator `??` does not stand
beside the two other logical ones without parentheses, nor a sign before the base of a power. -/
def combined (operator : String) (left right : Shape) : Reader Shape := do
  faultIf (operator == "??" && (left == .logical false || right == .logical false))
  faultIf (operator == "**" && left == .signed)
  return if ["||", "&&", "??"].contains operator then .logical (operator == "??") else .other

/-- One more operator with its right operand, or the shape at the end. -/
def operation (inner : Inner) (level : Nat) (left : Shape) : Reader (Shape ⊕ Shape) := do
  match ← operator? with
  | none => return .inr left
  | some (operator, n) =>
    if if n == powerLevel then n < level else n ≤ level then return .inr left
    faultIf left.mustBeTarget
    eatOperator
    let right ← settled (inner (.operand n))
    return .inl (← combined operator left right)

/-- Operands with operators between them that bind more tightly than a level. A private name may
be asked for in an object. -/
def operand (inner : Inner) (level : Nat) : Reader Shape := do
  let left ← match ← kind with
    | .privateName _ =>
      if comparisonLevel ≤ level || !(← get).context.takesIn then failure
      advance
      expectWord "in"
      let _ ← settled (inner (.operand comparisonLevel))
      pure .other
    | _ => unary inner
  steps (operation inner level) left

/-! ## Assignments -/

/-- Signs that change what precedes them. -/
def updateSigns : List String :=
  [">>>=", "**=", "<<=", ">>=", "&&=", "||=", "??=", "+=", "-=", "*=", "/=", "%=", "&=", "|=", "^="]

/-- Whether what a generator yields is left out. -/
def isBareYield : Reader Bool := do
  if ← newLine then return true
  match ← kind with
  | .sign sign => return [";", "\x7d", ")", "]", ":", ","].contains sign
  | .name text _ => return text == "in"
  | .finish => return true
  | _ => return false

/-- What a generator yields. -/
def yieldOperand (inner : Inner) : Reader Shape := do
  expectWord "yield"
  let isList ← if ← newLine then pure false else eatSign "*"
  if isList || !(← isBareYield) then
    let _ ← settled (inner .expression)
  return .other

/-- An expression without a comma, from its first operands on. -/
def expressionRest (inner : Inner) (shape : Shape) : Reader Shape := do
  match ← kind, shape with
  | .sign "=>", .variable _ =>
    arrow
    arrowBody inner false
    return .other
  | .sign "=", _ =>
    if !shape.isTarget then failure
    advance
    let _ ← settled (inner .expression)
    return .assignment true
  | .sign "?", _ =>
    faultIf shape.mustBeTarget
    advance
    element inner
    expectSign ":"
    let _ ← settled (inner .expression)
    return .other
  | _, _ =>
    if ← atAnySign updateSigns then
      if !shape.isSimpleTarget then failure
      advance
      let _ ← settled (inner .expression)
      return .assignment false
    else return shape

/-- An expression without a comma. -/
def expression (inner : Inner) : Reader Shape := do
  if (← atWord "yield") && (← get).context.yields then yieldOperand inner
  else if ← arrowFunction? inner then return .other
  else expressionRest inner (← operand inner 0)

end RecordMapper.Program.Script.Reader
