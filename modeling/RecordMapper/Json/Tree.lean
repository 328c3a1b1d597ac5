import RecordMapper.Json.Token

/-!
# Well-formed document texts

A `Tree` is what a well-formed text says, before anything is asked of it: members with one key
may be repeated, strings may lack a text and numbers a value. It is built from the tokens in
one pass, with the arrays and objects that are still open on a stack.
-/

namespace RecordMapper.Json

/-- A well-formed text. -/
inductive Tree where
  | null
  | bool (value : Bool)
  | num (value : Option Number)
  | str (text : Option String)
  | arr (items : List Tree)
  | obj (members : List (Option String × Tree))

namespace Tree

/-- An array or object that is still open: what it holds so far, in reverse, and for an object
perhaps the key of the member that is being read. -/
inductive Frame where
  | items (done : List Tree)
  | members (done : List (Option String × Tree))
  | member (done : List (Option String × Tree)) (key : Option String)

/-- What may come next. -/
inductive Mode where
  /-- a value -/
  | value
  /-- a value, or the end of an array that holds nothing yet -/
  | firstItem
  /-- a key -/
  | key
  /-- a key, or the end of an object that holds nothing yet -/
  | firstKey
  /-- the colon after a key -/
  | colon
  /-- a comma or the end of what is open -/
  | after
  /-- nothing: the text is complete -/
  | done (tree : Tree)

/-- The place reached in a text: the open arrays and objects, the innermost first. -/
structure State where
  stack : List Frame
  mode : Mode

/-- The state once a value is complete: it goes into the innermost open array or object. -/
def complete (t : Tree) : List Frame → Option State
  | [] => some ⟨[], .done t⟩
  | .items done :: rest => some ⟨.items (t :: done) :: rest, .after⟩
  | .member done key :: rest => some ⟨.members ((key, t) :: done) :: rest, .after⟩
  | .members _ :: _ => none

/-- The state after a token at a place where a value may stand. -/
def stepValue (stack : List Frame) : Token → Option State
  | .null => complete null stack
  | .bool b => complete (bool b) stack
  | .num n => complete (num n) stack
  | .str s => complete (str s) stack
  | .openArray => some ⟨.items [] :: stack, .firstItem⟩
  | .openObject => some ⟨.members [] :: stack, .firstKey⟩
  | _ => none

/-- The state after one more token, none if it may not stand there. -/
def step : State → Token → Option State
  | ⟨stack, .value⟩, t => stepValue stack t
  | ⟨.items [] :: stack, .firstItem⟩, .closeArray => complete (arr []) stack
  | ⟨stack, .firstItem⟩, t => stepValue stack t
  | ⟨.members [] :: stack, .firstKey⟩, .closeObject => complete (obj []) stack
  | ⟨.members done :: stack, .firstKey⟩, .str key => some ⟨.member done key :: stack, .colon⟩
  | ⟨.members done :: stack, .key⟩, .str key => some ⟨.member done key :: stack, .colon⟩
  | ⟨stack, .colon⟩, .colon => some ⟨stack, .value⟩
  | ⟨.items done :: stack, .after⟩, .comma => some ⟨.items done :: stack, .value⟩
  | ⟨.items done :: stack, .after⟩, .closeArray => complete (arr done.reverse) stack
  | ⟨.members done :: stack, .after⟩, .comma => some ⟨.members done :: stack, .key⟩
  | ⟨.members done :: stack, .after⟩, .closeObject => complete (obj done.reverse) stack
  | _, _ => none

/-- The tree that tokens make up from a state on. -/
def ofTokensFrom : State → List Token → Option Tree
  | ⟨_, .done t⟩, [] => some t
  | _, [] => none
  | s, t :: ts =>
    match step s t with
    | some s => ofTokensFrom s ts
    | none => none

/-- The tree of a text, none if the text is not well formed. -/
def read? (s : String) : Option Tree := do
  let tokens ← Token.scan s
  ofTokensFrom ⟨[], .value⟩ tokens

end Tree

end RecordMapper.Json
