import RecordMapper.Json.Reader

/-!
# Texts of a fixed form

A structure of named members may be written as an object, in any order and with other members
beside them, or as an array of their values in order. A member that is wanted is not to be given
twice. What other members hold need only be well formed.
-/

namespace RecordMapper.Json.Tree

/-- The member of a name; nothing if there is none, and no answer if there are several or a key
without a text. -/
def member? (name : String) : List (Option String × Tree) → Option (Option Tree)
  | [] => some none
  | (none, _) :: _ => none
  | (some key, t) :: rest =>
    if key = name then
      match member? name rest with
      | some none => some (some t)
      | _ => none
    else member? name rest

/-- The members of a structure, in the order of their names, each of them perhaps left out. -/
def fields? (names : List String) : Tree → Option (List (Option Tree))
  | .obj ms => names.mapM fun name => member? name ms
  | .arr ts =>
    if ts.length ≤ names.length then
      some (ts.map some ++ List.replicate (names.length - ts.length) none)
    else none
  | _ => none

/-- The text that a tree stands for. -/
def text? : Tree → Option String
  | .str s => s
  | _ => none

/-- The truth value that a tree stands for. -/
def truth? : Tree → Option Bool
  | .bool b => some b
  | _ => none

/-- The natural of at most 64 bits that a tree stands for. -/
def word? : Tree → Option UInt64
  | .num (some (.int n)) =>
    if 0 ≤ n ∧ n.toNat < UInt64.size then some (UInt64.ofNat n.toNat) else none
  | _ => none

/-- The items that a tree stands for. -/
def items? : Tree → Option (List Tree)
  | .arr ts => some ts
  | _ => none

/-- The name of one of several alternatives: a text, or the only key of an object that has null
under it. -/
def choice? : Tree → Option String
  | .str s => s
  | .obj [(key, .null)] => key
  | _ => none

/-- The value of a member that may be left out for a default. -/
def orDefault {α : Type} (default : α) (read : Tree → Option α) : Option Tree → Option α
  | none => some default
  | some t => read t

end RecordMapper.Json.Tree
