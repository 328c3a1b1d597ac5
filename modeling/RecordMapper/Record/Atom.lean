import RecordMapper.Json.Printer
import RecordMapper.Text.Blank

/-!
# Atoms and coercions

An atom is what a record can hold: a non-empty text, a normalized number or a truth value.
`atoms` takes a value apart: nothing for null and the empty text, the atoms of the items for an
array, its compact text for an object.
-/

namespace RecordMapper

/-- A scalar that a record can hold. -/
inductive Atom where
  | text (value : String)
  | number (value : Number)
  | truth (value : Bool)

namespace Atom

/-- An atom as a document value. -/
def toJson : Atom → Json
  | text s => .str s
  | number n => .num n
  | truth b => .bool b

/-- The text of a text atom. -/
def text? : Atom → Option String
  | text s => some s
  | _ => none

/-- Equality of atoms by kind and value. -/
def same : Atom → Atom → Bool
  | text s, text t => s == t
  | number m, number n => m.same n
  | truth a, truth b => a == b
  | _, _ => false

theorem same_refl (a : Atom) : a.same a = true := by
  cases a with
  | text s => simp [same]
  | number n => exact n.same_refl
  | truth b => simp [same]

end Atom

namespace Json

mutual

/-- The atoms that a value is made of. -/
def atoms : Json → List Atom
  | null => []
  | bool b => [.truth b]
  | num n => [.number n.normalize]
  | str s => if s.isEmpty then [] else [.text s]
  | arr items => atomsOfItems items
  | obj members => [.text (render (obj members))]

/-- The atoms of the items of an array, in order. -/
def atomsOfItems : List Json → List Atom
  | [] => []
  | j :: js => atoms j ++ atomsOfItems js

end

/-- Whether a value counts as true where a condition is asked for. -/
def isTruthy : Json → Bool
  | null => false
  | bool b => b
  | num n => !n.isZero
  | str s => !s.isEmpty
  | arr items => !items.isEmpty
  | obj members => !members.isEmpty

/-- The text of a value as an identifier: none for null, arrays and objects. -/
def identifier? : Json → Option String
  | str s => some s
  | num n => some n.normalize.render
  | bool b => some (if b then "true" else "false")
  | _ => none

/-- The texts that say nothing, in lower case. -/
def emptyishTexts : List String := ["", "null", "()", "[]", "\x7b\x7d"]

/-- Whether a value carries no usable information. -/
def isEmptyish : Json → Bool
  | null => true
  | arr items => items.isEmpty
  | obj members => members.isEmpty
  | str s => emptyishTexts.contains (Text.asciiLower (Text.trim s))
  | _ => false

end Json

end RecordMapper
