import RecordMapper.Number.Basic

/-!
# Document values

Objects keep their members in the order in which they were written, with one member a key.
-/

namespace RecordMapper

/-- A document: a JSON value. -/
inductive Json where
  | null
  | bool (value : Bool)
  | num (value : Number)
  | str (value : String)
  | arr (items : List Json)
  | obj (members : List (String × Json))

namespace Json

instance : Inhabited Json := ⟨null⟩

/-- The name of the kind of a value, as error texts give it. -/
def typeName : Json → String
  | null => "null"
  | bool _ => "boolean"
  | num _ => "number"
  | str _ => "string"
  | arr _ => "array"
  | obj _ => "object"

/-- The member of an object under a key; none for any other value. -/
def get? (key : String) : Json → Option Json
  | obj members => members.lookup key
  | _ => none

end Json

/-- The members with one value put under a key: at the key's place if there is one, at the end
otherwise. -/
def putMember {α : Type} (key : String) (value : α) : List (String × α) → List (String × α)
  | [] => [(key, value)]
  | (k, v) :: rest =>
    if k = key then (k, value) :: rest else (k, v) :: putMember key value rest

section

variable {α : Type}

theorem lookup_putMember_self (key : String) (value : α) (ms : List (String × α)) :
    (putMember key value ms).lookup key = some value := by
  induction ms with
  | nil => simp [putMember]
  | cons m rest ih =>
    obtain ⟨k, v⟩ := m
    by_cases h : k = key
    · simp [putMember, h]
    · have h' : (key == k) = false := by simpa using Ne.symm h
      simp [putMember, h, List.lookup_cons, h', ih]

theorem lookup_putMember_of_ne {key k : String} (h : k ≠ key) (value : α)
    (ms : List (String × α)) : (putMember key value ms).lookup k = ms.lookup k := by
  induction ms with
  | nil =>
    have h' : (k == key) = false := by simpa using h
    simp [putMember, List.lookup_cons, h']
  | cons m rest ih =>
    obtain ⟨k', v⟩ := m
    by_cases hk : k' = key
    · have h' : (k == key) = false := by simpa using h
      simp [putMember, hk, List.lookup_cons, h']
    · simp only [putMember, if_neg hk, List.lookup_cons, ih]

theorem keys_putMember (key : String) (value : α) (ms : List (String × α)) :
    (putMember key value ms).map (·.1) =
      if key ∈ ms.map (·.1) then ms.map (·.1) else ms.map (·.1) ++ [key] := by
  induction ms with
  | nil => simp [putMember]
  | cons m rest ih =>
    obtain ⟨k, v⟩ := m
    by_cases h : k = key
    · simp [putMember, h]
    · simp only [putMember, if_neg h, List.map_cons, ih, List.mem_cons, Ne.symm h, false_or]
      split <;> rfl

end

end RecordMapper
