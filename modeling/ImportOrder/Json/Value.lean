/-!
# JSON values

## Main definitions

- `Json`
- `Json.get?`: a member of an object
-/

namespace ImportOrder

/-- A JSON value. Of a number only its being one is kept. -/
inductive Json where
  /-- The null value. -/
  | null
  /-- A truth value. -/
  | bool (value : Bool)
  /-- A number. -/
  | number
  /-- A string. -/
  | string (value : String)
  /-- An array. -/
  | array (elements : List Json)
  /-- An object with its members in the order written. -/
  | object (members : List (String × Json))
deriving Repr, Inhabited

namespace Json

/-- The member of an object with the given key; of several the last counts. Other values have no
members. -/
def get? (json : Json) (key : String) : Option Json :=
  match json with
  | object members => (members.reverse.find? (·.1 = key)).map (·.2)
  | _ => none

/-- The name of the kind of value; null and arrays count as objects. -/
def typeName : Json → String
  | bool _ => "boolean"
  | number => "number"
  | string _ => "string"
  | null | array _ | object _ => "object"

end Json

end ImportOrder
