import BatteryBench.Json.Value

/-!
# Records in JSON

A record is written as an object with one member per field. It is read from such an object, with the
members in any order and with any further members, or from the list of its field values in order.
A field that is missing is an error unless it has a default, and so is a field that is given twice.
A value of an enumeration is written as its name, and also read from an object whose one member has
that name and the value `null`.

Lists and objects come down to the same thing, the fields by name (`Json.fieldsOf?`): the values of
a list go to the fields from the first on. A list that is too long is an error; one that is too
short leaves fields missing.
-/

namespace BatteryBench

namespace Json

/-- The members of an object with their names, provided every name is a text. -/
def namedMembers? : List (Option Text × Json) → Option (List (Text × Json))
  | [] => some []
  | (some name, v) :: members => (namedMembers? members).map ((name, v) :: ·)
  | (none, _) :: _ => none

/-- The values of a record by name, from an object or from the list of the field values. -/
def fieldsOf? (names : List Text) : Json → Option (List (Text × Json))
  | object members => namedMembers? members
  | array vs => if vs.length ≤ names.length then some (names.zip vs) else none
  | _ => none

/-- The value of the field with a name: `absent` if there is none, and nothing if there are more. -/
def field? {α : Type} (fields : List (Text × Json)) (name : Text) (absent : Option α)
    (read : Json → Option α) : Option α :=
  match fields.filter fun f ↦ f.1 == name with
  | [] => absent
  | [f] => read f.2
  | _ => none

/-- A field that has to be there and is a text. -/
def textField? (fields : List (Text × Json)) (name : Text) : Option Text :=
  field? fields name none toText?

/-- A field that has to be there and is an integer of a width. -/
def integerField? (fields : List (Text × Json)) (name : Text) (w : Width) : Option Int :=
  field? fields name none (toInteger? w)

/-- The name that a value of an enumeration is written as. -/
def enumName? : Json → Option Text
  | string s => s
  | object [(name, null)] => name
  | _ => none

end Json

/-- A type whose values are kept as JSON. -/
class Stored (α : Type) where
  /-- The value as JSON. -/
  toJson : α → Json
  /-- The value that a JSON value is. -/
  ofJson? : Json → Option α

end BatteryBench
