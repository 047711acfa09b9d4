import BatteryBench.Json.Number
import BatteryBench.Number.Integer

/-!
# JSON values

A value as its text gives it: members in order and with repetitions, numbers as they are written.
Whether repetitions are allowed and which numbers fit is for the reader of a record to say
(`BatteryBench.Json.Record`).

JSON text can spell strings that no text is: a half of a surrogate pair, standing alone. Such a
string is held as `none`. It may stand where nobody looks, and has no value anywhere else.

`Json.isPlain` describes the values that a program can hold in memory as they are: every string is a
text, every number is finite (`JsonNumber.isFinite`), and the nesting stays below a limit.
-/

namespace BatteryBench

/-- A JSON value. -/
inductive Json where
  /-- The value `null`. -/
  | null
  /-- A truth value. -/
  | bool (b : Bool)
  /-- A number. -/
  | number (n : JsonNumber)
  /-- A string, if what is written is a text. -/
  | string (s : Option Text)
  /-- A list of values. -/
  | array (elements : List Json)
  /-- Members, each with its name if what is written is a text. -/
  | object (members : List (Option Text × Json))

namespace Json

mutual

/-- Whether a value can be held as it is, with at most `depth` lists and objects around each other.
-/
def isPlain (depth : Nat) : Json → Bool
  | null | bool _ => true
  | number n => n.isFinite
  | string s => s.isSome
  | array elements => match depth with
    | 0 => false
    | depth + 1 => elementsArePlain depth elements
  | object members => match depth with
    | 0 => false
    | depth + 1 => membersArePlain depth members

/-- Whether every value of a list can be held as it is. -/
def elementsArePlain (depth : Nat) : List Json → Bool
  | [] => true
  | v :: vs => isPlain depth v && elementsArePlain depth vs

/-- Whether every member can be held as it is. -/
def membersArePlain (depth : Nat) : List (Option Text × Json) → Bool
  | [] => true
  | (name, v) :: members => name.isSome && isPlain depth v && membersArePlain depth members

end

/-- The text a value is. -/
def toText? : Json → Option Text
  | string s => s
  | _ => none

/-- The integer of a width that a value is. -/
def toInteger? (w : Width) : Json → Option Int
  | number n => n.toInt?.filter w.contains
  | _ => none

/-- A text as a value. -/
def ofText (t : Text) : Json := string (some t)

/-- An integer as a value. -/
def ofInt (v : Int) : Json := number (.ofInt v)

/-- Members under names that are texts. -/
def ofMembers (members : List (Text × Json)) : Json :=
  object (members.map fun m ↦ (some m.1, m.2))

end Json

end BatteryBench
