import BatteryBench.Json.Value

/-!
# Writing JSON

A value is written without blanks. In strings only the quote, the backslash and the control
characters are escaped, with a letter where there is one for them. Numbers are written as they were
read. A string that is no text cannot be written and stands as an empty one; `Json.isPlain` values
hold none.
-/

namespace BatteryBench

namespace Json

/-- A hexadecimal digit. -/
def hexDigit (n : Nat) : Char := Nat.digitChar (n % 16)

/-- What stands behind the backslash for a character that has a short escape. -/
def escapeLetter? : Char → Option Char
  | '"' => some '"'
  | '\\' => some '\\'
  | '\x08' => some 'b'
  | '\t' => some 't'
  | '\n' => some 'n'
  | '\x0c' => some 'f'
  | '\r' => some 'r'
  | _ => none

/-- A character inside a string literal. -/
def escapeChar (c : Char) : Text :=
  match escapeLetter? c with
  | some letter => ['\\', letter]
  | none =>
    if c.toNat < 0x20 then ['\\', 'u', '0', '0', hexDigit (c.toNat / 16), hexDigit c.toNat]
    else [c]

/-- A string literal. -/
def stringText (s : Text) : Text := '"' :: (s.flatMap escapeChar ++ ['"'])

/-- The digits after a point, with the point if there are any. -/
def fractionText (fraction : List Digit) : Text :=
  if fraction = [] then [] else '.' :: fraction.map fun d ↦ Nat.digitChar d.val

/-- A number. -/
def numberText : JsonNumber → Text
  | .integer negative magnitude => (if negative then ['-'] else []) ++ decimal magnitude
  | .scientific negative whole fraction exponent =>
    (if negative then ['-'] else []) ++ decimal whole ++ fractionText fraction ++
      'e' :: signedDecimal exponent

mutual

/-- The text of a value. -/
def text : Json → Text
  | null => "null"
  | bool true => "true"
  | bool false => "false"
  | number n => numberText n
  | string s => stringText (s.getD [])
  | array elements => '[' :: (elementsText elements ++ [']'])
  | object members => '\x7b' :: (membersText members ++ ['\x7d'])

/-- The texts of values, with commas between them. -/
def elementsText : List Json → Text
  | [] => []
  | [v] => text v
  | v :: vs => text v ++ ',' :: elementsText vs

/-- The texts of members, with commas between them. -/
def membersText : List (Option Text × Json) → Text
  | [] => []
  | [(name, v)] => stringText (name.getD []) ++ ':' :: text v
  | (name, v) :: members =>
    stringText (name.getD []) ++ ':' :: (text v ++ ',' :: membersText members)

end

end Json

end BatteryBench
