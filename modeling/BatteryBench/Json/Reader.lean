import BatteryBench.Json.Value

/-!
# Reading JSON

A reader for exactly the grammar of JSON text: four blanks, no comments, no trailing commas, no
leading zeros, no control characters inside strings. It reads a whole text or nothing.

Strings are read in two steps. The first takes the characters and escapes up to the closing quote
(`stringUnits?`); the second joins escaped surrogate pairs (`joinUnits?`) and finds out whether a
half is left over.

Values nest, and the depth of the nesting is bounded by the length of the text, which serves as the
bound of the recursion (`ofText?`).
-/

namespace BatteryBench

namespace Json

/-! ### Blanks -/

/-- The characters that may stand between the parts of a value. -/
def isBlank (c : Char) : Bool := c == ' ' || c == '\n' || c == '\t' || c == '\r'

/-- The text after the blanks it starts with. -/
def skipBlanks (t : Text) : Text := t.dropWhile isBlank

/-! ### Strings -/

/-- A part of a string literal. -/
inductive StringUnit where
  /-- A character that stands for itself or has a short escape. -/
  | char (c : Char)
  /-- Four hexadecimal digits after `\u`. -/
  | escaped (n : Nat)
  deriving DecidableEq

/-- The character that a short escape stands for. -/
def shortEscape? : Char → Option Char
  | '"' => some '"'
  | '\\' => some '\\'
  | '/' => some '/'
  | 'b' => some '\x08'
  | 'f' => some '\x0c'
  | 'n' => some '\n'
  | 'r' => some '\r'
  | 't' => some '\t'
  | _ => none

/-- The number that four hexadecimal digits write. -/
def fourDigits? (a b c d : Char) : Option Nat := natural? 16 [a, b, c, d]

/-- The parts of a string literal up to the closing quote, and the text after it. -/
def stringUnits? : Text → Option (List StringUnit × Text)
  | [] => none
  | '"' :: rest => some ([], rest)
  | '\\' :: 'u' :: a :: b :: c :: d :: rest =>
    match fourDigits? a b c d with
    | some n => (stringUnits? rest).map fun r ↦ (.escaped n :: r.1, r.2)
    | none => none
  | '\\' :: c :: rest =>
    match shortEscape? c with
    | some e => (stringUnits? rest).map fun r ↦ (.char e :: r.1, r.2)
    | none => none
  | c :: rest =>
    if c.toNat < 0x20 ∨ c = '\\' then none
    else (stringUnits? rest).map fun r ↦ (.char c :: r.1, r.2)

/-- Whether a number is the first half of a surrogate pair. -/
def isHighHalf (n : Nat) : Bool := decide (0xd800 ≤ n ∧ n ≤ 0xdbff)

/-- Whether a number is the second half of a surrogate pair. -/
def isLowHalf (n : Nat) : Bool := decide (0xdc00 ≤ n ∧ n ≤ 0xdfff)

/-- The text that the parts of a string literal spell; none if a half of a pair stands alone. -/
def joinUnits? : List StringUnit → Option Text
  | [] => some []
  | .char c :: rest => (joinUnits? rest).map (c :: ·)
  | .escaped n :: .escaped m :: rest =>
    if isHighHalf n && isLowHalf m then
      (joinUnits? rest).map (Char.ofNat (0x10000 + (n - 0xd800) * 0x400 + (m - 0xdc00)) :: ·)
    else if isHighHalf n || isLowHalf n then none
    else (joinUnits? (.escaped m :: rest)).map (Char.ofNat n :: ·)
  | .escaped n :: rest =>
    if isHighHalf n || isLowHalf n then none
    else (joinUnits? rest).map (Char.ofNat n :: ·)

/-- The string whose literal goes on with a text after its opening quote, and what follows it. -/
def takeString? (t : Text) : Option (Option Text × Text) :=
  (stringUnits? t).map fun r ↦ (joinUnits? r.1, r.2)

/-! ### Numbers -/

/-- The digits a text starts with, at least one of them, and what follows. -/
def takeDigits? (t : Text) : Option (Text × Text) :=
  let digits := t.takeWhile Char.isDigit
  if digits = [] then none else some (digits, t.dropWhile Char.isDigit)

/-- The digits before the point, without a leading zero. -/
def takeWhole? (t : Text) : Option (Text × Text) :=
  match takeDigits? t with
  | some (digits, rest) =>
    if digits.head? = some '0' ∧ digits.length ≠ 1 then none else some (digits, rest)
  | none => none

/-- The digits after a point, if there is one; then there has to be at least one digit. -/
def takeFraction? (t : Text) : Option (Option (List Digit) × Text) :=
  match t with
  | '.' :: rest => (takeDigits? rest).map fun r ↦ (some (r.1.map digitOfChar), r.2)
  | _ => some (none, t)

/-- The exponent, if there is one. -/
def takeExponent? (t : Text) : Option (Option Int × Text) :=
  match t with
  | mark :: rest =>
    if mark = 'e' ∨ mark = 'E' then
      let (negative, digits) : Bool × Text := match rest with
        | '-' :: digits => (true, digits)
        | '+' :: digits => (false, digits)
        | digits => (false, digits)
      (takeDigits? digits).map fun r ↦
        let n : Int := Nat.ofDigitChars 10 r.1 0
        (some (if negative then -n else n), r.2)
    else some (none, t)
  | [] => some (none, t)

/-- The number a text starts with after its sign, and what follows. -/
def takeMagnitude? (negative : Bool) (t : Text) : Option (JsonNumber × Text) := do
  let (whole, t) ← takeWhole? t
  let (fraction, t) ← takeFraction? t
  let (exponent, t) ← takeExponent? t
  let whole := Nat.ofDigitChars 10 whole 0
  match fraction, exponent with
  | none, none => return (.integer negative whole, t)
  | _, _ => return (.scientific negative whole (fraction.getD []) (exponent.getD 0), t)

/-- The number a text starts with, and what follows. -/
def takeNumber? : Text → Option (JsonNumber × Text)
  | '-' :: rest => takeMagnitude? true rest
  | t => takeMagnitude? false t

/-! ### Values -/

mutual

/-- The value a text starts with, and what follows; `fuel` bounds the nesting. -/
def takeValue? : (fuel : Nat) → Text → Option (Json × Text)
  | 0, _ => none
  | fuel + 1, t =>
    match skipBlanks t with
    | 'n' :: 'u' :: 'l' :: 'l' :: rest => some (null, rest)
    | 't' :: 'r' :: 'u' :: 'e' :: rest => some (bool true, rest)
    | 'f' :: 'a' :: 'l' :: 's' :: 'e' :: rest => some (bool false, rest)
    | '"' :: rest => (takeString? rest).map fun r ↦ (string r.1, r.2)
    | '[' :: rest =>
      match skipBlanks rest with
      | ']' :: rest => some (array [], rest)
      | rest => (takeElements? fuel rest).map fun r ↦ (array r.1, r.2)
    | '\x7b' :: rest =>
      match skipBlanks rest with
      | '\x7d' :: rest => some (object [], rest)
      | rest => (takeMembers? fuel rest).map fun r ↦ (object r.1, r.2)
    | rest => (takeNumber? rest).map fun r ↦ (number r.1, r.2)

/-- One or more values with commas between them, and what follows the closing bracket. -/
def takeElements? : (fuel : Nat) → Text → Option (List Json × Text)
  | 0, _ => none
  | fuel + 1, t =>
    match takeValue? fuel t with
    | none => none
    | some (v, rest) =>
      match skipBlanks rest with
      | ',' :: rest => (takeElements? fuel rest).map fun r ↦ (v :: r.1, r.2)
      | ']' :: rest => some ([v], rest)
      | _ => none

/-- One or more members with commas between them, and what follows the closing brace. -/
def takeMembers? : (fuel : Nat) → Text → Option (List (Option Text × Json) × Text)
  | 0, _ => none
  | fuel + 1, t =>
    match skipBlanks t with
    | '"' :: rest =>
      match takeString? rest with
      | none => none
      | some (name, rest) =>
        match skipBlanks rest with
        | ':' :: rest =>
          match takeValue? fuel rest with
          | none => none
          | some (v, rest) =>
            match skipBlanks rest with
            | ',' :: rest => (takeMembers? fuel rest).map fun r ↦ ((name, v) :: r.1, r.2)
            | '\x7d' :: rest => some ([(name, v)], rest)
            | _ => none
        | _ => none
    | _ => none

end

/-- The value that a whole text writes. -/
def ofText? (t : Text) : Option Json :=
  match takeValue? (t.length + 1) t with
  | some (v, rest) => if skipBlanks rest = [] then some v else none
  | none => none

end Json

end BatteryBench
