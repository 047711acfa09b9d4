import BatteryBench.Failure
import BatteryBench.Number.Integer

/-!
# IPv4 addresses

An address is four octets, and its text is the dotted quad: four decimal numbers up to 255 without
leading zeros. There is one text per address, and reading accepts no other.

`takeIPv4?` reads the address a text starts with and is what the reading of longer address forms
builds on. `IPv4.parse` is for texts that a user typed: white space around the address is ignored,
in the sense of the Unicode property, which is wider than the padding of replies.
-/

namespace BatteryBench

/-- An IPv4 address, as its four octets. -/
structure IPv4 where
  /-- The first octet. -/
  a : UInt8
  /-- The second octet. -/
  b : UInt8
  /-- The third octet. -/
  c : UInt8
  /-- The fourth octet. -/
  d : UInt8
  deriving DecidableEq, Repr

namespace IPv4

/-- The dotted quad. -/
def text (ip : IPv4) : Text :=
  decimal ip.a.toNat ++ '.' :: (decimal ip.b.toNat ++ '.' :: (decimal ip.c.toNat ++ '.' ::
    decimal ip.d.toNat))

/-- The address that stands for any interface. -/
def unspecified : IPv4 := ⟨0, 0, 0, 0⟩

end IPv4

/-! ### Reading -/

/-- The octet a text starts with, at most three digits without a leading zero, and what follows. -/
def takeOctet? (t : Text) : Option (UInt8 × Text) :=
  let digits := t.takeWhile Char.isDigit
  match natural? 10 digits with
  | some n =>
    if digits.length ≤ 3 ∧ n ≤ 255 ∧ (digits.head? = some '0' → digits.length = 1) then
      some (UInt8.ofNat n, t.dropWhile Char.isDigit)
    else none
  | none => none

/-- The text after the point it starts with. -/
def takePoint? : Text → Option Text
  | '.' :: rest => some rest
  | _ => none

/-- The address a text starts with, and what follows. -/
def takeIPv4? (t : Text) : Option (IPv4 × Text) := do
  let (a, t) ← takeOctet? t
  let (b, t) ← takeOctet? (← takePoint? t)
  let (c, t) ← takeOctet? (← takePoint? t)
  let (d, t) ← takeOctet? (← takePoint? t)
  return (⟨a, b, c, d⟩, t)

/-- The address that a text writes. -/
def readIPv4? (t : Text) : Option IPv4 :=
  match takeIPv4? t with
  | some (ip, []) => some ip
  | _ => none

/-! ### White space -/

/-- The characters with the Unicode property White_Space. -/
def isWhiteSpace (c : Char) : Bool :=
  let n := c.toNat
  decide (0x09 ≤ n ∧ n ≤ 0x0d) || n == 0x20 || n == 0x85 || n == 0xa0 || n == 0x1680 ||
    decide (0x2000 ≤ n ∧ n ≤ 0x200a) || n == 0x2028 || n == 0x2029 || n == 0x202f ||
    n == 0x205f || n == 0x3000

/-- The text without the white space at both ends. -/
def stripWhiteSpace (t : Text) : Text :=
  ((t.dropWhile isWhiteSpace).reverse.dropWhile isWhiteSpace).reverse

/-- The address that a text writes, white space around it aside. -/
def IPv4.parse (t : Text) : Outcome IPv4 :=
  match readIPv4? (stripWhiteSpace t) with
  | some ip => .ok ip
  | none => .error .invalidIPAddress

/-- A text that is no address has one failure. -/
theorem IPv4.parse_eq_error {t : Text} {e : Failure} (h : IPv4.parse t = .error e) :
    e = .invalidIPAddress := by
  rw [IPv4.parse] at h
  split at h <;> cases h
  rfl

end BatteryBench
