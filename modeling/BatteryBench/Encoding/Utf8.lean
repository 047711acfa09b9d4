import BatteryBench.Text.Basic

/-!
# UTF-8

Texts travel as UTF-8. Encoding is exact. Decoding never fails: every maximal part of the bytes that
starts a character but does not finish it, and every byte that starts none, is read as one U+FFFD,
the replacement character.

Decoding takes one byte at a time. Its state is what the bytes of an unfinished character still owe:
how many continuation bytes, what value so far, and the range the next byte has to lie in. The first
continuation byte is restricted after some leads, which excludes overlong forms, surrogates and
values above U+10FFFF; a byte outside the range ends the unfinished character and is read afresh.
-/

namespace BatteryBench

/-- A sequence of bytes. -/
abbrev Bytes := List UInt8

namespace Utf8

/-- The bytes of a text. -/
def encode (t : Text) : Bytes := t.flatMap String.utf8EncodeChar

/-- What stands for bytes that are no character. -/
def replacement : Char := '\uFFFD'

/-- What an unfinished character still owes. -/
structure Owed where
  /-- The number of continuation bytes, less one. -/
  more : Nat
  /-- The value of the bits so far. -/
  value : Nat
  /-- The least byte that may come next. -/
  low : Nat
  /-- The greatest byte that may come next. -/
  high : Nat
  deriving DecidableEq

/-- What a byte is at the start of a character. -/
inductive Lead where
  /-- A character by itself. -/
  | char (c : Char)
  /-- The start of a longer one. -/
  | start (owed : Owed)
  /-- No start. -/
  | stray
  deriving DecidableEq

/-- What a byte is at the start of a character. -/
def lead (b : UInt8) : Lead :=
  let n := b.toNat
  if n < 0x80 then .char (Char.ofNat n)
  else if n < 0xc2 then .stray
  else if n < 0xe0 then .start ⟨0, n - 0xc0, 0x80, 0xbf⟩
  else if n = 0xe0 then .start ⟨1, 0, 0xa0, 0xbf⟩
  else if n = 0xed then .start ⟨1, 0xd, 0x80, 0x9f⟩
  else if n < 0xf0 then .start ⟨1, n - 0xe0, 0x80, 0xbf⟩
  else if n = 0xf0 then .start ⟨2, 0, 0x90, 0xbf⟩
  else if n < 0xf4 then .start ⟨2, n - 0xf0, 0x80, 0xbf⟩
  else if n = 0xf4 then .start ⟨2, 4, 0x80, 0x8f⟩
  else .stray

/-- What an unfinished character becomes by one more byte, if the byte continues it. -/
def Owed.take? (owed : Owed) (b : UInt8) : Option Lead :=
  let n := b.toNat
  if owed.low ≤ n ∧ n ≤ owed.high then
    let value := owed.value * 64 + (n - 0x80)
    match owed.more with
    | 0 => some (.char (Char.ofNat value))
    | more + 1 => some (.start ⟨more, value, 0x80, 0xbf⟩)
  else none

/-- The text that bytes spell, after an unfinished character if there is one. -/
def decodeFrom : Option Owed → Bytes → Text
  | none, [] => []
  | some _, [] => [replacement]
  | state, b :: rest =>
    match state.bind (·.take? b) with
    | some (.char c) => c :: decodeFrom none rest
    | some (.start owed) => decodeFrom (some owed) rest
    | some .stray => replacement :: decodeFrom none rest
    | none =>
      let broken : Text := if state.isSome then [replacement] else []
      match lead b with
      | .char c => broken ++ c :: decodeFrom none rest
      | .start owed => broken ++ decodeFrom (some owed) rest
      | .stray => broken ++ replacement :: decodeFrom none rest

/-- The text that bytes spell, with replacements for what is no character. -/
def decode (bytes : Bytes) : Text := decodeFrom none bytes

end Utf8

end BatteryBench
