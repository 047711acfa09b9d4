import BatteryBench.Cell
import BatteryBench.Number.Decimal
import BatteryBench.Report
import BatteryBench.Text.Quoted

/-!
# Reading replies

One reader per kind of reply. Each takes the whole line, ignores padding around it, and either
understands all of it or reports `Failure.invalidResponse`; there is no partial success.

A reply for several channels is a list with single commas. The commas are counted before anything is
read, so a list with the wrong number of fields fails whatever its fields hold (`Reply.fields`,
`Reply.list`). Filling a buffer (`Reply.fill`) reads the same lists and leaves the buffer as it was
unless all of it can be replaced.
-/

namespace BatteryBench

namespace Reply

/-- A value that a reader understood, or the failure that it did not. -/
def orInvalid {α : Type} : Option α → Outcome α
  | some v => .ok v
  | none => .error .invalidResponse

theorem orInvalid_eq_ok_iff {α : Type} {o : Option α} {v : α} :
    orInvalid o = .ok v ↔ o = some v := by
  rcases o with - | w <;> simp [orInvalid]

theorem orInvalid_eq_error_iff {α : Type} {o : Option α} {e : Failure} :
    orInvalid o = .error e ↔ o = none ∧ e = .invalidResponse := by
  rcases o with - | w <;> simp [orInvalid, eq_comm]

/-! ### Single values -/

/-- A binary32 number. -/
def number (t : Text) : Outcome Binary32 := orInvalid (binary32? (trim t))

/-- A flag, written as the single digit `0` or `1`. -/
def flag (t : Text) : Outcome Bool :=
  if trim t = ['0'] then .ok false
  else if trim t = ['1'] then .ok true
  else .error .invalidResponse

/-- An integer of a width. -/
def integer (w : Width) (t : Text) : Outcome Int := orInvalid (w.read? t)

/-- An unsigned integer of 8 bits. -/
def uint8 (t : Text) : Outcome UInt8 :=
  (integer .uint8 t).map fun v ↦ UInt8.ofNat v.toNat

/-- An unsigned integer of 32 bits. -/
def uint32 (t : Text) : Outcome UInt32 :=
  (integer .uint32 t).map fun v ↦ UInt32.ofNat v.toNat

/-- A signed integer of 32 bits. -/
def int32 (t : Text) : Outcome Int32 := (integer .int32 t).map Int32.ofInt

/-- One quoted string. -/
def text (t : Text) : Outcome Text := orInvalid (readWholeQuoted? t)

/-- Exactly `n` quoted strings. -/
def texts (n : Nat) (t : Text) : Outcome (List Text) := orInvalid (readQuotedItems? n t)

/-! ### Lists of fields -/

/-- The fields of a list, padding around the whole list aside, if there are exactly `n`. -/
def fields (n : Nat) (t : Text) : Outcome (List Text) :=
  let pieces := splitAt ',' (trim t)
  if pieces.length = n then .ok pieces else .error .invalidResponse

/-- The values of a list of texts, or the failure of the first text that has none. -/
def each {α : Type} (parse : Text → Outcome α) : List Text → Outcome (List α)
  | [] => .ok []
  | t :: ts =>
    match parse t with
    | .error e => .error e
    | .ok v =>
      match each parse ts with
      | .error e => .error e
      | .ok vs => .ok (v :: vs)

/-- The values of a list of exactly `n` fields. -/
def list {α : Type} (n : Nat) (parse : Text → Outcome α) (t : Text) : Outcome (List α) :=
  match fields n t with
  | .error e => .error e
  | .ok pieces => each parse pieces

/-- Replaces the slots of a buffer from the first on by values, as far as there are values. -/
def overwrite {α : Type} : List α → List α → List α
  | _ :: slots, v :: vs => v :: overwrite slots vs
  | slots, _ => slots

/-- The buffer after a list with exactly one field per slot was read into it, and whether that
succeeded. -/
def fill {α : Type} (parse : Text → Outcome α) (t : Text) (buffer : List α) :
    Outcome Unit × List α :=
  match list buffer.length parse t with
  | .error e => (.error e, buffer)
  | .ok vs => (.ok (), overwrite buffer vs)

/-! ### Records -/

/-- The identity of a unit, from a list of four fields; padding around each is ignored. -/
def identity (t : Text) : Outcome Identity :=
  match fields 4 t with
  | .ok [_, partNumber, serial, version] => .ok ⟨trim partNumber, trim serial, trim version⟩
  | .ok _ => .error .invalidResponse
  | .error e => .error e

/-- An entry of the error queue: an integer of 16 bits, a comma and one quoted string. -/
def errorEntry (t : Text) : Outcome ErrorEntry :=
  match (trim t).span (· ≠ ',') with
  | (code, ',' :: message) =>
    match Width.int16.read? code, readWholeQuoted? message with
    | some code, some message => .ok ⟨Int16.ofInt code, message⟩
    | _, _ => .error .invalidResponse
  | _ => .error .invalidResponse

/-- The network settings of a unit, from two quoted strings. -/
def ethernet (t : Text) : Outcome EthernetSettings :=
  match texts 2 t with
  | .ok [ip, netmask] => .ok ⟨ip, netmask⟩
  | .ok _ => .error .invalidResponse
  | .error e => .error e

/-- The loaded model, from two quoted strings. -/
def model (t : Text) : Outcome LoadedModel :=
  match texts 2 t with
  | .ok [name, version] => .ok ⟨name, version⟩
  | .ok _ => .error .invalidResponse
  | .error e => .error e

/-! ### What lists are read as -/

/-- A list of texts is read exactly when each of them is, and then each in its place. -/
theorem each_eq_ok_iff {α : Type} {parse : Text → Outcome α} {ts : List Text} {vs : List α} :
    each parse ts = .ok vs ↔ ts.map parse = vs.map .ok := by
  induction ts generalizing vs with
  | nil => cases vs <;> simp [each]
  | cons t ts ih =>
    rw [each]
    cases ht : parse t with
    | error e => cases vs <;> simp [ht]
    | ok v =>
      cases hts : each parse ts with
      | error e =>
        cases vs with
        | nil => simp
        | cons w ws =>
          have hne : ts.map parse ≠ ws.map .ok := fun heq ↦ by
            rw [ih.mpr heq] at hts
            cases hts
          simp [hne]
      | ok us =>
        cases vs with
        | nil => simp
        | cons w ws =>
          have hiff : us = ws ↔ ts.map parse = ws.map .ok := by
            rw [← ih, hts, Except.ok.injEq]
          simp [ht, hiff]

theorem length_each {α : Type} {parse : Text → Outcome α} {ts : List Text} {vs : List α}
    (h : each parse ts = .ok vs) : vs.length = ts.length := by
  have hlen := congrArg List.length (each_eq_ok_iff.mp h)
  rw [List.length_map, List.length_map] at hlen
  exact hlen.symm

/-- A list is read into exactly as many values as were asked for. -/
theorem length_list {α : Type} {n : Nat} {parse : Text → Outcome α} {t : Text} {vs : List α}
    (h : list n parse t = .ok vs) : vs.length = n := by
  unfold list fields at h
  split at h
  · cases h
  · next pieces hp =>
    dsimp only at hp
    split at hp
    · next hlen =>
      cases hp
      rw [length_each h, hlen]
    · cases hp

theorem overwrite_of_length_eq {α : Type} {slots vs : List α} (h : vs.length = slots.length) :
    overwrite slots vs = vs := by
  induction slots generalizing vs with
  | nil =>
    have : vs = [] := List.length_eq_zero_iff.mp h
    rw [this, overwrite]
    simp
  | cons slot slots ih =>
    cases vs with
    | nil => simp at h
    | cons v vs => rw [overwrite, ih (by simpa using h)]

end Reply

end BatteryBench
