import BatteryBench.Address.IPv4

/-!
# Internet addresses

A unit that answers a scan is known by its internet address, which is of version 4 or 6. The text of
an IPv6 address writes its eight groups in lower-case hexadecimal without leading zeros, the first
longest run of two or more zero groups as `::`, and the four last octets as a dotted quad where the
address stands for one of version 4.

Reading is more liberal: groups may have leading zeros up to four digits and either case, `::` may
stand for any run of zero groups but has to stand for at least one, and the last two groups may
always be a dotted quad.
-/

namespace BatteryBench

/-- An IPv6 address, as its eight groups. -/
structure IPv6 where
  /-- The groups from the first on. -/
  groups : List UInt16
  /-- There are eight. -/
  length_groups : groups.length = 8
  deriving DecidableEq

/-- An internet address of either version. -/
inductive Address where
  /-- An address of version 4. -/
  | v4 (ip : IPv4)
  /-- An address of version 6. -/
  | v6 (ip : IPv6)
  deriving DecidableEq

/-! ### Writing -/

/-- The digits of a group in hexadecimal. -/
def groupText (g : UInt16) : Text := Nat.toDigits 16 g.toNat

/-- Groups with colons between them. -/
def groupsText (gs : List UInt16) : Text := [':'].intercalate (gs.map groupText)

/-- The length of the run of zero groups that starts at an index. -/
def zeroRun (gs : List UInt16) (start : Nat) : Nat := ((gs.drop start).takeWhile (· == 0)).length

/-- Where the first longest run of zero groups starts, and its length. -/
def longestZeroRun (gs : List UInt16) : Nat × Nat :=
  (List.range gs.length).foldl
    (fun best start ↦ if best.2 < zeroRun gs start then (start, zeroRun gs start) else best) (0, 0)

/-- The version 4 address that two groups hold. -/
def ipv4OfGroups (high low : UInt16) : IPv4 :=
  ⟨(high.toNat / 256).toUInt8, (high.toNat % 256).toUInt8, (low.toNat / 256).toUInt8,
    (low.toNat % 256).toUInt8⟩

/-- The two groups that hold a version 4 address. -/
def groupsOfIPv4 (ip : IPv4) : List UInt16 :=
  [(ip.a.toNat * 256 + ip.b.toNat).toUInt16, (ip.c.toNat * 256 + ip.d.toNat).toUInt16]

/-- The text of an address of version 6. -/
def IPv6.text (ip : IPv6) : Text :=
  match ip.groups with
  | [0, 0, 0, 0, 0, 0xffff, high, low] => "::ffff:" ++ (ipv4OfGroups high low).text
  | gs =>
    let (start, length) := longestZeroRun gs
    if length < 2 then groupsText gs
    else groupsText (gs.take start) ++ "::" ++ groupsText (gs.drop (start + length))

/-- The text of an address. -/
def Address.text : Address → Text
  | v4 ip => ip.text
  | v6 ip => ip.text

/-! ### Reading -/

/-- The group a text starts with, one to four hexadecimal digits, and what follows. -/
def takeGroup? (t : Text) : Option (UInt16 × Text) :=
  let digits := t.takeWhile fun c ↦ (digitOf? 16 c).isSome
  match natural? 16 digits with
  | some n => if digits.length ≤ 4 then some (n.toUInt16, t.drop digits.length) else none
  | none => none

/-- The text after the colon that has to stand before every group but the first. -/
def takeColon? (isFirst : Bool) (t : Text) : Option Text :=
  if isFirst then some t
  else match t with
    | ':' :: rest => some rest
    | _ => none

/-- What the reading of a run of groups gives: the groups, whether a dotted quad ended them, and the
text that follows. -/
structure GroupRun where
  /-- The groups read. -/
  groups : List UInt16
  /-- Whether the last two came from a dotted quad, which nothing may follow. -/
  quad : Bool
  /-- The text after them. -/
  rest : Text

/-- At most `limit` groups with colons between them. A dotted quad may stand for two groups wherever
two are left. -/
def takeGroups : (limit : Nat) → (isFirst : Bool) → Text → GroupRun
  | 0, _, t => ⟨[], false, t⟩
  | limit + 1, isFirst, t =>
    match takeColon? isFirst t with
    | none => ⟨[], false, t⟩
    | some after =>
      match if limit = 0 then none else takeIPv4? after with
      | some (ip, rest) => ⟨groupsOfIPv4 ip, true, rest⟩
      | none =>
        match takeGroup? after with
        | none => ⟨[], false, t⟩
        | some (g, rest) =>
          let run := takeGroups limit false rest
          { run with groups := g :: run.groups }

/-- The groups that the text of an address of version 6 writes. -/
def ipv6Groups? (t : Text) : Option (List UInt16) :=
  let front := takeGroups 8 true t
  if front.groups.length = 8 then
    if front.rest = [] then some front.groups else none
  else if front.quad then none
  else
    match front.rest with
    | ':' :: ':' :: after =>
      let back := takeGroups (7 - front.groups.length) true after
      if back.rest = [] then
        some (front.groups ++
          List.replicate (8 - front.groups.length - back.groups.length) 0 ++ back.groups)
      else none
    | _ => none

/-- The address of version 6 that a text writes. -/
def readIPv6? (t : Text) : Option IPv6 :=
  match ipv6Groups? t with
  | some gs => if h : gs.length = 8 then some ⟨gs, h⟩ else none
  | none => none

/-- The address of either version that a text writes. -/
def readAddress? (t : Text) : Option Address :=
  match readIPv4? t with
  | some ip => some (.v4 ip)
  | none => (readIPv6? t).map .v6

end BatteryBench
