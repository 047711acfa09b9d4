import BatteryBench.Discovery.Scan
import BatteryBench.Driver.Scripted
import Mathlib.Data.List.Basic

/-!
# What a scan asks and what it finds

Over a scripted bus and over a scripted segment everything that a scan does can be read off the
script. One attempt to hear a unit comes to a `Reaction`: silence, a serial number, or a failure
that ends the scan. What an answer has to look like is said by `serialField?`, which knows nothing
of how a reply is read.

A scan of a bus is settled by the first number of the range whose reaction is a failure, or by there
being none (`scanBus_scripted`); a scan of a segment by the first reply that is no serial number,
and there is always one, since behind the script there is silence (`scanSegment_scripted`). Both say
which calls reach the driver and which replies are left.

On a bus every attempt changes the script, for a unit answers only once. What carries the run is
that no number is asked twice, so the script is still as it was for those to come
(`ScriptedBus.Asked`).
-/

namespace BatteryBench

/-! ### Reactions -/

/-- The serial number in the answer to the query: the third of exactly four fields, padding around
the line and around the field aside. -/
def serialField? (line : Text) : Option Text :=
  match splitAt ',' (trim line) with
  | [_, _, serial, _] => some (trim serial)
  | _ => none

/-- An identity is read from exactly the lines that have a serial number, and holds it. -/
theorem map_serial_identity (line : Text) :
    (Reply.identity line).map (·.serial) = Reply.orInvalid (serialField? line) := by
  rw [Reply.identity, Reply.fields, serialField?]
  generalize splitAt ',' (trim line) = pieces
  rcases pieces with - | ⟨a, - | ⟨b, - | ⟨c, - | ⟨d, - | ⟨e, rest⟩⟩⟩⟩⟩ <;> rfl

theorem serialField?_of_identity {line : Text} {info : Identity}
    (h : Reply.identity line = .ok info) : serialField? line = some info.serial := by
  have hserial := map_serial_identity line
  rw [h] at hserial
  cases hfield : serialField? line <;> rw [hfield] at hserial <;> cases hserial
  rfl

/-- What an attempt to hear a unit comes to. -/
inductive Reaction where
  /-- Nobody answered. -/
  | silence
  /-- A unit answered with its serial number. -/
  | serial (text : Text)
  /-- Something failed, or the answer was no identity. -/
  | failure (reason : Failure)
  deriving DecidableEq

namespace Reaction

/-- What a read comes to. -/
def ofRead : Outcome Text → Reaction
  | .error e => if e.isTimeout then silence else failure e
  | .ok line =>
    match serialField? line with
    | some text => serial text
    | none => failure .invalidResponse

theorem ofRead_error {e : Failure} :
    ofRead (.error e) = if e.isTimeout then silence else failure e := rfl

/-- What a line comes to is decided by whether it is an identity. -/
theorem ofRead_ok (line : Text) :
    ofRead (.ok line) =
      match Reply.identity line with
      | .ok info => serial info.serial
      | .error e => failure e := by
  have hserial := map_serial_identity line
  rw [ofRead]
  revert hserial
  cases Reply.identity line <;> cases serialField? line <;> intro hserial <;> cases hserial <;> rfl

/-- Whether a reaction ends a scan of a bus. -/
def isFailure : Reaction → Bool
  | failure _ => true
  | silence | serial _ => false

/-- What is found under a number by a reaction. -/
def unitAt? (id : UInt8) : Reaction → Option UnitOnBus
  | serial text => some ⟨id, text⟩
  | silence | failure _ => none

/-- What asking under a number gives by a reaction. -/
def outcome (id : UInt8) : Reaction → Outcome (Option UnitOnBus)
  | failure reason => .error reason
  | silence => .ok none
  | serial text => .ok (some ⟨id, text⟩)

theorem outcome_of_isFailure {r : Reaction} (h : r.isFailure = false) (id : UInt8) :
    r.outcome id = .ok (r.unitAt? id) := by
  cases r with
  | failure reason => cases h
  | silence => rfl
  | serial text => rfl

theorem exists_of_isFailure {r : Reaction} (h : r.isFailure) : ∃ reason, r = failure reason := by
  cases r with
  | failure reason => exact ⟨reason, rfl⟩
  | silence => cases h
  | serial text => cases h

end Reaction

/-! ### Numbers -/

/-- No number of a range is too large. -/
theorem toNat_ofNat_of_mem_range' {first last : UInt8} {n : Nat}
    (hn : n ∈ List.range' first.toNat (last.toNat + 1 - first.toNat)) :
    (UInt8.ofNat n).toNat = n := by
  have hlast := last.toNat_lt
  have hlt : n < 2 ^ 8 := by
    rw [List.mem_range'_1] at hn
    omega
  exact UInt8.toNat_ofNat_of_lt' hlt

theorem mem_idsFrom {first last id : UInt8} :
    id ∈ idsFrom first last ↔ first ≤ id ∧ id ≤ last := by
  rw [idsFrom, List.mem_map, UInt8.le_iff_toNat_le, UInt8.le_iff_toNat_le]
  constructor
  · rintro ⟨n, hn, rfl⟩
    rw [toNat_ofNat_of_mem_range' hn]
    rw [List.mem_range'_1] at hn
    omega
  · rintro ⟨hfirst, hlast⟩
    exact ⟨id.toNat, List.mem_range'_1.mpr (by omega), UInt8.ofNat_toNat⟩

theorem pairwise_idsFrom (first last : UInt8) : (idsFrom first last).Pairwise (· < ·) := by
  rw [idsFrom, List.pairwise_map]
  refine List.Pairwise.imp_of_mem ?_ List.pairwise_lt_range'
  intro m n hm hn hlt
  rw [UInt8.lt_iff_toNat_lt, toNat_ofNat_of_mem_range' hm, toNat_ofNat_of_mem_range' hn]
  exact hlt

/-- In an ascending list the numbers up to one of them are those that stand up to it. -/
theorem mem_concat_iff_of_ascending {before later : List UInt8} {stop id : UInt8}
    (h : (before ++ stop :: later).Pairwise (· < ·)) :
    id ∈ before ++ [stop] ↔ id ∈ before ++ stop :: later ∧ id ≤ stop := by
  obtain ⟨-, hstop, hbefore⟩ := List.pairwise_append.mp h
  rw [List.mem_append, List.mem_singleton, List.mem_append, List.mem_cons]
  constructor
  · rintro (hid | rfl)
    · exact ⟨.inl hid, UInt8.le_of_lt (hbefore id hid stop List.mem_cons_self)⟩
    · exact ⟨.inr (.inl rfl), UInt8.le_refl _⟩
  · rintro ⟨hid | rfl | hid, hle⟩
    · exact .inl hid
    · exact .inr rfl
    · exact absurd hle (UInt8.not_le.mpr (List.rel_of_pairwise_cons hstop hid))

/-! ### A bus -/

namespace ScriptedBus

/-- What asking the unit with a number comes to. -/
def reaction (b : ScriptedBus) (id : UInt8) : Reaction :=
  match b.writeFailure id.toUInt32 with
  | some e => .failure e
  | none => .ofRead ((b.unit id.toUInt32).getD (.error .readTimedOut))

/-- The calls that asking the unit with a number takes. -/
def callsAt (b : ScriptedBus) (id : UInt8) : List DriverCall :=
  .select id.toUInt32 :: .send "*IDN?\r\n" 100 ::
    if (b.writeFailure id.toUInt32).isSome then [] else [.readLine 50]

/-- The unit that answers under a number. -/
def unitAt? (b : ScriptedBus) (id : UInt8) : Option UnitOnBus := (b.reaction id).unitAt? id

/-- **What asking the units with some numbers leaves of a bus**: their calls, and the script for
every other number. -/
structure Asked (b : ScriptedBus) (ids : List UInt8) (after : ScriptedBus) : Prop where
  /-- The calls are those of one attempt for each number. -/
  calls : after.calls = b.calls ++ ids.flatMap b.callsAt
  /-- Transmissions fail as before. -/
  writeFailure : after.writeFailure = b.writeFailure
  /-- The other units have not answered. -/
  unit : ∀ k, (∀ id ∈ ids, k ≠ id.toUInt32) → after.unit k = b.unit k

variable {b mid after : ScriptedBus} {ids rest : List UInt8}

theorem Asked.nil (b : ScriptedBus) : b.Asked [] b :=
  ⟨(List.append_nil b.calls).symm, rfl, fun _ _ ↦ rfl⟩

theorem Asked.callsAt (h : b.Asked ids after) : after.callsAt = b.callsAt := by
  funext id
  rw [ScriptedBus.callsAt, ScriptedBus.callsAt, h.writeFailure]

theorem Asked.append (hfirst : b.Asked ids mid) (hrest : mid.Asked rest after) :
    b.Asked (ids ++ rest) after where
  calls := by
    rw [hrest.calls, hfirst.calls, hfirst.callsAt, List.flatMap_append, List.append_assoc]
  writeFailure := hrest.writeFailure.trans hfirst.writeFailure
  unit k hk := by
    rw [hrest.unit k fun id hid ↦ hk id (List.mem_append_right ids hid),
      hfirst.unit k fun id hid ↦ hk id (List.mem_append_left rest hid)]

/-- A number that was not asked comes to what it came to before. -/
theorem Asked.reaction (h : b.Asked ids after) {id : UInt8} (hid : id ∉ ids) :
    after.reaction id = b.reaction id := by
  have hunit : after.unit id.toUInt32 = b.unit id.toUInt32 := by
    refine h.unit _ fun k hk heq ↦ hid ?_
    rwa [UInt8.toUInt32_inj.mp heq]
  rw [ScriptedBus.reaction, ScriptedBus.reaction, h.writeFailure, hunit]

/-- The bus after the unit with a number was asked and its answer was read. -/
def afterReading (b : ScriptedBus) (id : UInt8) : ScriptedBus where
  unit k := if k = id.toUInt32 then none else b.unit k
  writeFailure := b.writeFailure
  selected := id.toUInt32
  pending := none
  calls := b.calls ++ [.select id.toUInt32, .send identify scanWriteTimeout,
    .readLine serialReplyTimeout]

/-- A transmission that fails is the end of an attempt. -/
theorem probe_of_writeFailure {id : UInt8} {e : Failure}
    (h : b.writeFailure id.toUInt32 = some e) :
    probe id b = (.error e, { b with
      selected := id.toUInt32
      calls := b.calls ++ [.select id.toUInt32, .send identify scanWriteTimeout] }) := by
  simp [probe, Driver.send, ScriptedBus.send, Driver.selectDevice, h]

/-- The read behind a transmission gives what the unit answers, if there is one. -/
theorem probe_of_sent {id : UInt8} (h : b.writeFailure id.toUInt32 = none) :
    probe id b =
      ((Reaction.ofRead ((b.unit id.toUInt32).getD (.error .readTimedOut))).outcome id,
        b.afterReading id) := by
  have hsend : Driver.send identify scanWriteTimeout (Driver.selectDevice id.toUInt32 b) =
      (.ok (), { b.afterReading id with
        pending := b.unit id.toUInt32
        calls := b.calls ++ [.select id.toUInt32, .send identify scanWriteTimeout] }) := by
    simp [Driver.send, ScriptedBus.send, Driver.selectDevice, h, afterReading]
  have hread (pending : Option (Outcome Text)) :
      Driver.readLine serialReplyTimeout ({ b.afterReading id with
        pending := pending
        calls := b.calls ++ [.select id.toUInt32, .send identify scanWriteTimeout] }) =
      (pending.getD (.error .readTimedOut), b.afterReading id) := by
    cases pending <;> simp [Driver.readLine, ScriptedBus.readLine, afterReading]
  rw [probe, hsend]
  dsimp only
  rw [hread]
  cases (b.unit id.toUInt32).getD (.error .readTimedOut) with
  | error e =>
    rw [Reaction.ofRead_error]
    dsimp only
    split <;> rfl
  | ok line =>
    rw [Reaction.ofRead_ok]
    dsimp only
    cases Reply.identity line <;> rfl

/-- **One attempt** gives what the script says, and takes its calls. -/
theorem probe_scripted (b : ScriptedBus) (id : UInt8) :
    (probe id b).1 = (b.reaction id).outcome id ∧ b.Asked [id] (probe id b).2 := by
  have hother : ∀ k, (∀ i ∈ [id], k ≠ i.toUInt32) → k ≠ id.toUInt32 :=
    fun k hk ↦ hk id List.mem_cons_self
  rw [reaction]
  cases hwrite : b.writeFailure id.toUInt32 with
  | some e =>
    rw [probe_of_writeFailure hwrite]
    refine ⟨rfl, ?_, rfl, fun _ _ ↦ rfl⟩
    rw [List.flatMap_singleton, ScriptedBus.callsAt, hwrite]
    rfl
  | none =>
    rw [probe_of_sent hwrite]
    refine ⟨rfl, ?_, rfl, fun k hk ↦ if_neg (hother k hk)⟩
    rw [List.flatMap_singleton, ScriptedBus.callsAt, hwrite]
    rfl

/-- **Numbers that come to no failure** are gone through, and the scan goes on with the rest. -/
theorem probeEach_append (hids : (ids ++ rest).Nodup)
    (h : ∀ id ∈ ids, (b.reaction id).isFailure = false) :
    ∃ mid, b.Asked ids mid ∧ probeEach (ids ++ rest) b =
      ((probeEach rest mid).1.map (ids.filterMap b.unitAt? ++ ·), (probeEach rest mid).2) := by
  induction ids generalizing b with
  | nil =>
    refine ⟨b, .nil b, ?_⟩
    rw [List.nil_append]
    rcases probeEach rest b with ⟨_ | _, _⟩ <;> rfl
  | cons id ids ih =>
    obtain ⟨hnot, hids⟩ := List.nodup_cons.mp hids
    obtain ⟨hid, hrest⟩ := List.forall_mem_cons.mp h
    obtain ⟨houtcome, hasked⟩ := b.probe_scripted id
    rw [Reaction.outcome_of_isFailure hid] at houtcome
    -- The first attempt took only its own unit's answer, so the others still come to the same.
    have hsame : ∀ k ∈ ids, (probe id b).2.reaction k = b.reaction k := by
      intro k hk
      refine hasked.reaction fun hmem ↦ hnot (List.mem_append_left rest ?_)
      rwa [← List.mem_singleton.mp hmem]
    obtain ⟨mid, hmid, hrun⟩ := ih (b := (probe id b).2) hids fun k hk ↦ by
      rw [hsame k hk]
      exact hrest k hk
    have hunits : ids.filterMap (probe id b).2.unitAt? = ids.filterMap b.unitAt? :=
      List.filterMap_congr fun k hk ↦ by rw [unitAt?, unitAt?, hsame k hk]
    have hprobe : probe id b = (.ok (b.unitAt? id), (probe id b).2) :=
      Prod.ext houtcome rfl
    have hcons : (id :: ids).filterMap b.unitAt? =
        (b.unitAt? id).toList ++ ids.filterMap b.unitAt? := by
      rw [List.filterMap_cons]
      cases b.unitAt? id <;> rfl
    refine ⟨mid, hasked.append hmid, ?_⟩
    rw [List.cons_append, probeEach, hprobe]
    dsimp only
    rw [hrun, hunits, hcons]
    rcases probeEach rest mid with ⟨_ | _, _⟩ <;> simp [Except.map]

/-- If no number comes to a failure, all of them are asked. -/
theorem probeEach_of_forall (hids : ids.Nodup)
    (h : ∀ id ∈ ids, (b.reaction id).isFailure = false) :
    (probeEach ids b).1 = .ok (ids.filterMap b.unitAt?) ∧
      (probeEach ids b).2.calls = b.calls ++ ids.flatMap b.callsAt := by
  have hall : (ids ++ []).Nodup := by rwa [List.append_nil]
  obtain ⟨mid, hmid, hrun⟩ := probeEach_append hall h
  rw [List.append_nil] at hrun
  rw [hrun]
  exact ⟨congrArg Except.ok (List.append_nil _), hmid.calls⟩

/-- The first number that comes to a failure is the last one that is asked. -/
theorem probeEach_of_failure {stop : UInt8} {e : Failure} (hids : (ids ++ stop :: rest).Nodup)
    (h : ∀ id ∈ ids, (b.reaction id).isFailure = false) (hstop : b.reaction stop = .failure e) :
    (probeEach (ids ++ stop :: rest) b).1 = .error e ∧
      (probeEach (ids ++ stop :: rest) b).2.calls =
        b.calls ++ (ids ++ [stop]).flatMap b.callsAt := by
  obtain ⟨mid, hmid, hrun⟩ := probeEach_append hids h
  have hnot : stop ∉ ids := fun hmem ↦
    (List.nodup_append.mp hids).2.2 stop hmem stop List.mem_cons_self rfl
  obtain ⟨houtcome, hasked⟩ := mid.probe_scripted stop
  rw [hmid.reaction hnot, hstop] at houtcome
  have hend : probeEach (stop :: rest) mid = (.error e, (probe stop mid).2) := by
    have hprobe : probe stop mid = (.error e, (probe stop mid).2) := Prod.ext houtcome rfl
    rw [probeEach, hprobe]
  rw [hrun, hend]
  exact ⟨rfl, (hmid.append hasked).calls⟩

/-- **A scan of a bus, exactly.** A range with no numbers is refused before anything is sent.
Otherwise the numbers are asked in ascending order, each once and each with the calls of one
attempt. The scan ends at the first number whose reaction is a failure and gives that failure; if
there is none, all numbers of the range are asked and every number that answered with its serial
number gives one unit, in the same order. -/
theorem scanBus_scripted (first last : UInt8) (b : ScriptedBus) :
    (last < first → scanBus first last b = (.error .invalidArgument, b)) ∧
    (first ≤ last → ∃ asked : List UInt8, asked.Pairwise (· < ·) ∧
      (scanBus first last b).2.calls = b.calls ++ asked.flatMap b.callsAt ∧
      ((∃ stop reason, (first ≤ stop ∧ stop ≤ last) ∧ b.reaction stop = .failure reason ∧
          (∀ id, first ≤ id → id < stop → (b.reaction id).isFailure = false) ∧
          (∀ id, id ∈ asked ↔ first ≤ id ∧ id ≤ stop) ∧
          (scanBus first last b).1 = .error reason) ∨
        ((∀ id, first ≤ id → id ≤ last → (b.reaction id).isFailure = false) ∧
          (∀ id, id ∈ asked ↔ first ≤ id ∧ id ≤ last) ∧
          (scanBus first last b).1 = .ok (asked.filterMap b.unitAt?)))) := by
  refine ⟨fun hlt ↦ if_pos hlt, fun hle ↦ ?_⟩
  have hscan : scanBus first last b = probeEach (idsFrom first last) b :=
    if_neg (UInt8.not_lt.mpr hle)
  have hascending := pairwise_idsFrom first last
  have hnodup : (idsFrom first last).Nodup := hascending.imp fun hlt ↦ UInt8.ne_of_lt hlt
  rw [hscan]
  cases hfind : (idsFrom first last).find? fun id ↦ (b.reaction id).isFailure with
  | none =>
    have hnone : ∀ id ∈ idsFrom first last, (b.reaction id).isFailure = false :=
      fun id hid ↦ Bool.of_not_eq_true (List.find?_eq_none.mp hfind id hid)
    obtain ⟨hfound, hcalls⟩ := probeEach_of_forall hnodup hnone
    exact ⟨_, hascending, hcalls, .inr ⟨fun id hfirst hlast ↦ hnone id
      (mem_idsFrom.mpr ⟨hfirst, hlast⟩), fun id ↦ mem_idsFrom, hfound⟩⟩
  | some stop =>
    obtain ⟨hfails, before, later, hids, hbefore⟩ := List.find?_eq_some_iff_append.mp hfind
    obtain ⟨reason, hreason⟩ := Reaction.exists_of_isFailure hfails
    have hstop : first ≤ stop ∧ stop ≤ last := mem_idsFrom.mp (hids ▸ by simp)
    have hnone : ∀ id ∈ before, (b.reaction id).isFailure = false :=
      fun id hid ↦ by simpa using hbefore id hid
    rw [hids] at hascending hnodup ⊢
    obtain ⟨hfailure, hcalls⟩ := probeEach_of_failure hnodup hnone hreason
    have hasked : ∀ id, id ∈ before ++ [stop] ↔ first ≤ id ∧ id ≤ stop := by
      intro id
      rw [mem_concat_iff_of_ascending hascending, ← hids, mem_idsFrom]
      exact ⟨fun h ↦ ⟨h.1.1, h.2⟩, fun h ↦ ⟨⟨h.1, UInt8.le_trans h.2 hstop.2⟩, h.2⟩⟩
    refine ⟨before ++ [stop], ?_, hcalls, .inl ⟨stop, reason, hstop, hreason, ?_, hasked,
      hfailure⟩⟩
    · refine hascending.sublist ?_
      rw [List.append_cons before stop later]
      exact List.sublist_append_left _ _
    · intro id hfirst hlt
      rcases List.mem_append.mp ((hasked id).mpr ⟨hfirst, UInt8.le_of_lt hlt⟩) with hid | hid
      · exact hnone id hid
      · exact absurd (List.mem_singleton.mp hid) (UInt8.ne_of_lt hlt)

/-- A number that stays silent is skipped, and a line of three fields ends the scan before the
number after it is asked. -/
theorem scanBus_scripted_garbled :
    let b : ScriptedBus := { unit := fun id ↦
      match id with
      | 3 => some (.ok "a,b, S3 ,d")
      | 4 => some (.error .sendTimedOut)
      | 5 => some (.ok "a,b,c")
      | _ => none }
    scanBus 6 3 b = (.error .invalidArgument, b) ∧
      (scanBus 3 6 b).1 = .error .invalidResponse ∧
      (scanBus 3 4 b).1 = .ok [⟨3, "S3"⟩] := by
  intro b
  have hthree : b.reaction 3 = .serial "S3" := by decide
  have hfour : b.reaction 4 = .silence := by decide
  have hfive : b.reaction 5 = .failure .invalidResponse := by decide
  refine ⟨(b.scanBus_scripted 6 3).1 (by decide), ?_, by decide⟩
  obtain ⟨asked, -, -, hends | ⟨hnone, -⟩⟩ := (b.scanBus_scripted 3 6).2 (by decide)
  · obtain ⟨stop, reason, ⟨hfirst, -⟩, hreason, hbefore, -, hresult⟩ := hends
    have hlast : stop ≤ 5 := UInt8.not_lt.mp fun hlt ↦
      absurd (hbefore 5 (by decide) hlt) (by decide)
    have hstop : stop = 3 ∨ stop = 4 ∨ stop = 5 := by
      rw [UInt8.le_iff_toNat_le] at hfirst hlast
      simp only [← UInt8.toNat_inj, UInt8.reduceToNat] at hfirst hlast ⊢
      omega
    rcases hstop with rfl | rfl | rfl
    · exact nomatch hthree.symm.trans hreason
    · exact nomatch hfour.symm.trans hreason
    · cases hfive.symm.trans hreason
      exact hresult
  · exact absurd (hnone 5 (by decide) (by decide)) (by decide)

end ScriptedBus

/-! ### A segment -/

section Collect

variable {σ : Type} [AttributingDriver σ] {s after : σ}

/-- A read that fails is the last one. -/
theorem collect_of_error {e : Failure}
    (h : AttributingDriver.readFrom multicastReplyTimeout s = (.error e, after)) :
    collect s = (if e.isTimeout then .ok [] else .error e, after) := by
  rw [collect]
  split
  · next hread =>
    cases h.symm.trans hread
    rfl
  · next hread => cases h.symm.trans hread

/-- A line that is an identity is one unit, and collecting goes on. -/
theorem collect_of_ok {reply : AttributedLine}
    (h : AttributingDriver.readFrom multicastReplyTimeout s = (.ok reply, after)) :
    collect s =
      match Reply.identity reply.line with
      | .error e => (.error e, after)
      | .ok info =>
        ((collect after).1.map (⟨reply.source, info.serial⟩ :: ·), (collect after).2) := by
  rw [collect]
  split
  · next hread => cases h.symm.trans hread
  · next hread =>
    cases h.symm.trans hread
    rfl

end Collect

namespace ScriptedSegment

/-- What the read at a place gives: behind the replies there is silence. -/
def reply (s : ScriptedSegment) (k : Nat) : Outcome AttributedLine :=
  s.replies.getD k (.error .readTimedOut)

/-- What the read at a place comes to. -/
def reaction (s : ScriptedSegment) (k : Nat) : Reaction := .ofRead ((s.reply k).map (·.line))

/-- That a reply is an identity, and a unit is what it tells. -/
def Tells (reply : Outcome AttributedLine) (unit : UnitOnNetwork) : Prop :=
  ∃ line, reply = .ok line ∧ unit.ip = line.source ∧ serialField? line.line = some unit.serial

/-- The segment after some reads. -/
def afterReads (s : ScriptedSegment) (k : Nat) : ScriptedSegment :=
  { s with
    replies := s.replies.drop k
    calls := s.calls ++ List.replicate k (.readFrom 100) }

theorem readFrom_eq (s : ScriptedSegment) :
    AttributingDriver.readFrom multicastReplyTimeout s = (s.reply 0, s.afterReads 1) := by
  obtain ⟨replies, writeFailure, calls⟩ := s
  cases replies <;> rfl

theorem afterReads_afterReads (s : ScriptedSegment) (j k : Nat) :
    (s.afterReads j).afterReads k = s.afterReads (j + k) := by
  rw [afterReads, afterReads, afterReads, List.drop_drop, List.append_assoc,
    List.replicate_append_replicate]

theorem reaction_afterReads (s : ScriptedSegment) (j k : Nat) :
    (s.afterReads j).reaction k = s.reaction (j + k) := by
  simp [reaction, reply, afterReads, List.getD]

/-- **One read** ends the scan, or gives one unit more. -/
theorem collect_scripted (s : ScriptedSegment) :
    (s.reaction 0 = .silence ∧ collect s = (.ok [], s.afterReads 1)) ∨
    (∃ e, s.reaction 0 = .failure e ∧ collect s = (.error e, s.afterReads 1)) ∨
    ∃ unit, s.reaction 0 = .serial unit.serial ∧ Tells (s.reply 0) unit ∧
      collect s =
        ((collect (s.afterReads 1)).1.map (unit :: ·), (collect (s.afterReads 1)).2) := by
  have hread := s.readFrom_eq
  rw [reaction]
  cases hreply : s.reply 0 with
  | error e =>
    rw [hreply] at hread
    rw [collect_of_error hread, Except.map, Reaction.ofRead_error]
    cases e.isTimeout with
    | true => exact .inl ⟨rfl, rfl⟩
    | false => exact .inr (.inl ⟨e, rfl, rfl⟩)
  | ok line =>
    rw [hreply] at hread
    rw [collect_of_ok hread, Except.map, Reaction.ofRead_ok]
    cases hidentity : Reply.identity line.line with
    | error e => exact .inr (.inl ⟨e, rfl, rfl⟩)
    | ok info =>
      exact .inr (.inr ⟨⟨line.source, info.serial⟩, rfl,
        ⟨line, rfl, rfl, serialField?_of_identity hidentity⟩, rfl⟩)

/-- **Collecting ends** at the first reply that is no identity, with all that came before it. -/
theorem collect_ends (s : ScriptedSegment) :
    ∃ k, (∀ i < k, ∃ text, s.reaction i = .serial text) ∧ (collect s).2 = s.afterReads (k + 1) ∧
      ((s.reaction k = .silence ∧ ∃ units, List.Forall₂ Tells (s.replies.take k) units ∧
          (collect s).1 = .ok units) ∨
        ∃ e, s.reaction k = .failure e ∧ (collect s).1 = .error e) := by
  -- A read takes one reply, and once there is none left it gives silence.
  induction hreplies : s.replies generalizing s with
  | nil =>
    have hsilence : s.reaction 0 = .silence := by
      rw [reaction, reply, hreplies]
      rfl
    rcases s.collect_scripted with ⟨-, hend⟩ | ⟨e, he, -⟩ | ⟨unit, hunit, -⟩
    · exact ⟨0, nofun, by rw [hend], .inl ⟨hsilence, [], .nil, by rw [hend]⟩⟩
    · exact nomatch hsilence.symm.trans he
    · exact nomatch hsilence.symm.trans hunit
  | cons first rest ih =>
    rcases s.collect_scripted with ⟨hsilence, hend⟩ | ⟨e, he, hend⟩ | ⟨unit, hunit, htells, hmore⟩
    · exact ⟨0, nofun, by rw [hend], .inl ⟨hsilence, [], .nil, by rw [hend]⟩⟩
    · exact ⟨0, nofun, by rw [hend], .inr ⟨e, he, by rw [hend]⟩⟩
    · have hrest : (s.afterReads 1).replies = rest := by
        rw [afterReads, hreplies]
        rfl
      obtain ⟨k, hbefore, hafter, hresult⟩ := ih (s.afterReads 1) hrest
      rw [afterReads_afterReads, Nat.add_comm 1] at hafter
      simp only [reaction_afterReads, Nat.add_comm 1] at hbefore hresult
      have hreply : s.reply 0 = first := by
        rw [reply, hreplies]
        rfl
      rw [hreply] at htells
      refine ⟨k + 1, fun i hi ↦ ?_, by rw [hmore, hafter], ?_⟩
      · cases i with
        | zero => exact ⟨_, hunit⟩
        | succ i => exact hbefore i (Nat.lt_of_succ_lt_succ hi)
      · rw [hmore]
        rcases hresult with ⟨hsilence, units, hunits, hok⟩ | ⟨e, he, herror⟩
        · exact .inl ⟨hsilence, unit :: units, .cons htells (hrest ▸ hunits), by rw [hok]; rfl⟩
        · exact .inr ⟨e, he, by rw [herror]; rfl⟩

/-- The query is sent once, and the replies are collected only behind it. -/
theorem scanSegment_eq (s : ScriptedSegment) :
    let queried : ScriptedSegment := { s with calls := s.calls ++ [.send "*IDN?\r\n" 100] }
    scanSegment s =
      match s.writeFailure with
      | some e => (.error e, queried)
      | none => collect queried := by
  have hsend : Driver.send identify scanWriteTimeout s = s.send "*IDN?\r\n" 100 := rfl
  rw [scanSegment, hsend, send]
  cases s.writeFailure <;> rfl

/-- **A scan of a segment, exactly.** The query is sent once, and if that fails nothing is read.
Otherwise replies are taken one by one up to the first that is no identity, and behind the script
there is silence. If that one is silence, each reply before it gives one unit, in their order;
otherwise it gives its failure. What follows it is left unread. -/
theorem scanSegment_scripted (s : ScriptedSegment) :
    (∀ e, s.writeFailure = some e →
      scanSegment s = (.error e, { s with calls := s.calls ++ [.send "*IDN?\r\n" 100] })) ∧
    (s.writeFailure = none →
      ∃ k, (∀ i < k, ∃ text, s.reaction i = .serial text) ∧
        (scanSegment s).2 = { s with
          replies := s.replies.drop (k + 1)
          calls := s.calls ++ .send "*IDN?\r\n" 100 :: List.replicate (k + 1) (.readFrom 100) } ∧
        ((s.reaction k = .silence ∧ ∃ units, List.Forall₂ Tells (s.replies.take k) units ∧
            (scanSegment s).1 = .ok units) ∨
          ∃ e, s.reaction k = .failure e ∧ (scanSegment s).1 = .error e)) := by
  rw [s.scanSegment_eq]
  refine ⟨fun e he ↦ by rw [he], fun hnone ↦ ?_⟩
  obtain ⟨k, hbefore, hafter, hresult⟩ :=
    ({ s with calls := s.calls ++ [.send "*IDN?\r\n" 100] } : ScriptedSegment).collect_ends
  simp only [hnone] at hafter hresult ⊢
  refine ⟨k, hbefore, ?_, hresult⟩
  rw [hafter, afterReads, List.append_assoc]
  rfl

/-- A unit that answers twice is found twice, the silence after it is the end, and what comes later
is left; a transmission that fails is the end as well. -/
theorem scanSegment_scripted_twice :
    let line : AttributedLine := ⟨"a,b, S1 ,d", .v4 ⟨127, 0, 0, 2⟩⟩
    let s : ScriptedSegment :=
      { replies := [.ok line, .ok line, .error .readTimedOut, .ok line] }
    let broken : ScriptedSegment := { s with writeFailure := some .sendTimedOut }
    (scanSegment s).1 = .ok [⟨.v4 ⟨127, 0, 0, 2⟩, "S1"⟩, ⟨.v4 ⟨127, 0, 0, 2⟩, "S1"⟩] ∧
      (scanSegment s).2.replies = [.ok line] ∧
      (scanSegment broken).1 = .error .sendTimedOut := by
  intro line s broken
  obtain ⟨k, hbefore, hafter, hresult⟩ := s.scanSegment_scripted.2 rfl
  have hserial : serialField? line.line = some "S1" := by decide
  -- The third reply is the first that is no identity.
  have hle : k ≤ 2 := Nat.not_lt.mp fun hlt ↦ by
    obtain ⟨text, htext⟩ := hbefore 2 hlt
    exact nomatch htext
  obtain rfl : k = 2 := by
    rcases hresult with ⟨hsilence, -⟩ | ⟨e, he, -⟩
    · match k, hle, hsilence with
      | 2, _, _ => rfl
    · match k, hle, he with
      | 2, _, _ => rfl
  refine ⟨?_, by rw [hafter]; rfl, by rw [(broken.scanSegment_scripted).1 _ rfl]⟩
  have htells : ∀ unit, Tells (.ok line) unit → unit = ⟨line.source, "S1"⟩ := by
    rintro ⟨ip, serial⟩ ⟨_, ⟨⟩, hip, hfield⟩
    cases hip
    cases hserial.symm.trans hfield
    rfl
  obtain ⟨-, units, hunits, hok⟩ | ⟨e, he, -⟩ := hresult
  · obtain - | ⟨hfirst, - | ⟨hsecond, ⟨⟩⟩⟩ := hunits
    rw [hok, htells _ hfirst, htells _ hsecond]
  · exact nomatch he

end ScriptedSegment

end BatteryBench
