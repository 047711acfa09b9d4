import BatteryBench.Json.Records
import BatteryBench.Proofs.Json.Members
import BatteryBench.Proofs.Json.Scalars
import BatteryBench.Settings

/-!
# Settings by their members

Settings are read from an object by the names of its members only (`Settings.HasFields`), each of
which is given at most once. So the members of the object may stand in any order, and members that
the transport does not know may stand between them (`Settings.Gives.of_perm`).

A member with a default may be left out, and its value is the default then
(`Settings.Gives.without`). A member that is known and given twice makes the object no settings
(`Settings.Gives.count_lt_two`), and so does one that is given as `null`, the interface of UDP apart
(`Settings.Gives.of_null_mem`).
-/

namespace BatteryBench

theorem Transport.ofName?_eq_some_iff {t : Text} {kind : Transport} :
    Transport.ofName? t = some kind ↔ t = kind.name := by
  constructor
  · intro h
    have hname := List.find?_some h
    exact (beq_iff_eq.mp hname).symm
  · rintro rfl
    exact Transport.ofName?_name kind

namespace Settings

open Json

/-! ### Fields -/

/-- That the fields of settings are given by members. -/
def HasFields (members : List (Text × Json)) : Settings → Prop
  | udp target interface =>
    textField? members "target_ip" = some target ∧
      field? members "interface_ip" (some none) optionalText? = some interface
  | tcp target connectTimeout =>
    textField? members "target_ip" = some target ∧
      field? members "connect_timeout_ms" (some (defaultConnectTimeout.toNat : Int))
        (toInteger? .uint64) = some (connectTimeout.toNat : Int)
  | serial port deviceId =>
    textField? members "port" = some port ∧
      field? members "device_id" (some 0) (toInteger? .uint32) = some (deviceId.toNat : Int)
  | multicast interface => textField? members "interface_ip" = some interface

variable {members members' : List (Text × Json)} {c : Settings}

/-- The value of a field that is an integer has the width, if its default does. -/
theorem contains_of_field? {w : Width} {name : Text} {d n : Int} (hd : w.contains d)
    (h : field? members name (some d) (toInteger? w) = some n) : w.contains n := by
  rcases eq_or_read_of_field? h with h | ⟨v, h⟩
  · exact Option.some.inj h ▸ hd
  · exact contains_of_toInteger? h

/-- Members give the fields of the settings that are read from them. -/
theorem hasFields_of_ofFields? {kind : Transport} (h : ofFields? members kind = some c) :
    c.transport = kind ∧ c.HasFields members := by
  cases kind with
  | udp =>
    rw [ofFields?] at h
    split at h
    · next target interface htarget hinterface =>
      obtain rfl := Option.some.inj h
      exact ⟨rfl, htarget, hinterface⟩
    · cases h
  | tcp =>
    rw [ofFields?] at h
    split at h
    · next target n htarget hn =>
      obtain rfl := Option.some.inj h
      have hrange := Width.unsigned_contains_iff.mp (contains_of_field? (by decide) hn)
      have hlt : n.toNat < 2 ^ 64 := by omega
      refine ⟨rfl, htarget, ?_⟩
      rw [hn, UInt64.toNat_ofNat_of_lt' hlt, Int.toNat_of_nonneg (by omega)]
    · cases h
  | serial =>
    rw [ofFields?] at h
    split at h
    · next port n hport hn =>
      obtain rfl := Option.some.inj h
      have hrange := Width.unsigned_contains_iff.mp (contains_of_field? (by decide) hn)
      have hlt : n.toNat < 2 ^ 32 := by omega
      refine ⟨rfl, hport, ?_⟩
      rw [hn, UInt32.toNat_ofNat_of_lt' hlt, Int.toNat_of_nonneg (by omega)]
    · cases h
  | multicast =>
    obtain ⟨interface, hinterface, rfl⟩ := Option.map_eq_some_iff.mp h
    exact ⟨rfl, hinterface⟩

/-- Settings are read from members that give their fields. -/
theorem HasFields.ofFields? (hc : c.HasFields members) :
    ofFields? members c.transport = some c := by
  cases c with
  | udp target interface =>
    obtain ⟨htarget, hinterface⟩ := hc
    rw [transport, Settings.ofFields?, htarget, hinterface]
  | tcp target connectTimeout =>
    obtain ⟨htarget, htimeout⟩ := hc
    rw [transport, Settings.ofFields?, htarget, htimeout]
    simp
  | serial port deviceId =>
    obtain ⟨hport, hid⟩ := hc
    rw [transport, Settings.ofFields?, hport, hid]
    simp
  | multicast interface =>
    replace hc : textField? members "interface_ip" = some interface := hc
    rw [transport, Settings.ofFields?, hc]
    rfl

/-- What is read from members are the settings whose fields they give. -/
theorem ofFields?_eq_some_iff {kind : Transport} :
    ofFields? members kind = some c ↔ c.transport = kind ∧ c.HasFields members := by
  refine ⟨hasFields_of_ofFields?, ?_⟩
  rintro ⟨rfl, hc⟩
  exact hc.ofFields?

/-- **Only the members of the fields matter.** -/
theorem HasFields.congr
    (h : ∀ name ∈ fieldNames c.transport, ∀ {α : Type} (absent : Option α) (read : Json → Option α),
      field? members' name absent read = field? members name absent read)
    (hc : c.HasFields members) : c.HasFields members' := by
  cases c with
  | udp target interface =>
    exact ⟨(h _ List.mem_cons_self _ _).trans hc.1,
      (h _ (List.mem_cons_of_mem _ List.mem_cons_self) _ _).trans hc.2⟩
  | tcp target connectTimeout =>
    exact ⟨(h _ List.mem_cons_self _ _).trans hc.1,
      (h _ (List.mem_cons_of_mem _ List.mem_cons_self) _ _).trans hc.2⟩
  | serial port deviceId =>
    exact ⟨(h _ List.mem_cons_self _ _).trans hc.1,
      (h _ (List.mem_cons_of_mem _ List.mem_cons_self) _ _).trans hc.2⟩
  | multicast interface => exact (h _ List.mem_cons_self _ _).trans hc

/-- Every field has a value, and `null` is none, the interface of UDP apart. -/
theorem HasFields.exists_field (hc : c.HasFields members) {name : Text}
    (hname : name ∈ fieldNames c.transport) :
    ∃ (α : Type) (absent : Option α) (read : Json → Option α) (a : α),
      field? members name absent read = some a ∧
        ((read .null).isSome → c.transport = .udp ∧ name = "interface_ip") := by
  cases c with
  | udp target interface =>
    rcases List.mem_pair.mp hname with rfl | rfl
    · exact ⟨_, _, _, _, hc.1, nofun⟩
    · exact ⟨_, _, _, _, hc.2, fun _ ↦ ⟨rfl, rfl⟩⟩
  | tcp target connectTimeout =>
    rcases List.mem_pair.mp hname with rfl | rfl
    · exact ⟨_, _, _, _, hc.1, nofun⟩
    · exact ⟨_, _, _, _, hc.2, nofun⟩
  | serial port deviceId =>
    rcases List.mem_pair.mp hname with rfl | rfl
    · exact ⟨_, _, _, _, hc.1, nofun⟩
    · exact ⟨_, _, _, _, hc.2, nofun⟩
  | multicast interface =>
    obtain rfl := List.mem_singleton.mp hname
    exact ⟨_, _, _, _, hc, nofun⟩

/-! ### Objects -/

/-- That the members of an object are settings. -/
structure Gives (members : List (Text × Json)) (c : Settings) : Prop where
  /-- All of them can be kept until the transport is known. -/
  plain : ∀ m ∈ members, m.1 ≠ tag → m.2.isPlain maxDepth
  /-- One of them names the transport. -/
  named : textField? members tag = some c.transport.name
  /-- They give the fields of that transport. -/
  fields : c.HasFields members

/-- The name of the transport is no name of a field. -/
theorem ne_tag_of_mem_fieldNames {kind : Transport} {name : Text} (h : name ∈ fieldNames kind) :
    name ≠ tag := by
  rintro rfl
  cases kind <;> revert h <;> decide

theorem ofObject?_eq_some_iff : ofObject? members = some c ↔ Gives members c := by
  have hrest : ∀ {c : Settings},
      c.HasFields (members.filter fun m ↦ m.1 != tag) ↔ c.HasFields members := by
    intro c
    have hsame : ∀ name ∈ fieldNames c.transport, ∀ {α : Type} (absent : Option α)
        (read : Json → Option α),
        field? (members.filter fun m ↦ m.1 != tag) name absent read =
          field? members name absent read := by
      intro name hname α absent read
      refine field?_filter fun m _ hm ↦ ?_
      exact bne_iff_ne.mpr (hm ▸ ne_tag_of_mem_fieldNames hname)
    exact ⟨.congr fun name hname _ absent read ↦ (hsame name hname absent read).symm,
      .congr fun name hname _ absent read ↦ hsame name hname absent read⟩
  have hplain : ((members.filter fun m ↦ m.1 != tag).all fun m ↦ m.2.isPlain maxDepth) ↔
      ∀ m ∈ members, m.1 ≠ tag → m.2.isPlain maxDepth := by
    rw [List.all_filter, List.all_eq_true]
    simp only [Bool.or_eq_true, Bool.not_eq_true', bne_eq_false_iff_eq, or_iff_not_imp_left]
  constructor
  · intro h
    simp only [ofObject?] at h
    split at h
    · next hkept =>
      split at h
      · next name hnamed =>
        obtain ⟨kind, hkind, hread⟩ := Option.bind_eq_some_iff.mp h
        obtain ⟨rfl, hfields⟩ := ofFields?_eq_some_iff.mp hread
        obtain rfl := Transport.ofName?_eq_some_iff.mp hkind
        exact ⟨hplain.mp hkept, hnamed, hrest.mp hfields⟩
      · cases h
    · cases h
  · rintro ⟨hkept, hnamed, hfields⟩
    simp only [ofObject?, if_pos (hplain.mpr hkept), hnamed, Transport.ofName?_name,
      Option.bind_some]
    exact ofFields?_eq_some_iff.mpr ⟨rfl, hrest.mpr hfields⟩

/-- Settings are read from an object exactly if its members are named ones that give them. -/
theorem ofJson?_object_eq_some_iff {ms : List (Option Text × Json)} :
    ofJson? (.object ms) = some c ↔
      ∃ members, ms = (members.map fun m ↦ (some m.1, m.2)) ∧ Gives members c := by
  rw [ofJson?, Option.bind_eq_some_iff]
  simp only [namedMembers?_eq_some_iff, ofObject?_eq_some_iff]

/-! ### Changes that settings survive -/

/-- A member that a transport does not know, with a value without parts. -/
def IsUnknown (kind : Transport) (m : Text × Json) : Prop :=
  m.1 ≠ tag ∧ m.1 ∉ fieldNames kind ∧ m.2.isScalar

instance (kind : Transport) (m : Text × Json) : Decidable (IsUnknown kind m) :=
  inferInstanceAs (Decidable (_ ∧ _ ∧ _))

/-- The name of the member that may be left out. -/
def optionalName? : Transport → Option Text
  | .udp => some "interface_ip"
  | .tcp => some "connect_timeout_ms"
  | .serial => some "device_id"
  | .multicast => none

/-- The settings with what may be left out as it is then. -/
def withDefault : Settings → Settings
  | udp target _ => udp target none
  | tcp target _ => tcp target 500
  | serial port _ => serial port 0
  | multicast interface => multicast interface

/-- The member by which settings for UDP say that they have no interface. -/
def noInterface : Text × Json := ("interface_ip", .null)

namespace Gives

/-- Settings do not depend on the order of the members, nor on members that the transport does not
know. -/
theorem of_perm {extras : List (Text × Json)} (h : Gives members c)
    (hextras : ∀ m ∈ extras, IsUnknown c.transport m) (hperm : members'.Perm (members ++ extras)) :
    Gives members' c := by
  have hsame : ∀ {name : Text}, (name = tag ∨ name ∈ fieldNames c.transport) →
      ∀ {α : Type} (absent : Option α) (read : Json → Option α),
        field? members' name absent read = field? members name absent read := by
    intro name hname α absent read
    rw [field?_of_perm hperm]
    refine field?_append fun m hm hm_name ↦ ?_
    obtain ⟨htag, hunknown, -⟩ := hextras m hm
    rcases hname with hname | hname
    · exact htag (hm_name.trans hname)
    · exact hunknown (hm_name ▸ hname)
  refine ⟨fun m hm htag ↦ ?_, ?_, h.fields.congr fun name hname ↦ hsame (.inr hname)⟩
  · rcases List.mem_append.mp (hperm.mem_iff.mp hm) with hm | hm
    · exact h.plain m hm htag
    · exact isPlain_of_isScalar (hextras m hm).2.2 _
  · exact (hsame (.inl rfl) none toText?).trans h.named

/-- What may be left out has its default then. -/
theorem without {name : Text} (h : Gives members c)
    (hname : optionalName? c.transport = some name) :
    Gives (members.filter fun m ↦ m.1 != name) c.withDefault := by
  have hother : ∀ {other : Text}, other ≠ name → ∀ {α : Type} (absent : Option α)
      (read : Json → Option α), field? (members.filter fun m ↦ m.1 != name) other absent read =
        field? members other absent read :=
    fun hne _ _ _ ↦ field?_filter fun m _ hm ↦ bne_iff_ne.mpr (hm ▸ hne)
  have hnone : ∀ {α : Type} (absent : Option α) (read : Json → Option α),
      field? (members.filter fun m ↦ m.1 != name) name absent read = absent :=
    fun _ _ ↦ field?_of_forall_ne fun m hm ↦ bne_iff_ne.mp (List.mem_filter.mp hm).2
  have hplain : ∀ m ∈ members.filter fun m ↦ m.1 != name, m.1 ≠ tag → m.2.isPlain maxDepth :=
    fun m hm ↦ h.plain m (List.mem_filter.mp hm).1
  have hnamed := h.named
  have hfields := h.fields
  cases c with
  | udp target interface =>
    obtain rfl := Option.some.inj hname
    exact ⟨hplain, (hother (by decide) _ _).trans hnamed,
      (hother (by decide) _ _).trans hfields.1, hnone _ _⟩
  | tcp target connectTimeout =>
    obtain rfl := Option.some.inj hname
    exact ⟨hplain, (hother (by decide) _ _).trans hnamed,
      (hother (by decide) _ _).trans hfields.1, hnone _ _⟩
  | serial port deviceId =>
    obtain rfl := Option.some.inj hname
    exact ⟨hplain, (hother (by decide) _ _).trans hnamed,
      (hother (by decide) _ _).trans hfields.1, hnone _ _⟩
  | multicast interface => cases hname

/-- An interface that is given as `null` is none. -/
theorem with_noInterface (h : Gives members c) (hc : c.transport = .udp) :
    Gives ((members.filter fun m ↦ m.1 != noInterface.1) ++ [noInterface]) c.withDefault := by
  have hwithout : Gives (members.filter fun m ↦ m.1 != noInterface.1) c.withDefault :=
    h.without (by rw [hc]; rfl)
  have hnone : (members.filter fun m ↦ m.1 != noInterface.1).filter
      (fun m ↦ m.1 == noInterface.1) = [] :=
    List.filter_eq_nil_iff.mpr fun m hm ↦ by simpa using (List.mem_filter.mp hm).2
  generalize members.filter (fun m ↦ m.1 != noInterface.1) = others at hwithout hnone ⊢
  have hother : ∀ {other : Text}, noInterface.1 ≠ other → ∀ {α : Type} (absent : Option α)
      (read : Json → Option α),
      field? (others ++ [noInterface]) other absent read = field? others other absent read :=
    fun hne _ _ _ ↦ field?_append (List.forall_mem_singleton.mpr hne)
  have hplain : ∀ m ∈ others ++ [noInterface], m.1 ≠ tag → m.2.isPlain maxDepth := by
    intro m hm htag
    rcases List.mem_append.mp hm with hm | hm
    · exact hwithout.plain m hm htag
    · rw [List.mem_singleton.mp hm]
      rfl
  cases c with
  | udp target interface =>
    refine ⟨hplain, (hother (by decide) _ _).trans hwithout.named,
      (hother (by decide) _ _).trans hwithout.fields.1, ?_⟩
    show field? _ noInterface.1 _ _ = _
    rw [field?, List.filter_append, hnone]
    rfl
  | tcp _ _ | serial _ _ | multicast _ => cases hc

/-! ### Members that are given wrongly -/

variable {name : Text}

/-- What is named is the transport of the settings. -/
theorem transport_eq (h : Gives members c) {kind : Transport}
    (htag : (tag, .ofText kind.name) ∈ members) : c.transport = kind := by
  have hread : some kind.name = some c.transport.name := read_of_mem h.named htag
  have hkind := Transport.ofName?_name c.transport
  rw [← Option.some.inj hread, Transport.ofName?_name] at hkind
  exact (Option.some.inj hkind).symm

/-- A member that is known has a value, which is not read from `null`, the interface of UDP
apart. -/
theorem exists_field (h : Gives members c) (hname : name = tag ∨ name ∈ fieldNames c.transport) :
    ∃ (α : Type) (absent : Option α) (read : Json → Option α) (a : α),
      field? members name absent read = some a ∧
        ((read .null).isSome → c.transport = .udp ∧ name = "interface_ip") := by
  rcases hname with rfl | hname
  · exact ⟨_, _, _, _, h.named, nofun⟩
  · exact h.fields.exists_field hname

/-- **A member that is known is given at most once.** -/
theorem count_lt_two (h : Gives members c) (hname : name = tag ∨ name ∈ fieldNames c.transport) :
    (members.map Prod.fst).count name < 2 := by
  obtain ⟨α, absent, read, a, hfield, -⟩ := h.exists_field hname
  by_contra htwo
  rw [field?_of_two (Nat.le_of_not_lt htwo)] at hfield
  cases hfield

/-- **Only the interface of UDP is given as `null`.** -/
theorem of_null_mem (h : Gives members c) (hname : name = tag ∨ name ∈ fieldNames c.transport)
    (hnull : (name, .null) ∈ members) : c.transport = .udp ∧ name = "interface_ip" := by
  obtain ⟨α, absent, read, a, hfield, honly⟩ := h.exists_field hname
  exact honly (Option.isSome_of_eq_some (read_of_mem hfield hnull))

end Gives

end Settings

end BatteryBench
