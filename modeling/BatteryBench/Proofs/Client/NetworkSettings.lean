import BatteryBench.Proofs.Address.IPv4
import BatteryBench.Proofs.Client.Queries
import BatteryBench.Proofs.Text.Quotation

/-!
# Network settings

The two addresses that a user typed are checked before anything is sent. What is sent is not what
was typed but the two dotted quads, each as one quoted string (`EthernetSettings.argument`), so
nothing else can get into the command; and since a dotted quad has one form, the two quads are what
is typed without the white space around it.

A unit reports its addresses in the same form. So a reply that consists of that argument, padding
aside, is read as the two addresses that were set (`addresses_canonical`).
-/

namespace BatteryBench

namespace EthernetSettings

/-- Whether both settings are addresses, white space around them aside. -/
def AreAddresses (settings : EthernetSettings) : Prop :=
  (∃ ip, WritesQuad (stripWhiteSpace settings.ip) ip) ∧
    ∃ netmask, WritesQuad (stripWhiteSpace settings.netmask) netmask

/-- The settings without white space around them. -/
def stripped (settings : EthernetSettings) : EthernetSettings :=
  ⟨stripWhiteSpace settings.ip, stripWhiteSpace settings.netmask⟩

/-- Both settings between double quotes, with a comma between them. -/
def argument (settings : EthernetSettings) : Text :=
  '"' :: settings.ip ++ "\",\"" ++ settings.netmask ++ ['"']

/-- Addresses are quoted as they are. -/
theorem argument_text (ip netmask : IPv4) :
    argument ⟨ip.text, netmask.text⟩ = quote ip.text ++ "," ++ quote netmask.text := by
  have hplain (ip : IPv4) : quote ip.text = '"' :: ip.text ++ ['"'] := by
    rw [quote, doubled_of_not_mem (IPv4.not_mem_text (by decide) (by decide)), List.cons_append]
  simp [argument, hplain]

end EthernetSettings

namespace Operation

/-- Settings that are no addresses are refused. -/
theorem storeEthernet_of_not {settings : EthernetSettings} (h : ¬settings.AreAddresses) :
    storeEthernet settings = .refused .invalidIPAddress := by
  rw [storeEthernet]
  cases hip : IPv4.parse settings.ip with
  | error e => rw [IPv4.parse_eq_error hip]
  | ok ip =>
    cases hnetmask : IPv4.parse settings.netmask with
    | error e => rw [IPv4.parse_eq_error hnetmask]
    | ok netmask =>
      exact absurd ⟨⟨ip, writesQuad_iff.mpr (IPv4.parse_eq_ok_iff.mp hip)⟩, netmask,
        writesQuad_iff.mpr (IPv4.parse_eq_ok_iff.mp hnetmask)⟩ h

/-- Addresses are sent without the white space around them, and as nothing else. -/
theorem storeEthernet_of_areAddresses {settings : EthernetSettings} (h : settings.AreAddresses) :
    storeEthernet settings =
      .command ("SYST:NET:ADDR " ++ settings.stripped.argument ++ lineEnd) () := by
  obtain ⟨⟨ip, hip⟩, netmask, hnetmask⟩ := h
  rw [writesQuad_iff] at hip hnetmask
  rw [EthernetSettings.stripped, hip, hnetmask, EthernetSettings.argument_text]
  simp only [storeEthernet, IPv4.parse_eq_ok_iff.mpr hip, IPv4.parse_eq_ok_iff.mpr hnetmask, plain,
    List.append_assoc]

end Operation

/-- Two quoted addresses are read, padding around them aside. -/
theorem Reply.ethernet_argument {settings : EthernetSettings} (h : settings.AreAddresses)
    {a b : Text} (ha : IsAllPadding a) (hb : IsAllPadding b) :
    Reply.ethernet (a ++ settings.stripped.argument ++ b) = .ok settings.stripped := by
  obtain ⟨⟨ip, hip⟩, netmask, hnetmask⟩ := h
  rw [writesQuad_iff] at hip hnetmask
  rw [EthernetSettings.stripped, hip, hnetmask, Reply.Reads.ethernet.padded ha hb,
    EthernetSettings.argument_text]
  have hitem (value : Text) : IsQuotedItem value (quote value) :=
    ⟨[], '"', [], isAllPadding_nil, .inl rfl, isAllPadding_nil, by simp [quotedBy_eq_quote]⟩
  have hlist : IsQuotedList [ip.text, netmask.text]
      (quote ip.text ++ "," ++ quote netmask.text) := by
    simpa using IsQuotedList.more (hitem ip.text) (.single (hitem netmask.text))
  have hread : Reply.texts 2 (quote ip.text ++ "," ++ quote netmask.text) = .ok _ :=
    (Reply.texts_eq_ok_iff (by decide)).mpr ⟨rfl, hlist⟩
  rw [Reply.ethernet, hread]

/-- A command without a result of its own is its transmission. -/
theorem Client.run_command {σ : Type} [Driver σ] (buffer : Text) (c : Client σ) :
    c.run (.command buffer ()) = c.transmit buffer := by
  rw [Client.run]
  rcases c.transmit buffer with ⟨e | v, after⟩ <;> rfl

/-- **Addresses are canonical, and nothing else is sent.** A text is read as an address exactly if
it is the dotted quad of the address between white space, and every other text is refused. Settings
that are not two addresses fail without any use of the driver. Of two addresses the dotted quads are
sent, as two quoted strings in one transmission, and a unit that reports its settings by the same
argument is understood to have just these addresses. -/
theorem addresses_canonical {σ : Type} [Driver σ] (settings : EthernetSettings) :
    (∀ t ip, IPv4.parse t = .ok ip ↔ WritesQuad (stripWhiteSpace t) ip) ∧
    (∀ t, IPv4.parse t = .error .invalidIPAddress ↔ ∀ ip, ¬WritesQuad (stripWhiteSpace t) ip) ∧
    (∀ t ip, WritesQuad (stripWhiteSpace t) ip ↔
      ∃ a b, IsAllWhiteSpace a ∧ IsAllWhiteSpace b ∧ t = a ++ ip.text ++ b) ∧
    (¬settings.AreAddresses →
      (∀ c : Client σ, c.perform (.setEthernet settings) = (.error .invalidIPAddress, c)) ∧
      ∀ c : Client ScriptedUnit,
        Client.newCalls c.driver (c.perform (.setEthernet settings)).2.driver = []) ∧
    (settings.AreAddresses →
      (∀ c : Client σ, c.perform (.setEthernet settings) =
        c.transmit ("SYST:NET:ADDR " ++ settings.stripped.argument ++ "\r\n")) ∧
      (∀ (u : ScriptedUnit) (ms : Nat),
        Client.newCalls (some u)
            ((⟨some u, ms⟩ : Client ScriptedUnit).perform (.setEthernet settings)).2.driver =
          [.send ("SYST:NET:ADDR " ++ settings.stripped.argument ++ "\r\n") 250]) ∧
      ∀ (c : Client σ) (a b : Text), IsAllPadding a → IsAllPadding b →
        (c.exchange "SYST:NET:ADDR?\r\n").1 = .ok (a ++ settings.stripped.argument ++ b) →
        (c.perform .getEthernet).1 = .ok settings.stripped) := by
  refine ⟨fun _ _ ↦ ?_, fun _ ↦ ?_, fun _ _ ↦ ?_, fun h ↦ ?_, fun h ↦ ?_⟩
  · rw [writesQuad_iff, IPv4.parse_eq_ok_iff]
  · simp only [writesQuad_iff, IPv4.parse_eq_error_iff, ne_eq]
  · rw [writesQuad_iff, IPv4.stripWhiteSpace_eq_text_iff]
  · have hrefused := Operation.storeEthernet_of_not h
    have hperform {τ : Type} [Driver τ] (c : Client τ) :
        c.perform (.setEthernet settings) = (.error .invalidIPAddress, c) := by
      simp only [Client.perform, Operation.request, hrefused, Client.run]
    refine ⟨hperform, fun c ↦ ?_⟩
    rw [hperform]
    rcases c with ⟨- | u, ms⟩ <;> simp [Client.newCalls]
  · have hsent := Operation.storeEthernet_of_areAddresses h
    have hperform {τ : Type} [Driver τ] (c : Client τ) :
        c.perform (.setEthernet settings) =
          c.transmit ("SYST:NET:ADDR " ++ settings.stripped.argument ++ "\r\n") := by
      rw [Client.perform, Operation.request, hsent]
      exact Client.run_command _ c
    refine ⟨hperform, fun u ms ↦ ?_, fun c a b ha hb hline ↦ ?_⟩
    · rw [hperform, Client.transmit_scripted]
      simp [Client.newCalls]
    · have hquestion : Operation.getEthernet.question? = some "SYST:NET:ADDR?\r\n" := rfl
      rw [Client.perform_of_question? hquestion, hline]
      exact Reply.ethernet_argument h ha hb

/-- A no-break space, a line end and a wide space are white space around the addresses; a netmask
with a leading zero in one octet is none. -/
theorem addresses_canonical_typed :
    let settings : EthernetSettings := ⟨"\u00a010.0.0.2\n", "\t255.255.255.0\u2003"⟩
    let refused : EthernetSettings := ⟨"10.0.0.2", "255.255.255.00"⟩
    let u : ScriptedUnit := { replies := [.ok "\"10.0.0.2\",\"255.255.255.0\"\r"] }
    let c : Client ScriptedUnit := ⟨some u, 150⟩
    ¬refused.AreAddresses ∧ c.perform (.setEthernet refused) = (.error .invalidIPAddress, c) ∧
      settings.AreAddresses ∧ IsAllPadding [] ∧ IsAllPadding ['\r'] ∧
      (c.exchange "SYST:NET:ADDR?\r\n").1 = .ok ([] ++ settings.stripped.argument ++ ['\r']) ∧
      (c.perform .getEthernet).1 = .ok ⟨"10.0.0.2", "255.255.255.0"⟩ := by
  intro settings refused u c
  obtain ⟨-, hnone, -, hrefused, -⟩ := @addresses_canonical ScriptedUnit _ refused
  obtain ⟨hsome, -, -, -, hset⟩ := @addresses_canonical ScriptedUnit _ settings
  have hbad : ¬refused.AreAddresses := fun ⟨_, netmask, hnetmask⟩ ↦
    (hnone refused.netmask).mp (by decide) netmask hnetmask
  have hgood : settings.AreAddresses :=
    ⟨⟨⟨10, 0, 0, 2⟩, (hsome _ _).mp (by decide)⟩, ⟨255, 255, 255, 0⟩, (hsome _ _).mp (by decide)⟩
  have hline : (c.exchange "SYST:NET:ADDR?\r\n").1 =
      .ok ([] ++ settings.stripped.argument ++ ['\r']) := by decide
  obtain ⟨-, -, hread⟩ := hset hgood
  exact ⟨hbad, (hrefused hbad).1 c, hgood, by decide, by decide, hline,
    hread c [] ['\r'] (by decide) (by decide) hline⟩

end BatteryBench
