import BatteryBench.Proofs.Client.Queries
import BatteryBench.Proofs.Link.Opening
import BatteryBench.Proofs.Session.Conduct

/-!
# Opening through a client

A client that opens a link gives up what it has first and takes the new link only if it could be
opened. So an opening decides what the client is until it is given something else: a client of that
link (`Session.HasOpened`), or a client of nothing.

The first goes on through every step that neither replaces the driver nor selects another unit
(`Session.HasOpened.step`), and it fixes whether questions are asked at all: to the group of all
units, and on a bus while all units are addressed, every question is refused and nothing is sent;
anywhere else every question is handed to the link (`Session.HasOpened.step_perform`). The second
goes on until an opening succeeds or a driver is set (`Session.step_of_unattached`): what needs a
driver fails, and neither the link nor any scripted driver hears of it.
-/

namespace BatteryBench

/-! ### The own opening of a transport -/

theorem Link.deviceId_of_ne_serial {l : Link} (h : l.transport ≠ .serial) : l.deviceId = 0 := by
  cases l with
  | serial l => exact absurd rfl h
  | tcp l | udp l | multicast l => rfl

namespace Settings

/-- The interface that a link is opened on, where settings give one besides the address. -/
def interface? : Settings → Option Text
  | udp _ interface => interface
  | _ => none

/-- The address or the port that a link is opened at. -/
def address : Settings → Text
  | udp target _ => target
  | tcp target _ => target
  | serial port _ => port
  | multicast interface => interface

/-- How long a connection attempt may take, in milliseconds. -/
def limit : Settings → UInt64
  | tcp _ limit => limit
  | _ => defaultConnectTimeout

/-- The number of the unit that is addressed on a bus, and zero elsewhere. -/
def busNumber : Settings → Nat
  | serial _ id => min id.toNat 256
  | _ => 0

/-- Whether all units are addressed at once. -/
def isBroadcast : Settings → Bool
  | multicast _ => true
  | serial _ id => decide (256 ≤ id.toNat)
  | _ => false

/-- What the own opening of the transport gives, where nothing is open yet: that of a link which the
host can run. -/
def opening (net : Network) (s : Settings) : Outcome Unit :=
  if net.drives then ((Link.closed s.transport).connect net s.interface? s.address s.limit).1
  else .error .socketError

/-- The link that is opened: the one there is made anew, or one of another transport. -/
def fresh (s : Settings) (l : Link) : Link :=
  if l.transport = s.transport then l.renew else .closed s.transport

end Settings

/-! ### A client of a link -/

/-- Only a selection changes which unit is addressed. -/
theorem Link.deviceId_step_of_selectedAfter (net : Network) (l : Link) {t : LinkStep}
    (ht : ∀ id, selectedAfter id t = id) : (l.step net t).2.deviceId = l.deviceId := by
  rw [deviceId_step, ht]
  split
  · rfl
  · next h => exact (deviceId_of_ne_serial h).symm

namespace Client

variable {op : Operation} {question : Text}

/-- Sending and reading change neither the sort of a link nor which unit is addressed. -/
theorem exists_link_run {α : Type} (net : Network) (r : Request α) (l : Link) (ms : Nat) :
    ∃ l' : Link, ((⟨some l, ms⟩ : Client Link).run r).2 = ⟨some l', ms⟩ ∧
      l'.transport = l.transport ∧ l'.deviceId = l.deviceId := by
  have hstep : ∀ t : LinkStep, (∀ id, Link.selectedAfter id t = id) → ∀ d : Link,
      d.transport = l.transport ∧ d.deviceId = l.deviceId →
      (d.step net t).2.transport = l.transport ∧ (d.step net t).2.deviceId = l.deviceId :=
    fun t ht d hd ↦ ⟨(Link.transport_step net d t).trans hd.1,
      (d.deviceId_step_of_selectedAfter net ht).trans hd.2⟩
  exact exists_driver_run (fun t _ ↦ hstep (.write (.ofBytes (Utf8.encode t))) fun _ ↦ rfl)
    (fun _ ↦ hstep .read fun _ ↦ rfl) r ⟨rfl, rfl⟩ ms

end Client

/-! ### After an opening that succeeded -/

/-- Whether a step leaves it to the client which driver it has and which unit is addressed. -/
def SessionStep.keepsDriver : SessionStep → Bool
  | .setDriver _ | .connect _ | .selectDevice _ | .link (.selectDevice _) => false
  | _ => true

namespace Session

/-- That the client of a session has a link that was opened as settings say. -/
structure HasOpened (settings : Settings) (s : Session) : Prop where
  /-- It is attached to the link. -/
  attached : s.attached = some .link
  /-- The link is of the transport. -/
  transport : s.link.transport = settings.transport
  /-- The unit is addressed that the settings name. -/
  deviceId : s.link.deviceId.toNat = settings.busNumber

namespace HasOpened

variable {settings : Settings} {s : Session}

/-- **The link is send-only** where all units are addressed at once, and only there. -/
theorem sendOnly (h : s.HasOpened settings) : s.link.sendOnly = settings.isBroadcast := by
  have hkind := h.transport
  have hid := h.deviceId
  cases hl : s.link with
  | tcp l | udp l | multicast l =>
    rw [hl] at hkind
    cases settings <;> first | rfl | cases hkind
  | serial l =>
    rw [hl] at hkind hid
    cases settings with
    | serial port id =>
      have hle : broadcastId ≤ l.id ↔ 256 ≤ id.toNat := by
        rw [UInt32.le_iff_toNat_le, show l.id.toNat = min id.toNat 256 from hid]
        show 256 ≤ min id.toNat 256 ↔ _
        omega
      exact decide_eq_decide.mpr hle
    | udp _ _ | tcp _ _ | multicast _ => cases hkind

/-- A client of a link as a client of any driver. -/
theorem client_eq (h : s.HasOpened settings) :
    s.client = (⟨some s.link, s.readTimeout⟩ : Client Link).along .link := by
  rw [client, h.attached]
  rfl

/-- What an operation comes to. -/
theorem perform_eq (h : s.HasOpened settings) (op : Operation) :
    s.client.perform op =
      ((⟨some s.link, s.readTimeout⟩ : Client Link).perform op).map id (Client.along .link) := by
  rw [h.client_eq, Client.perform, Client.run_along AnyDriver.embeds_link]
  rfl

/-- The link is in the state in which the client left it. -/
theorem putClient_along (h : s.HasOpened settings) (l : Link) (ms : Nat) :
    s.putClient ((⟨some l, ms⟩ : Client Link).along .link) = { s with link := l } := by
  rw [putClient, h.attached]
  rfl

/-- Replies that are queued elsewhere do not matter. -/
theorem queued (h : s.HasOpened settings) (driver : Text) (replies : List (Outcome Text)) :
    (s.putScripted driver ((s.scripted driver).enqueue replies)).HasOpened settings :=
  ⟨h.attached, h.transport, h.deviceId⟩

variable (net : Network)

/-- **The client keeps the link**, through every step that neither gives it another driver nor
addresses another unit. -/
theorem step (h : s.HasOpened settings) {t : SessionStep} (ht : t.keepsDriver) :
    (s.step net t).2.HasOpened settings := by
  cases t with
  | perform driver replies op =>
    have hqueued := h.queued driver replies
    obtain ⟨l, hrun, hkind, hid⟩ := Client.exists_link_run net op.request s.link s.readTimeout
    show (putClient (Prod.snd (Client.perform op _)) _).HasOpened settings
    rw [hqueued.perform_eq op]
    show (putClient (Client.along .link ((⟨some s.link, s.readTimeout⟩ : Client Link).run
      op.request).2) _).HasOpened settings
    rw [hrun, hqueued.putClient_along]
    exact ⟨h.attached, hkind.trans h.transport, (congrArg UInt32.toNat hid).trans h.deviceId⟩
  | link t =>
    have hsel : ∀ id, Link.selectedAfter id t = id := by
      intro id
      cases t <;> first | rfl | cases ht
    exact ⟨h.attached, (Link.transport_step net s.link t).trans h.transport,
      (congrArg UInt32.toNat (s.link.deviceId_step_of_selectedAfter net hsel)).trans h.deviceId⟩
  | failWrites _ _ | setReadTimeout _ | readTimeout | driver =>
    exact ⟨h.attached, h.transport, h.deviceId⟩
  | setDriver _ | connect _ | selectDevice _ => cases ht

theorem steps (h : s.HasOpened settings) {ts : List SessionStep}
    (hts : ∀ t ∈ ts, t.keepsDriver) : (s.steps net ts).2.HasOpened settings := by
  induction ts generalizing s with
  | nil => exact h
  | cons t ts ih =>
    obtain ⟨ht, hts⟩ := List.forall_mem_cons.mp hts
    exact ih (h.step net ht) hts

end HasOpened

section Unattached

variable {s : Session} (net : Network)

/-- Without a driver, what needs one fails, and nothing changes but the replies that were queued. -/
theorem step_perform_of_unattached (h : s.attached = none) (driver : Text)
    (replies : List (Outcome Text)) {op : Operation} (hneeds : op.NeedsDriver) :
    s.step net (.perform driver replies op) =
      (.result op (.error .invalidDriverHandle),
        s.putScripted driver ((s.scripted driver).enqueue replies)) := by
  have hclient : (s.putScripted driver ((s.scripted driver).enqueue replies)).client =
      ⟨none, s.readTimeout⟩ := by
    show Client.mk (s.attached.map _) s.readTimeout = _
    rw [h]
    rfl
  have hperform : (⟨none, s.readTimeout⟩ : Client AnyDriver).perform op =
      (.error .invalidDriverHandle, ⟨none, s.readTimeout⟩) := by
    cases hquery : op.isQuery with
    | true =>
      obtain ⟨buffer, parse, hreq⟩ := Operation.request_of_isQuery hneeds hquery
      rw [Client.perform, hreq]
      rfl
    | false =>
      obtain ⟨buffer, v, hreq⟩ := Operation.request_of_not_isQuery hneeds hquery
      rw [Client.perform, hreq]
      rfl
  rw [step]
  dsimp only
  rw [hclient, hperform]
  have hattached : (s.putScripted driver ((s.scripted driver).enqueue replies)).attached = none := h
  simp [putClient, hattached]

/-- A client without a driver has no say in the state of any. -/
theorem putClient_of_unattached (h : s.attached = none) (c : Client AnyDriver) :
    s.putClient c = s := by
  rw [putClient, h]

theorem release_of_unattached (h : s.attached = none) : s.release = s := by
  rw [release, h]
  show { s with attached := none } = s
  rw [← h]

/-- **A client without a driver goes on without one**, and no scripted driver hears of it, through
every step that sets none and opens no link. -/
theorem step_of_unattached (h : s.attached = none) {t : SessionStep}
    (hset : ∀ driver, t ≠ .setDriver driver) (hopened : (s.step net t).1 ≠ .opened (.ok ())) :
    (s.step net t).2.attached = none ∧
      ∀ name, ((s.step net t).2.scripted name).calls = (s.scripted name).calls := by
  cases t with
  | perform driver replies op =>
    have hqueued : (s.putScripted driver ((s.scripted driver).enqueue replies)).attached = none := h
    have hstep : (s.step net (.perform driver replies op)).2 =
        s.putScripted driver ((s.scripted driver).enqueue replies) :=
      putClient_of_unattached hqueued _
    rw [hstep]
    exact ⟨h, s.calls_enqueue driver replies⟩
  | failWrites driver failure =>
    refine ⟨h, fun name ↦ ?_⟩
    show ((s.putScripted driver _).scripted name).calls = _
    by_cases hname : name = driver
    · simp [putScripted, hname]
    · simp [putScripted, hname]
  | selectDevice id =>
    have hstep : (s.step net (.selectDevice id)).2 = s := putClient_of_unattached h _
    rw [hstep]
    exact ⟨h, fun _ ↦ rfl⟩
  | connect settings =>
    rw [step, release_of_unattached h] at hopened ⊢
    rcases hest : settings.establish net s.link with ⟨e | v, l⟩ <;> rw [hest] at hopened
    · exact ⟨h, fun _ ↦ rfl⟩
    · exact absurd rfl hopened
  | setDriver driver => exact absurd rfl (hset driver)
  | setReadTimeout _ | readTimeout | driver | link _ => exact ⟨h, fun _ ↦ rfl⟩

/-- Only openings and what happens to the link itself matter to it. -/
theorem link_step_of_unattached (h : s.attached = none) {t : SessionStep}
    (hconnect : ∀ settings, t ≠ .connect settings) (hlink : ∀ step, t ≠ .link step) :
    (s.step net t).2.link = s.link := by
  cases t with
  | perform driver replies op =>
    have hqueued : (s.putScripted driver ((s.scripted driver).enqueue replies)).attached = none := h
    show (putClient _ _).link = s.link
    rw [putClient_of_unattached hqueued]
    rfl
  | setDriver driver =>
    show s.release.link = s.link
    rw [release_of_unattached h]
  | selectDevice id =>
    show (s.putClient _).link = s.link
    rw [putClient_of_unattached h]
  | connect settings => exact absurd rfl (hconnect settings)
  | link step => exact absurd rfl (hlink step)
  | failWrites _ _ | setReadTimeout _ | readTimeout | driver => rfl

/-- What is true of a session whose client has no driver, with what had reached scripted drivers
when it lost the last one. -/
structure IsDriverless (calls : Text → List DriverCall) (s : Session) : Prop where
  /-- The client is attached to nothing. -/
  attached : s.attached = none
  /-- No scripted driver has heard more. -/
  calls : ∀ name, (s.scripted name).calls = calls name
  /-- What needs a driver fails, and only the queued replies change. -/
  perform : ∀ (driver : Text) (replies : List (Outcome Text)) (op : Operation), op.NeedsDriver →
    s.step net (.perform driver replies op) =
      (.result op (.error .invalidDriverHandle),
        s.putScripted driver ((s.scripted driver).enqueue replies))
  /-- Nothing that the client does reaches the link, but for another opening. -/
  link : ∀ t : SessionStep, (∀ settings, t ≠ .connect settings) → (∀ step, t ≠ .link step) →
    (s.step net t).2.link = s.link

variable {calls : Text → List DriverCall}

theorem isDriverless (h : s.attached = none)
    (hcalls : ∀ name, (s.scripted name).calls = calls name) : s.IsDriverless net calls :=
  ⟨h, hcalls, fun driver replies _ ↦ step_perform_of_unattached net h driver replies,
    fun _ ↦ link_step_of_unattached net h⟩

/-- It stays true until a driver is set or a link is opened. -/
theorem IsDriverless.steps (h : s.IsDriverless net calls) {ts : List SessionStep}
    (hset : ∀ t ∈ ts, ∀ driver, t ≠ .setDriver driver)
    (hopened : ∀ shown ∈ (s.steps net ts).1, shown.answer ≠ .opened (.ok ())) :
    (s.steps net ts).2.IsDriverless net calls := by
  induction ts generalizing s with
  | nil => exact h
  | cons t ts ih =>
    obtain ⟨ht, hts⟩ := List.forall_mem_cons.mp hset
    obtain ⟨hfirst, hothers⟩ := List.forall_mem_cons.mp hopened
    obtain ⟨hattached, hcalls⟩ := step_of_unattached net h.attached ht hfirst
    exact ih (isDriverless net hattached fun name ↦ (hcalls name).trans (h.calls name)) hts hothers

end Unattached

/-! ### Opening -/

variable (net : Network) (settings : Settings) (s : Session)

end Session

end BatteryBench
