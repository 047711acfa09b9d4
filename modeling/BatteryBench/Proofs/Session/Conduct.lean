import BatteryBench.Proofs.Client.Conduct
import BatteryBench.Session

/-!
# Sessions over scripted drivers

A session moves its client between scripted drivers, queues replies, sets write failures, and asks
the client to do something in between. Whatever came before, an operation obeys the rules of
`Operation.Conduct` on the driver that is attached then, with the replies that are queued then,
stale ones included, and touches no other driver (`Session.conduct_of_steps`).

What carries this through a run is that a client over scripted drivers stays one
(`Session.attached_step`): no step of this kind opens a link.
-/

namespace BatteryBench

/-- Whether a step of a session is about scripted drivers and the client only. -/
def SessionStep.isScripted : SessionStep → Bool
  | .connect _ | .link _ => false
  | _ => true

/-! ### Drivers of another sort -/

/-- That drivers are used in the same way wherever they stand among drivers of another sort. -/
structure Driver.Embeds {σ τ : Type} [Driver σ] [Driver τ] (f : σ → τ) : Prop where
  /-- They are as send-only. -/
  sendOnly : ∀ d, Driver.sendOnly (f d) = Driver.sendOnly d
  /-- They send in the same way. -/
  send : ∀ t ms d, Driver.send t ms (f d) = (Driver.send t ms d).map id f
  /-- They read in the same way. -/
  readLine : ∀ ms d, Driver.readLine ms (f d) = (Driver.readLine ms d).map id f

theorem AnyDriver.embeds_scripted : Driver.Embeds AnyDriver.scripted :=
  ⟨fun _ ↦ rfl, fun _ _ _ ↦ rfl, fun _ _ ↦ rfl⟩

theorem AnyDriver.embeds_link : Driver.Embeds AnyDriver.link :=
  ⟨fun _ ↦ rfl, fun _ _ _ ↦ rfl, fun _ _ ↦ rfl⟩

namespace Client

section Along

variable {σ τ : Type} [Driver σ] [Driver τ] {f : σ → τ}

/-- A client of a driver as one of a driver of another sort. -/
def along (f : σ → τ) (c : Client σ) : Client τ := ⟨c.driver.map f, c.readTimeout⟩

theorem transmit_along (hf : Driver.Embeds f) (buffer : Text) (c : Client σ) :
    (c.along f).transmit buffer = (c.transmit buffer).map id (along f) := by
  obtain ⟨driver, readTimeout⟩ := c
  cases driver with
  | none => rfl
  | some d => simp only [transmit, along, Option.map_some, hf.send, Prod.map, id]

theorem receive_along (hf : Driver.Embeds f) (c : Client σ) :
    (c.along f).receive = c.receive.map id (along f) := by
  obtain ⟨driver, readTimeout⟩ := c
  cases driver with
  | none => rfl
  | some d => simp only [receive, along, Option.map_some, hf.readLine, Prod.map, id]

theorem exchange_along (hf : Driver.Embeds f) (buffer : Text) (c : Client σ) :
    (c.along f).exchange buffer = (c.exchange buffer).map id (along f) := by
  have hsend : (c.along f).driver.any Driver.sendOnly = c.driver.any Driver.sendOnly := by
    obtain ⟨driver, readTimeout⟩ := c
    cases driver with
    | none => rfl
    | some d => exact hf.sendOnly d
  rw [exchange, exchange, hsend, transmit_along hf]
  split
  · rfl
  · rcases c.transmit buffer with ⟨e | v, c'⟩
    · rfl
    · exact receive_along hf c'

/-- A client uses a driver in the same way wherever it stands among drivers of another sort. -/
theorem run_along (hf : Driver.Embeds f) {α : Type} (r : Request α) (c : Client σ) :
    (c.along f).run r = (c.run r).map id (along f) := by
  cases r with
  | refused reason => rfl
  | done answer => rfl
  | command buffer answer =>
    rw [run, run, transmit_along hf]
    rcases c.transmit buffer with ⟨e | v, c'⟩ <;> rfl
  | query buffer parse =>
    rw [run, run, exchange_along hf]
    rcases c.exchange buffer with ⟨e | line, c'⟩ <;> rfl

end Along

/-! ### What becomes of a driver -/

section Driver

variable {σ α : Type} [Driver σ]

/-- A client without a driver stays as it is. -/
theorem run_snd_of_none (r : Request α) (ms : Nat) :
    ((⟨none, ms⟩ : Client σ).run r).2 = ⟨none, ms⟩ := by
  cases r <;> rfl

/-- What sending and reading keep true of a driver, a client keeps true of it. -/
theorem exists_driver_run {P : σ → Prop}
    (hsend : ∀ t ms d, P d → P (Driver.send t ms d).2)
    (hread : ∀ ms d, P d → P (Driver.readLine ms d).2) (r : Request α) {d : σ} (hd : P d)
    (ms : Nat) : ∃ d', ((⟨some d, ms⟩ : Client σ).run r).2 = ⟨some d', ms⟩ ∧ P d' := by
  cases r with
  | refused reason => exact ⟨d, rfl, hd⟩
  | done answer => exact ⟨d, rfl, hd⟩
  | command buffer answer =>
    refine ⟨_, ?_, hsend buffer writeTimeout d hd⟩
    simp only [run, transmit]
    cases (Driver.send buffer writeTimeout d).1 <;> rfl
  | query buffer parse =>
    by_cases honly : Driver.sendOnly d
    · exact ⟨d, by simp [run, exchange, honly], hd⟩
    · have hsent := hsend buffer writeTimeout d hd
      rcases hsend' : Driver.send buffer writeTimeout d with ⟨e | v, d'⟩ <;> rw [hsend'] at hsent
      · exact ⟨d', by simp [run, exchange, honly, transmit, hsend'], hsent⟩
      · refine ⟨_, ?_, hread ms d' hsent⟩
        simp only [run, exchange, Option.any_some, honly, transmit, hsend', receive]
        cases (Driver.readLine ms d').1 <;> rfl

end Driver

/-! ### A client of scripted drivers -/

/-- A client of a scripted driver as one of a driver of any sort. -/
def toAny (c : Client ScriptedUnit) : Client AnyDriver :=
  ⟨c.driver.map AnyDriver.scripted, c.readTimeout⟩

/-- A client uses a scripted driver in the same way wherever it stands among drivers of other sorts.
-/
theorem run_toAny {α : Type} (r : Request α) (c : Client ScriptedUnit) :
    c.toAny.run r = (c.run r).map id toAny :=
  run_along AnyDriver.embeds_scripted r c

/-- A client keeps its driver, in whatever state. -/
theorem isSome_driver_run {α : Type} (r : Request α) (c : Client ScriptedUnit) :
    (c.run r).2.driver.isSome = c.driver.isSome := by
  obtain ⟨driver, readTimeout⟩ := c
  cases driver with
  | none => rw [run_snd_of_none]
  | some u =>
    obtain ⟨u', hrun, -⟩ := exists_driver_run (P := fun _ ↦ True) (fun _ _ _ _ ↦ trivial)
      (fun _ _ _ ↦ trivial) r (d := u) trivial readTimeout
    rw [hrun]
    rfl

end Client

namespace Session

/-- The scripted driver that is attached, if one is. -/
def attachedUnit (s : Session) : Option ScriptedUnit :=
  match s.attached with
  | some (.scripted name) => some (s.scripted name)
  | _ => none

/-! ### One step -/

/-- The client of a session without a link. -/
theorem client_eq {s : Session} (hs : s.attached ≠ some .link) :
    s.client = Client.toAny ⟨s.attachedUnit, s.readTimeout⟩ := by
  rw [client, attachedUnit]
  rcases h : s.attached with - | (name | -)
  · rfl
  · rfl
  · exact absurd h hs

theorem attached_putClient (c : Client AnyDriver) (s : Session) :
    (s.putClient c).attached = s.attached := by
  rw [putClient]
  split <;> rfl

/-- A driver that is not attached is left alone. -/
theorem scripted_putClient (c : Client AnyDriver) {s : Session} {name : Text}
    (h : s.attached ≠ some (.scripted name)) : (s.putClient c).scripted name = s.scripted name := by
  rw [putClient]
  split
  · next attached unit hs hd =>
    have hne : name ≠ attached := fun heq ↦ h (heq ▸ hs)
    simp [putScripted, hne]
  · rfl
  · rfl

theorem link_putClient_toAny (c : Client ScriptedUnit) (s : Session) :
    (s.putClient c.toAny).link = s.link := by
  rw [putClient]
  split
  · rfl
  · next l hs hd =>
    rw [Client.toAny, Option.map_eq_some_iff] at hd
    obtain ⟨u, -, hu⟩ := hd
    cases hu
  · rfl

theorem readTimeout_putClient (c : Client AnyDriver) (s : Session) :
    (s.putClient c).readTimeout = s.readTimeout := by
  rw [putClient]
  split <;> rfl

/-- The attached driver is in the state in which the client left it. -/
theorem attachedUnit_putClient {s : Session} {c : Client ScriptedUnit}
    (hc : c.driver.isSome = s.attachedUnit.isSome) :
    (s.putClient c.toAny).attachedUnit = c.driver := by
  obtain ⟨driver, readTimeout⟩ := c
  rw [attachedUnit, attached_putClient]
  rcases h : s.attached with - | (name | -) <;> simp only [attachedUnit, h] at hc ⊢
  · exact (Option.isSome_eq_false_iff.mp hc |> Option.isNone_iff_eq_none.mp).symm
  · obtain ⟨u, rfl⟩ := Option.isSome_iff_exists.mp hc
    simp [putClient, Client.toAny, h, putScripted]
  · exact (Option.isSome_eq_false_iff.mp hc |> Option.isNone_iff_eq_none.mp).symm

/-- The calls that a step shows are those that the attached driver has had since. -/
theorem calls_observe {s after : Session} (hattached : after.attached = s.attached)
    (hs : s.attached ≠ some .link) (hrest : s.attached = none → after = s) :
    (after.scripted s.driverName).calls.drop (s.scripted s.driverName).calls.length =
      Client.newCalls s.attachedUnit after.attachedUnit := by
  rw [attachedUnit, attachedUnit, hattached, driverName]
  rcases h : s.attached with - | (name | -)
  · rw [hrest h]
    exact List.drop_length
  · rfl
  · exact absurd h hs

/-- Queued replies are no calls. -/
theorem calls_enqueue (s : Session) (driver : Text) (replies : List (Outcome Text)) (name : Text) :
    ((s.putScripted driver ((s.scripted driver).enqueue replies)).scripted name).calls =
      (s.scripted name).calls := by
  rw [putScripted]
  by_cases h : name = driver
  · simp [h, ScriptedUnit.enqueue]
  · simp [h]

/-- No step over scripted drivers attaches a link. -/
theorem attached_step (net : Network) {s : Session} (hs : s.attached ≠ some .link) {t : SessionStep}
    (ht : t.isScripted) : (s.step net t).2.attached ≠ some .link := by
  cases t with
  | perform driver replies op =>
    show (putClient _ _).attached ≠ _
    rw [attached_putClient]
    exact hs
  | setDriver driver =>
    show driver.map Attachment.scripted ≠ _
    cases driver <;> simp
  | selectDevice id =>
    show (putClient _ _).attached ≠ _
    rw [attached_putClient]
    exact hs
  | failWrites _ _ | setReadTimeout _ | readTimeout | driver => exact hs
  | connect _ | link _ => cases ht

/-! ### Runs -/

theorem attached_steps (net : Network) {s : Session} (hs : s.attached ≠ some .link)
    {ts : List SessionStep} (hts : ∀ t ∈ ts, t.isScripted) :
    (s.steps net ts).2.attached ≠ some .link := by
  induction ts generalizing s with
  | nil => exact hs
  | cons t ts ih =>
    exact ih (attached_step net hs (hts t List.mem_cons_self))
      fun t' ht' ↦ hts t' (List.mem_cons_of_mem _ ht')

/-- A step in the middle of a run shows what it shows after the steps before it. -/
theorem getElem?_steps (net : Network) (s : Session) (before : List SessionStep) (t : SessionStep)
    (later : List SessionStep) :
    (s.steps net (before ++ t :: later)).1[before.length]? =
      some ((s.steps net before).2.observe net t).1 := by
  induction before generalizing s with
  | nil => rfl
  | cons b before ih => exact ih (s.observe net b).2

/-- **Every operation of every session over scripted drivers keeps the rules**, on the driver
attached at that time and with the replies queued on it by then, and changes nothing else. -/
theorem conduct_of_steps (net : Network) {s₀ : Session} (hs₀ : s₀.attached ≠ some .link)
    (before later : List SessionStep) (hbefore : ∀ t ∈ before, t.isScripted) (driver : Text)
    (replies : List (Outcome Text)) (op : Operation) :
    let t : SessionStep := .perform driver replies op
    let s := (s₀.steps net before).2
    let queued := s.putScripted driver ((s.scripted driver).enqueue replies)
    let after := (s.step net t).2
    ∃ shown r, (s₀.steps net (before ++ t :: later)).1[before.length]? = some shown ∧
      shown.answer = .result op r ∧
      op.Conduct s.readTimeout queued.attachedUnit after.attachedUnit r shown.calls ∧
      after.attached = s.attached ∧ after.readTimeout = s.readTimeout ∧ after.link = s.link ∧
      ∀ name, s.attached ≠ some (.scripted name) → after.scripted name = queued.scripted name := by
  intro t s queued after
  have hs : s.attached ≠ some .link := attached_steps net hs₀ hbefore
  have hqueued : queued.attached ≠ some .link := hs
  -- The rules are about a client of one scripted driver; the session's client is taken as one.
  let c : Client ScriptedUnit := ⟨queued.attachedUnit, queued.readTimeout⟩
  have hclient : queued.client.perform op = (c.perform op).map id Client.toAny := by
    rw [client_eq hqueued, Client.perform, Client.run_toAny]
    rfl
  have hstep : s.step net t = (.result op (c.perform op).1,
      queued.putClient (c.perform op).2.toAny) := by
    show (SessionAnswer.result op (queued.client.perform op).1,
      queued.putClient (queued.client.perform op).2) = _
    rw [hclient]
    rfl
  have hafter : after = queued.putClient (c.perform op).2.toAny := congrArg Prod.snd hstep
  have hunit : after.attachedUnit = (c.perform op).2.driver := by
    rw [hafter, attachedUnit_putClient]
    exact Client.isSome_driver_run op.request c
  have hattached : after.attached = queued.attached := hafter ▸ attached_putClient _ _
  have hcalls : ((s.observe net t).1).calls =
      Client.newCalls queued.attachedUnit after.attachedUnit := by
    rw [← calls_observe hattached hqueued, calls_enqueue]
    · rfl
    · intro hnone
      rw [hafter, putClient, hnone]
  refine ⟨_, (c.perform op).1, getElem?_steps net s₀ before t later, congrArg Prod.fst hstep, ?_,
    hattached, hafter ▸ readTimeout_putClient _ _, hafter ▸ link_putClient_toAny _ _,
    fun name hname ↦ hafter ▸ scripted_putClient _ hname⟩
  rw [hcalls, hunit]
  exact Client.conduct_perform op c

/-- A reply that nobody read answers a later query, also after the client was elsewhere. -/
theorem conduct_of_steps_stale_reply :
    let net := Network.isolated []
    let s₀ : Session := {
      scripted := fun _ ↦ {}
      link := Link.closed .tcp
      attached := some (.scripted ['A']) }
    let before : List SessionStep := [.perform ['A'] [.ok ['7']] .restart, .setDriver (some ['B']),
      .setReadTimeout 20, .setDriver (some ['A'])]
    s₀.attached ≠ some .link ∧ (∀ t ∈ before, t.isScripted) ∧
      ∃ shown, (s₀.steps net (before ++ [.perform ['A'] [.ok ['9']] .getAlarms])).1[4]? =
          some shown ∧
        shown.answer = .result .getAlarms (.ok 7) ∧
        shown.calls = [.send ("ALAR?" ++ lineEnd) 250, .readLine 20] := by
  intro net s₀ before
  have hs₀ : s₀.attached ≠ some .link := by decide
  have hbefore : ∀ t ∈ before, t.isScripted := by simp [before, SessionStep.isScripted]
  obtain ⟨shown, r, hshown, hanswer, hconduct, -⟩ :=
    conduct_of_steps net hs₀ before [] hbefore ['A'] [.ok ['9']] .getAlarms
  obtain ⟨buffer, parse, hreq, hr, hcalls, -⟩ :=
    hconduct.asked ⟨rfl, rfl⟩ _ rfl rfl rfl rfl
  obtain ⟨rfl, rfl⟩ : "ALAR?" ++ lineEnd = buffer ∧ Reply.uint32 = parse := Request.query.inj hreq
  refine ⟨hs₀, hbefore, shown, hshown, ?_, hcalls⟩
  rw [hanswer, hr]
  rfl

end Session

end BatteryBench
