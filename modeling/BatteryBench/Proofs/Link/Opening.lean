import BatteryBench.Proofs.Link.SendOnly

/-!
# Opening a link

What one step does to whether a link is open. An attempt to open a link either opens one that was
closed or changes nothing (`Link.attempt`), and no other step but closing matters
(`Link.isOpen_step`).

A closed link fails to open for the reasons of its transport (`openingFailures`), each of which
there is a host for. Opening a link that is open fails, with a failure that the texts of the
addresses decide (`reopenFailure`): each transport but the bus looks at them before it looks at
itself.

Over a closed link nothing is read or written, and nothing reaches the unit
(`Link.reached_step_of_closed`).
-/

namespace BatteryBench

/-! ### Hosts that refuse -/

namespace Network

/-- A host that refuses one call on sockets, and is otherwise as given. -/
def refusing (net : Network) (call : SocketCall) : Network :=
  { net with allows := fun other host ↦ other != call && net.allows other host }

/-- A host on which every address leads to the same end, and that is otherwise as given. -/
def leading (net : Network) (route : Route) : Network := { net with route := fun _ ↦ route }

end Network

/-! ### Addresses and openings -/

/-- The texts that opening a link reads as addresses. The name of a port is none. -/
def addressTexts (kind : Transport) (interface : Option Text) (address : Text) : List Text :=
  match kind with
  | .serial => []
  | .tcp | .multicast => [address]
  | .udp => interface.toList ++ [address]

/-- Why a link that is open cannot be opened: an address is none, or it is open. -/
def reopenFailure (kind : Transport) (interface : Option Text) (address : Text) : Failure :=
  if ∀ text ∈ addressTexts kind interface address, (IPv4.parse text).isOk then .alreadyConnected
  else .invalidIPAddress

/-- The failures that the opening of a closed link of a transport can come to. -/
def openingFailures : Transport → List Failure
  | .tcp => [.invalidIPAddress, .connectionTimedOut, .connectionFailed]
  | .udp => [.invalidIPAddress, .failedToBindSocket, .socketError]
  | .multicast => [.invalidIPAddress, .failedToBindSocket, .failedToJoinGroup, .socketError]
  | .serial => [.openingSerialPortFailed, .failedToConfigurePort]

theorem invalidIPAddress_mem_openingFailures {kind : Transport} {interface : Option Text}
    {address text : Text} (h : text ∈ addressTexts kind interface address) :
    .invalidIPAddress ∈ openingFailures kind := by
  cases kind with
  | serial => cases h
  | tcp | udp | multicast => exact List.mem_cons_self

/-- The transport of a link over datagrams. -/
def Casting.transport : Casting → Transport
  | .unicast => .udp
  | .multicast => .multicast

/-- A call on a socket is refused for one of the reasons of its transport. -/
theorem failure_mem_openingFailures {casting : Casting} {call : SocketCall}
    (h : call ∈ casting.calls) : call.failure ∈ openingFailures casting.transport := by
  revert call
  cases casting <;> decide

namespace DatagramLink

variable {casting : Casting}

/-- What it comes to that a socket is opened. -/
inductive Opening (net : Network) (host target : IPv4) (l : DatagramLink casting) : Prop
  /-- The link has one. -/
  | isOpen (hopen : l.isOpen)
      (heq : l.openTo net host target = (.error .alreadyConnected, l))
  /-- The host refuses a call that makes it ready, and nothing is opened. -/
  | refused (hclosed : l.isOpen = false) (call : SocketCall) (hcall : call ∈ casting.calls)
      (hprepare : net.prepare host casting.calls = .error call.failure)
      (heq : l.openTo net host target = (.error call.failure, l))
  /-- The link has it. -/
  | opened (hclosed : l.isOpen = false) (hprepare : net.prepare host casting.calls = .ok ())
      (heq : l.openTo net host target =
        (.ok (), { l with socket := some { interface := host, route := net.route target } }))

theorem opening (net : Network) (host target : IPv4) (l : DatagramLink casting) :
    l.Opening net host target := by
  cases hopen : l.socket.isSome with
  | true => exact .isOpen hopen (if_pos hopen)
  | false =>
    have hclosed : ¬l.socket.isSome := Bool.eq_false_iff.mp hopen
    cases hprepare : net.prepare host casting.calls with
    | error e =>
      obtain ⟨call, hfind, rfl⟩ := Network.prepare_eq_error_iff.mp hprepare
      exact .refused hopen call (List.mem_of_find?_eq_some hfind) hprepare
        (by rw [openTo, if_neg hclosed, hprepare])
    | ok v => exact .opened hopen hprepare (by rw [openTo, if_neg hclosed, hprepare])

theorem received_openTo (net : Network) (host target : IPv4) (l : DatagramLink casting) :
    (l.openTo net host target).2.received = l.received := by
  cases l.opening net host target with
  | isOpen _ heq | refused _ _ _ _ heq | opened _ _ heq => rw [heq]

end DatagramLink

namespace Link

/-- What an attempt to open a link can come to, and what follows for the link. -/
inductive Attempt (net : Network) (interface : Option Text) (address : Text) (limit : UInt64)
    (l : Link) : Prop
  /-- It fails, and changes nothing. -/
  | fails (e : Failure) (heq : l.connect net interface address limit = (.error e, l))
      (hopen : l.isOpen → e = reopenFailure l.transport interface address)
      (hclosed : l.isOpen = false → e ∈ openingFailures l.transport)
  /-- It opens a link that was closed. -/
  | opens (l' : Link) (heq : l.connect net interface address limit = (.ok (), l'))
      (hclosed : l.isOpen = false) (hopen : l'.isOpen)

namespace Attempt

variable {net : Network} {interface : Option Text} {address : Text} {limit : UInt64} {l : Link}

/-- It fails for a text that is no address. -/
theorem of_text {text : Text} {e : Failure}
    (hmem : text ∈ addressTexts l.transport interface address) (hparse : IPv4.parse text = .error e)
    (heq : l.connect net interface address limit = (.error e, l)) :
    l.Attempt net interface address limit := by
  rw [IPv4.parse_eq_error hparse] at heq
  refine .fails .invalidIPAddress heq (fun _ ↦ (if_neg fun hall ↦ ?_).symm)
    fun _ ↦ invalidIPAddress_mem_openingFailures hmem
  have hok := hall text hmem
  rw [hparse] at hok
  cases hok

/-- It fails for a link that is open, once the addresses are read. -/
theorem of_isOpen (hopen : l.isOpen)
    (htexts : ∀ text ∈ addressTexts l.transport interface address, ∃ ip, IPv4.parse text = .ok ip)
    (heq : l.connect net interface address limit = (.error .alreadyConnected, l)) :
    l.Attempt net interface address limit := by
  refine .fails .alreadyConnected heq (fun _ ↦ (if_pos fun text hmem ↦ ?_).symm)
    fun hclosed ↦ nomatch hclosed.symm.trans hopen
  obtain ⟨ip, hip⟩ := htexts text hmem
  rw [hip]
  rfl

/-- It fails for what is at the other end, of which an open link knows nothing. -/
theorem of_closed {e : Failure} (hclosed : l.isOpen = false)
    (hreason : e ∈ openingFailures l.transport)
    (heq : l.connect net interface address limit = (.error e, l)) :
    l.Attempt net interface address limit :=
  .fails e heq (fun hopen ↦ nomatch hclosed.symm.trans hopen) fun _ ↦ hreason

end Attempt

variable (net : Network)

theorem attempt_tcp (interface : Option Text) (address : Text) (limit : UInt64) (l : TcpLink) :
    (tcp l).Attempt net interface address limit := by
  have hconnect : (tcp l).connect net interface address limit =
      (l.connect net address limit).map id tcp := rfl
  rw [TcpLink.connect] at hconnect
  cases hparse : IPv4.parse address with
  | error e =>
    rw [hparse] at hconnect
    exact .of_text List.mem_cons_self hparse hconnect
  | ok ip =>
    rw [hparse] at hconnect
    cases hopen : l.isOpen with
    | true =>
      simp only [hopen, if_true] at hconnect
      exact .of_isOpen hopen (List.forall_mem_singleton.mpr ⟨ip, hparse⟩) hconnect
    | false =>
      simp only [hopen, Bool.false_eq_true, if_false] at hconnect
      cases hroute : net.routeWithin limit ip with
      | unit =>
        rw [hroute] at hconnect
        exact .opens _ hconnect hopen rfl
      | silent | refusing | unreachable =>
        rw [hroute] at hconnect
        exact .of_closed hopen (by simp [openingFailures, transport]) hconnect

theorem attempt_udp (interface : Option Text) (address : Text) (limit : UInt64) (l : UdpLink) :
    (udp l).Attempt net interface address limit := by
  have hconnect : (udp l).connect net interface address limit =
      (l.connect net interface address).map id udp := rfl
  rw [UdpLink.connect] at hconnect
  -- The interface is read before the address, and only if there is one.
  cases hhost : (interface.map IPv4.parse).getD (.ok .unspecified) with
  | error e =>
    rw [hhost] at hconnect
    cases interface with
    | none => cases hhost
    | some text => exact .of_text (List.mem_append_left _ List.mem_cons_self) hhost hconnect
  | ok host =>
    rw [hhost] at hconnect
    cases htarget : IPv4.parse address with
    | error e =>
      rw [htarget] at hconnect
      exact .of_text (List.mem_append_right _ List.mem_cons_self) htarget hconnect
    | ok target =>
      simp only [htarget] at hconnect
      cases l.opening net host target with
      | isOpen hopen heq =>
        rw [heq] at hconnect
        refine .of_isOpen hopen (List.forall_mem_append.mpr ⟨fun text hmem ↦ ?_,
          List.forall_mem_singleton.mpr ⟨target, htarget⟩⟩) hconnect
        rw [Option.mem_toList] at hmem
        rw [hmem] at hhost
        exact ⟨host, hhost⟩
      | refused hclosed call hcall _ heq =>
        rw [heq] at hconnect
        exact .of_closed hclosed (failure_mem_openingFailures hcall) hconnect
      | opened hclosed hprepare heq =>
        rw [heq] at hconnect
        exact .opens _ hconnect hclosed rfl

theorem attempt_multicast (interface : Option Text) (address : Text) (limit : UInt64)
    (l : MulticastLink) : (multicast l).Attempt net interface address limit := by
  have hconnect : (multicast l).connect net interface address limit =
      (l.connect net address).map id multicast := rfl
  rw [MulticastLink.connect] at hconnect
  cases hparse : IPv4.parse address with
  | error e =>
    rw [hparse] at hconnect
    exact .of_text List.mem_cons_self hparse hconnect
  | ok host =>
    simp only [hparse] at hconnect
    cases l.opening net host multicastGroup with
    | isOpen hopen heq =>
      rw [heq] at hconnect
      exact .of_isOpen hopen (List.forall_mem_singleton.mpr ⟨host, hparse⟩) hconnect
    | refused hclosed call hcall _ heq =>
      rw [heq] at hconnect
      exact .of_closed hclosed (failure_mem_openingFailures hcall) hconnect
    | opened hclosed hprepare heq =>
      rw [heq] at hconnect
      exact .opens _ hconnect hclosed rfl

theorem attempt_serial (interface : Option Text) (address : Text) (limit : UInt64)
    (l : SerialLink) : (serial l).Attempt net interface address limit := by
  have hconnect : (serial l).connect net interface address limit =
      (l.connect net address).map id serial := rfl
  -- A port is no address, so there is nothing to read before the link itself.
  rw [SerialLink.connect] at hconnect
  cases hopen : l.isOpen with
  | true =>
    rw [hopen, if_pos rfl] at hconnect
    exact .of_isOpen hopen (List.forall_mem_nil _) hconnect
  | false =>
    rw [hopen, if_neg Bool.false_ne_true] at hconnect
    split_ifs at hconnect
    · exact .of_closed hopen (by simp [openingFailures, transport]) hconnect
    · exact .of_closed hopen (by simp [openingFailures, transport]) hconnect
    · exact .opens _ hconnect hopen rfl

/-- **Every attempt to open a link** either changes nothing or opens a link that was closed. -/
theorem attempt (interface : Option Text) (address : Text) (limit : UInt64) (l : Link) :
    l.Attempt net interface address limit := by
  cases l with
  | tcp l => exact attempt_tcp net interface address limit l
  | udp l => exact attempt_udp net interface address limit l
  | multicast l => exact attempt_multicast net interface address limit l
  | serial l => exact attempt_serial net interface address limit l

/-! ### Why an opening fails -/

/-- **A closed link fails to open for one of the reasons of its transport.** -/
theorem mem_openingFailures {l : Link} (hclosed : l.isOpen = false) {interface : Option Text}
    {address : Text} {limit : UInt64} {e : Failure}
    (h : (l.connect net interface address limit).1 = .error e) :
    e ∈ openingFailures l.transport := by
  cases attempt net interface address limit l with
  | fails e' heq _ hreason =>
    rw [heq] at h
    obtain rfl : e' = e := Except.error.inj h
    exact hreason hclosed
  | opens l' heq =>
    rw [heq] at h
    cases h

/-- **Every one of them happens**, on some host. -/
theorem exists_connect_of_mem_openingFailures {kind : Transport} {e : Failure}
    (h : e ∈ openingFailures kind) :
    ∃ net address, ((closed kind).connect net none address).1 = .error e := by
  let host := Network.bench .unspecified ['P']
  cases kind with
  | tcp =>
    simp only [openingFailures, List.mem_cons, List.not_mem_nil, or_false] at h
    obtain rfl | rfl | rfl := h
    · exact ⟨host, [], by decide⟩
    · exact ⟨host.leading .silent, "127.0.0.1", by decide⟩
    · exact ⟨host.leading .refusing, "127.0.0.1", by decide⟩
  | udp =>
    simp only [openingFailures, List.mem_cons, List.not_mem_nil, or_false] at h
    obtain rfl | rfl | rfl := h
    · exact ⟨host, [], by decide⟩
    · exact ⟨host.refusing .bind, "127.0.0.1", by decide⟩
    · exact ⟨host.refusing .register, "127.0.0.1", by decide⟩
  | multicast =>
    simp only [openingFailures, List.mem_cons, List.not_mem_nil, or_false] at h
    obtain rfl | rfl | rfl | rfl := h
    · exact ⟨host, [], by decide⟩
    · exact ⟨host.refusing .bind, "127.0.0.1", by decide⟩
    · exact ⟨host.refusing .join, "127.0.0.1", by decide⟩
    · exact ⟨host.refusing .route, "127.0.0.1", by decide⟩
  | serial =>
    simp only [openingFailures, List.mem_cons, List.not_mem_nil, or_false] at h
    obtain rfl | rfl := h
    · exact ⟨host, [], by decide⟩
    · exact ⟨{ host with configures := fun _ ↦ false }, ['P'], by decide⟩

/-! ### What an attempt changes -/

variable {net} {l : Link}

/-- **An open link cannot be opened**, and trying to changes nothing. -/
theorem connect_of_isOpen (h : l.isOpen) (interface : Option Text) (address : Text)
    (limit : UInt64) :
    l.connect net interface address limit =
      (.error (reopenFailure l.transport interface address), l) := by
  cases attempt net interface address limit l with
  | fails e heq hopen => rw [heq, hopen h]
  | opens l' heq hclosed => exact nomatch hclosed.symm.trans h

/-- **An opening that fails changes nothing**, whether or not the link is open. -/
theorem connect_of_error {interface : Option Text} {address : Text} {limit : UInt64} {e : Failure}
    (h : (l.connect net interface address limit).1 = .error e) :
    l.connect net interface address limit = (.error e, l) := by
  cases attempt net interface address limit l with
  | fails e' heq =>
    rw [heq] at h
    obtain rfl : e' = e := Except.error.inj h
    exact heq
  | opens l' heq =>
    rw [heq] at h
    cases h

end Link

/-! ### What a step can change -/

/-- What is left of some bytes when a line of them is taken is their end. -/
theorem takeLine?_suffix {received line rest : Bytes} (h : takeLine? received = some (line, rest)) :
    rest <:+ received := by
  obtain ⟨⟨first, last⟩, hsplit, heq⟩ := Option.map_eq_some_iff.mp h
  obtain ⟨hreceived, -⟩ := splitLine?_eq_some_iff.mp hsplit
  cases heq
  exact ⟨first ++ [0x0a], by rw [hreceived, List.append_assoc]; rfl⟩

namespace TcpLink

variable (l : TcpLink)

theorem received_connect (net : Network) (address : Text) (limit : UInt64) :
    (l.connect net address limit).2.received <:+ l.received := by
  rw [connect]
  split
  · exact List.suffix_rfl
  · split
    · exact List.suffix_rfl
    · split
      · exact List.nil_suffix
      · exact List.suffix_rfl
      · exact List.suffix_rfl
      · exact List.suffix_rfl

theorem received_unitSend (bytes : Bytes) : (l.unitSend bytes).2.received = l.received := by
  rw [unitSend]
  split
  · split <;> rfl
  · rfl

theorem received_unitReceive : l.unitReceive.2.received <:+ l.received := by
  rw [unitReceive]
  split
  · next hline => exact takeLine?_suffix hline
  · exact List.suffix_rfl

end TcpLink

namespace SerialLink

variable (l : SerialLink)

theorem received_connect (net : Network) (port : Text) :
    (l.connect net port).2.received = l.received := by
  rw [connect]
  split_ifs <;> rfl

theorem write_snd (p : Payload) :
    ∃ received, (l.write p).2 = { l with received := received } := by
  rw [write]
  split_ifs <;> exact ⟨_, rfl⟩

theorem readLine_snd : ∃ flow, l.readLine.2 = { l with flow := flow } := by
  rw [readLine]
  split_ifs <;> exact ⟨_, rfl⟩

theorem unitSend_snd (bytes : Bytes) : ∃ flow, (l.unitSend bytes).2 = { l with flow := flow } := by
  rw [unitSend]
  split_ifs <;> exact ⟨_, rfl⟩

theorem unitReceive_snd :
    ∃ rest, rest <:+ l.received ∧ l.unitReceive.2 = { l with received := rest } := by
  rw [unitReceive]
  split
  · next hline => exact ⟨_, takeLine?_suffix hline, rfl⟩
  · exact ⟨_, List.suffix_rfl, rfl⟩

end SerialLink

theorem UdpLink.received_connect (net : Network) (interface : Option Text) (address : Text)
    (l : UdpLink) : (l.connect net interface address).2.received = l.received := by
  rw [connect]
  split
  · rfl
  · split
    · rfl
    · exact l.received_openTo net _ _

theorem MulticastLink.received_connect (net : Network) (interface : Text) (l : MulticastLink) :
    (l.connect net interface).2.received = l.received := by
  rw [connect]
  split
  · rfl
  · exact l.received_openTo net _ _

namespace DatagramLink

variable {casting : Casting} (l : DatagramLink casting)

theorem socket_write (p : Payload) : (l.write p).2.socket = l.socket := by
  rw [write]
  split
  · rfl
  · split
    · rfl
    · split <;> rfl

theorem isOpen_take : l.take.2.isOpen = l.isOpen := by
  rw [take]
  split
  · rfl
  · next s hs =>
    split
    · rw [isOpen, isOpen, hs]
      rfl
    · rfl

theorem unitSend_snd (d : Datagram) :
    ∃ socket, socket.isSome = l.isOpen ∧ (l.unitSend d).2 = { l with socket := socket } := by
  rw [unitSend, isOpen]
  split
  · next s hs =>
    split
    · exact ⟨some _, by rw [hs]; rfl, rfl⟩
    · exact ⟨l.socket, rfl, rfl⟩
  · exact ⟨l.socket, rfl, rfl⟩

theorem unitReceive_snd :
    ∃ rest, rest <:+ l.received ∧ l.unitReceive.2 = { l with received := rest } := by
  rw [unitReceive]
  split
  · next bytes rest hreceived => exact ⟨rest, hreceived ▸ List.suffix_cons bytes rest, rfl⟩
  · exact ⟨_, List.suffix_rfl, rfl⟩

end DatagramLink

/-! ### Steps that neither open nor close -/

namespace Link

variable {net : Network} {l : Link}

theorem isOpen_write (p : Payload) (l : Link) : (l.write p).2.isOpen = l.isOpen := by
  cases l with
  | tcp l => exact congrArg Option.isSome (l.connection_write p)
  | udp l | multicast l => exact congrArg Option.isSome (l.socket_write p)
  | serial l =>
    obtain ⟨received, h⟩ := l.write_snd p
    show (l.write p).2.isOpen = l.isOpen
    rw [h]

theorem isOpen_readLine (l : Link) : l.readLine.2.isOpen = l.isOpen := by
  cases l with
  | tcp l => exact (congrArg Option.isSome l.connection_readLine).trans Option.isSome_map
  | udp l | multicast l => exact l.isOpen_take
  | serial l =>
    obtain ⟨flow, h⟩ := l.readLine_snd
    show l.readLine.2.isOpen = l.isOpen
    rw [h]

theorem isOpen_unitSend (source : IPv4) (bytes : Bytes) (l : Link) :
    (l.unitSend source bytes).2.isOpen = l.isOpen := by
  cases l with
  | tcp l =>
    rcases l.connection_unitSend bytes with hc | hc
    · exact congrArg Option.isSome hc
    · exact (congrArg Option.isSome hc).trans Option.isSome_map
  | udp l | multicast l =>
    obtain ⟨socket, hopen, h⟩ := l.unitSend_snd ⟨source, bytes⟩
    exact (congrArg DatagramLink.isOpen h).trans hopen
  | serial l =>
    obtain ⟨flow, h⟩ := l.unitSend_snd bytes
    show (l.unitSend bytes).2.isOpen = l.isOpen
    rw [h]

theorem isOpen_unitReceive (l : Link) : l.unitReceive.2.isOpen = l.isOpen := by
  cases l with
  | tcp l => exact congrArg Option.isSome l.connection_unitReceive
  | udp l | multicast l =>
    obtain ⟨rest, -, h⟩ := l.unitReceive_snd
    show l.unitReceive.2.isOpen = l.isOpen
    rw [h]
    rfl
  | serial l =>
    obtain ⟨rest, -, h⟩ := l.unitReceive_snd
    show l.unitReceive.2.isOpen = l.isOpen
    rw [h]

theorem isOpen_readFrom (l : Link) : l.readFrom.2.isOpen = l.isOpen := by
  cases l with
  | multicast l => exact l.isOpen_take
  | tcp l | udp l | serial l => rfl

theorem isOpen_unitFinish (l : Link) : l.unitFinish.isOpen = l.isOpen := by
  cases l with
  | tcp l => exact Option.isSome_map
  | udp l | multicast l | serial l => rfl

theorem isOpen_unitReset (l : Link) : l.unitReset.isOpen = l.isOpen := by
  cases l with
  | tcp l => exact Option.isSome_map
  | udp l | multicast l | serial l => rfl

theorem isOpen_close (l : Link) : l.close.isOpen = false := by cases l <;> rfl

theorem isOpen_selectDevice (id : UInt32) (l : Link) : (l.selectDevice id).isOpen = l.isOpen := by
  cases l <;> rfl

/-- **Only openings that succeed and closings matter** to whether a link is open. -/
theorem isOpen_step (net : Network) (l : Link) (t : LinkStep) :
    (l.step net t).2.isOpen ↔
      (∃ interface address limit, t = .connect interface address limit ∧
        (l.connect net interface address limit).1 = .ok ()) ∨
      t ≠ .close ∧ l.isOpen := by
  cases t with
  | connect interface address limit =>
    show (l.connect net interface address limit).2.isOpen ↔ _
    cases attempt net interface address limit l with
    | fails e heq => simp [heq]
    | opens l' heq hclosed hopen => simp [heq, hopen]
  | close => simp [step, isOpen_close]
  | write p => simp [step, isOpen_write]
  | read => simp [step, isOpen_readLine]
  | readFrom => simp [step, isOpen_readFrom]
  | unitSend source p => simp [step, isOpen_unitSend]
  | unitReceive => simp [step, isOpen_unitReceive]
  | selectDevice id => simp [step, isOpen_selectDevice]
  | unitFinish => simp [step, isOpen_unitFinish]
  | unitReset => simp [step, isOpen_unitReset]
  | isOpen | localAddress | device => simp [step]

end Link

/-! ### A closed link -/

theorem TcpLink.connection_of_closed {l : TcpLink} (h : l.isOpen = false) : l.connection = none :=
  Option.isNone_iff_eq_none.mp (Option.isSome_eq_false_iff.mp h)

namespace DatagramLink

variable {casting : Casting} {l : DatagramLink casting}

theorem socket_of_closed (h : l.isOpen = false) : l.socket = none :=
  Option.isNone_iff_eq_none.mp (Option.isSome_eq_false_iff.mp h)

theorem take_of_closed (h : l.isOpen = false) : l.take = (.error .notConnected, l) := by
  rw [take, socket_of_closed h]

theorem write_of_closed (h : l.isOpen = false) (p : Payload) :
    l.write p = (.error .notConnected, l) := by
  rw [write, socket_of_closed h]

end DatagramLink

namespace Link

variable {net : Network} {l : Link}

/-- **A closed link is not read from.** -/
theorem readLine_of_closed (h : l.isOpen = false) : l.readLine = (.error .notConnected, l) := by
  cases l with
  | tcp l =>
    rw [readLine, TcpLink.readLine, TcpLink.connection_of_closed h]
    rfl
  | serial l =>
    have hclosed : l.isOpen = false := h
    rw [readLine, SerialLink.readLine, hclosed]
    rfl
  | udp l =>
    rw [readLine, DatagramLink.readLine, DatagramLink.take_of_closed h]
    rfl
  | multicast l =>
    rw [readLine, DatagramLink.readLine, DatagramLink.take_of_closed h]
    rfl

/-- A closed link is not read from with the source either, where reads can tell it. -/
theorem readFrom_of_closed (h : l.isOpen = false) (hkind : l.transport = .multicast) :
    l.readFrom = (.error .notConnected, l) := by
  cases l with
  | multicast l =>
    rw [readFrom, DatagramLink.readFrom, DatagramLink.take_of_closed h]
    rfl
  | tcp l | udp l | serial l => cases hkind

/-- **A closed link is not written to.** -/
theorem write_of_closed (h : l.isOpen = false) (p : Payload) :
    l.write p = (.error .notConnected, l) := by
  cases l with
  | tcp l =>
    rw [write, TcpLink.write, TcpLink.connection_of_closed h]
    rfl
  | serial l =>
    have hclosed : l.isOpen = false := h
    rw [write, SerialLink.write, hclosed]
    rfl
  | udp l =>
    rw [write, DatagramLink.write_of_closed h]
    rfl
  | multicast l =>
    rw [write, DatagramLink.write_of_closed h]
    rfl

/-- What has reached the unit and was not taken there: datagrams, or the bytes of a stream. -/
def reached : Link → List Bytes
  | tcp l => l.received.map fun b ↦ [b]
  | serial l => l.received.map fun b ↦ [b]
  | udp l => l.received
  | multicast l => l.received

theorem reached_connect (net : Network) (interface : Option Text) (address : Text) (limit : UInt64)
    (l : Link) : (l.connect net interface address limit).2.reached <:+ l.reached := by
  cases l with
  | tcp l => exact (l.received_connect net address limit).map _
  | serial l => exact ⟨[], congrArg (List.map _) (l.received_connect net address)⟩
  | udp l => exact ⟨[], l.received_connect net interface address⟩
  | multicast l => exact ⟨[], l.received_connect net address⟩

theorem reached_unitSend (source : IPv4) (bytes : Bytes) (l : Link) :
    (l.unitSend source bytes).2.reached = l.reached := by
  cases l with
  | tcp l => exact congrArg (List.map _) (l.received_unitSend bytes)
  | serial l =>
    obtain ⟨flow, h⟩ := l.unitSend_snd bytes
    show ((l.unitSend bytes).2.received.map fun b ↦ [b]) = _
    rw [h]
    rfl
  | udp l | multicast l =>
    obtain ⟨socket, -, h⟩ := l.unitSend_snd ⟨source, bytes⟩
    show (l.unitSend ⟨source, bytes⟩).2.received = _
    rw [h]
    rfl

theorem reached_unitReceive (l : Link) : l.unitReceive.2.reached <:+ l.reached := by
  cases l with
  | tcp l => exact l.received_unitReceive.map _
  | serial l =>
    obtain ⟨rest, hrest, h⟩ := l.unitReceive_snd
    show (l.unitReceive.2.received.map fun b ↦ [b]) <:+ _
    rw [h]
    exact hrest.map _
  | udp l | multicast l =>
    obtain ⟨rest, hrest, h⟩ := l.unitReceive_snd
    show l.unitReceive.2.received <:+ _
    rw [h]
    exact hrest

/-- **Nothing reaches the unit over a closed link**; it can only take what has, and a new
connection gives that up. -/
theorem reached_step_of_closed (h : l.isOpen = false) (t : LinkStep) :
    (l.step net t).2.reached <:+ l.reached := by
  cases t with
  | connect interface address limit => exact reached_connect net interface address limit l
  | write p =>
    rw [step, write_of_closed h]
    exact List.suffix_rfl
  | read =>
    rw [step, readLine_of_closed h]
    exact List.suffix_rfl
  | readFrom =>
    cases l with
    | multicast l =>
      rw [step, readFrom_of_closed h rfl]
      exact List.suffix_rfl
    | tcp l | udp l | serial l => exact List.suffix_rfl
  | unitSend source p => exact ⟨[], reached_unitSend source p.bytes l⟩
  | unitReceive => exact reached_unitReceive l
  | close | selectDevice _ | unitFinish | unitReset => cases l <;> exact List.suffix_rfl
  | isOpen | localAddress | device => exact List.suffix_rfl

end Link

end BatteryBench
