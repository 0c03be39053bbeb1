/-
  SelectiveRepeat.System.Proxy

  The sender and the receiver with the link simulator between them, as the tests run
  them.  All three are taken from the source.  Each pair is joined by UDP on one
  host, which may lose, duplicate and, if it is allowed to, reorder datagrams; what the
  simulator sends goes to the party that has the address.
-/
import SelectiveRepeat.Link.Order
import SelectiveRepeat.System.World

namespace SelectiveRepeat

open Channel

/-! ## The state -/

/-- The three programs, the datagrams between them, and what was read and written. -/
structure ProxyWorld where
  sender : SenderState
  senderStop : Option SenderStop
  receiver : ReceiverState
  receiverStop : Option ReceiverStop
  chunks : List Bytes
  written : List (Bytes × Int)
  link : LinkState
  linkStop : Bool
  fromSender : List Bytes
  toReceiver : List Bytes
  fromReceiver : List Bytes
  toSender : List Bytes

/-- What is sent to an address. -/
def arrivingAt (addr : SockAddr) (sent : List Outgoing) : List Bytes :=
  (sent.filter (·.addr = some addr)).map Outgoing.buf

namespace ProxyWorld

/-- The three programs as they are started; `block` is the memory of the queue and `now` the
    first reading of the simulator's clock. -/
def start (buf : Mem) (logger : Logger) (statsFile : Bool) (clock : Int) (mem : ReceiverMemory)
    (statFile : Bool) (block : Nat → PktSlot) (now : Int × Int) : ProxyWorld where
  sender := senderInit buf logger statsFile clock
  senderStop := none
  receiver := receiverInit mem statFile
  receiverStop := none
  chunks := []
  written := []
  link := linkInit block now
  linkStop := false
  fromSender := []
  toReceiver := []
  fromReceiver := []
  toSender := []

/-- After a turn of the sender. -/
def sends (p : ProxyWorld) (env : SenderEnv) (t : SenderTurn) : ProxyWorld :=
  { p with
    sender := t.state
    senderStop := t.stop
    chunks := p.chunks ++ env.chunkRead p.sender
    fromSender := p.fromSender ++ t.sent }

/-- After a turn of the receiver. -/
def replies (p : ProxyWorld) (t : ReceiverTurn) : ProxyWorld :=
  { p with
    receiver := t.state
    receiverStop := t.stop
    written := p.written ++ t.written
    fromReceiver := p.fromReceiver ++ t.sent }

/-- After a turn of the simulator. -/
def relays (p : ProxyWorld) (cfg : LinkConfig) (senderAddr : SockAddr) (t : LinkTurn) : ProxyWorld :=
  { p with
    link := t.state
    linkStop := t.stop
    toReceiver := p.toReceiver ++ arrivingAt cfg.dest_addr t.sent
    toSender := p.toSender ++ arrivingAt senderAddr t.sent }

/-- The two parties alone, with these datagrams in flight. -/
def view (p : ProxyWorld) (data acks : List Datagram) : World where
  sender := p.sender
  senderStop := p.senderStop
  receiver := p.receiver
  receiverStop := p.receiverStop
  chunks := p.chunks
  written := p.written
  data := data
  acks := acks

end ProxyWorld

/-! ## Steps -/

/-- UDP disturbs what is in flight, or one of the programs takes a turn. -/
inductive ProxyEvent where
  | udp (kind : Disturbance)
  | sender (env : SenderEnv)
  | receiver (env : ReceiverEnv)
  | link (env : LinkEnv)

/-- The turn of the simulator comes to `process_incoming_pkt`. -/
def LinkEnv.Reads (cfg : LinkConfig) (env : LinkEnv) (st : LinkState) : Prop :=
  ∃ t, proxyWake cfg env st = .ok (t, true)

/-- A turn takes at most one datagram, the oldest.  A turn of the simulator that takes none
    hears none, or one of a stranger. -/
inductive ProxyStep [Zlib] (cfg : LinkConfig) (senderAddr : SockAddr) :
    ProxyWorld → ProxyEvent → ProxyWorld → Prop where
  | udpFromSender {p : ProxyWorld} {kind : Disturbance} {c : List Bytes} :
      Disturbs id kind p.fromSender c → ProxyStep cfg senderAddr p (.udp kind) { p with fromSender := c }
  | udpToReceiver {p : ProxyWorld} {kind : Disturbance} {c : List Bytes} :
      Disturbs id kind p.toReceiver c → ProxyStep cfg senderAddr p (.udp kind) { p with toReceiver := c }
  | udpFromReceiver {p : ProxyWorld} {kind : Disturbance} {c : List Bytes} :
      Disturbs id kind p.fromReceiver c →
      ProxyStep cfg senderAddr p (.udp kind) { p with fromReceiver := c }
  | udpToSender {p : ProxyWorld} {kind : Disturbance} {c : List Bytes} :
      Disturbs id kind p.toSender c → ProxyStep cfg senderAddr p (.udp kind) { p with toSender := c }
  | sender {p : ProxyWorld} {env : SenderEnv} {t : SenderTurn} :
      p.senderStop = none → env.InputReads → env.heard p.sender = none →
      readWriteLoopSender env p.sender = .ok t →
      ProxyStep cfg senderAddr p (.sender env) (p.sends env t)
  | senderReceives {p : ProxyWorld} {env : SenderEnv} {t : SenderTurn} {d : Bytes}
      {toSender' : List Bytes} :
      p.senderStop = none → env.InputReads → p.toSender = d :: toSender' →
      env.socket = some (.bytes d) → readWriteLoopSender env p.sender = .ok t →
      ProxyStep cfg senderAddr p (.sender env) ({ p with toSender := toSender' }.sends env t)
  | receiver {p : ProxyWorld} {env : ReceiverEnv} {t : ReceiverTurn} :
      p.receiverStop = none → env.incoming p.receiver = none →
      readWriteLoopServer env p.receiver = .ok t →
      ProxyStep cfg senderAddr p (.receiver env) (p.replies t)
  | receiverReceives {p : ProxyWorld} {env : ReceiverEnv} {t : ReceiverTurn} {d : Bytes}
      {toReceiver' : List Bytes} :
      p.receiverStop = none → p.toReceiver = d :: toReceiver' → env.poll = .ready (.bytes d) →
      readWriteLoopServer env p.receiver = .ok t →
      ProxyStep cfg senderAddr p (.receiver env) ({ p with toReceiver := toReceiver' }.replies t)
  | link {p : ProxyWorld} {env : LinkEnv} {t : LinkTurn} :
      p.linkStop = false → arrivalOf cfg env p.link = none → proxyLoop cfg env p.link = .ok t →
      ProxyStep cfg senderAddr p (.link env) (p.relays cfg senderAddr t)
  | linkForward {p : ProxyWorld} {env : LinkEnv} {t : LinkTurn} {d : Bytes}
      {fromSender' : List Bytes} :
      p.linkStop = false → env.Reads cfg p.link → p.fromSender = d :: fromSender' →
      env.recvfrom = .bytes d senderAddr → proxyLoop cfg env p.link = .ok t →
      ProxyStep cfg senderAddr p (.link env)
        ({ p with fromSender := fromSender' }.relays cfg senderAddr t)
  | linkReverse {p : ProxyWorld} {env : LinkEnv} {t : LinkTurn} {d : Bytes}
      {fromReceiver' : List Bytes} :
      p.linkStop = false → env.Reads cfg p.link → p.fromReceiver = d :: fromReceiver' →
      env.recvfrom = .bytes d cfg.dest_addr → proxyLoop cfg env p.link = .ok t →
      ProxyStep cfg senderAddr p (.link env)
        ({ p with fromReceiver := fromReceiver' }.relays cfg senderAddr t)

/-- `ProxyReachable cfg senderAddr allowed p`: a run of the three programs, each event `allowed`
    where it happens, comes to `p`. -/
inductive ProxyReachable [Zlib] (cfg : LinkConfig) (senderAddr : SockAddr)
    (allowed : ProxyWorld → ProxyEvent → Prop) : ProxyWorld → Prop where
  | start (buf : Mem) (logger : Logger) (statsFile : Bool) (clock : Int) (mem : ReceiverMemory)
      (statFile : Bool) (block : Nat → PktSlot) (now : Int × Int)
      (hnull : ∀ i, mem.window.window i = none) :
      ProxyReachable cfg senderAddr allowed
        (ProxyWorld.start buf logger statsFile clock mem statFile block now)
  | step {p p' : ProxyWorld} {e : ProxyEvent} :
      ProxyReachable cfg senderAddr allowed p → allowed p e → ProxyStep cfg senderAddr p e p' →
      ProxyReachable cfg senderAddr allowed p'

/-- UDP keeps the order, and the simulator's clock moves on from turn to turn. -/
def Steady (p : ProxyWorld) : ProxyEvent → Prop
  | .udp kind => kind ≠ .reorder
  | .link env => ClockRises env p.link
  | _ => True

/-! ## Addresses -/

section
variable {cfg : LinkConfig} {env : LinkEnv} {st : LinkState} {t : LinkTurn} {senderAddr : SockAddr}

theorem sockaddrCmp_self (a : SockAddr) : sockaddrCmp a a = false := by simp [sockaddrCmp]

theorem sockaddrCmp_ne {a b : SockAddr} (h : sockaddrCmp a b = true) : a ≠ b := by
  rintro rfl
  rw [sockaddrCmp_self] at h
  exact absurd h (by simp)

theorem sockaddrCmp_comm (a b : SockAddr) : sockaddrCmp a b = sockaddrCmp b a := by
  simp [sockaddrCmp, eq_comm]

/-- What is sent to the party of a direction is what is sent to its address. -/
theorem arrivingAt_eq (hne : sockaddrCmp senderAddr cfg.dest_addr = true)
    (haddr : ∀ d ∈ t.departures, d.Addressed cfg st) (hsrc : st.src_addr = some senderAddr) :
    arrivingAt cfg.dest_addr t.sent = sentIn .forward t.sent ∧
      arrivingAt senderAddr t.sent = sentIn .reverse t.sent := by
  have hout : ∀ out ∈ t.sent, (out.direction = .forward → out.addr = some cfg.dest_addr) ∧
      (out.direction = .reverse → out.addr = some senderAddr) := by
    intro out hmem
    have h := haddr { out := out, clock := t.state.last_clock } (List.mem_map_of_mem hmem)
    rw [Departure.Addressed, hsrc] at h
    refine ⟨fun hdir => ?_, fun hdir => ?_⟩
    · rw [hdir] at h
      exact h
    · rw [hdir] at h
      exact h
  have hne' := sockaddrCmp_ne hne
  refine ⟨?_, ?_⟩
  · rw [arrivingAt, sentIn]
    congr 1
    apply List.filter_congr
    intro out hmem
    cases hdir : out.direction with
    | forward => simp [(hout out hmem).1 hdir]
    | reverse => simp [(hout out hmem).2 hdir, hne']
  · rw [arrivingAt, sentIn]
    congr 1
    apply List.filter_congr
    intro out hmem
    cases hdir : out.direction with
    | forward => simp [(hout out hmem).1 hdir, Ne.symm hne']
    | reverse => simp [(hout out hmem).2 hdir]

end

end SelectiveRepeat
