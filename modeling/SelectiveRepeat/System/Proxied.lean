/-
  SelectiveRepeat.System.Proxied

  What holds of the sender and the receiver when the link simulator is between them.
  Whatever it is told to do, their runs are runs over a link that loses, duplicates,
  truncates and reorders.  With a constant delay they are runs over one that keeps
  the order: then what comes out is what was read, and no turn of any of the three
  programs is undefined.
-/
import SelectiveRepeat.System.ProxySim

namespace SelectiveRepeat

open Channel Reassembly

/-- The two parties without the simulator. -/
def ProxyWorld.parties (p : ProxyWorld) : World := p.view [] []

/-- What the receiver is given to write is taken whole. -/
def ProxyEvent.WritesWhole : ProxyEvent → Prop
  | .receiver env => env.WritesWhole
  | _ => True

/-- The runs with a steady link in which every write is taken whole. -/
def SteadyWhole (p : ProxyWorld) (e : ProxyEvent) : Prop := Steady p e ∧ e.WritesWhole

/-! ## A transfer of one packet -/

/-- The link without a delay. -/
def fastLink : LinkConfig := { slowLink with delay := 0 }

/-- The simulator receives the first packet of the sender. -/
def firstArrival [Zlib] : LinkEnv :=
  { oneArrival with recvfrom := .bytes firstPkt.wire (loopback 1000) }

theorem fastLink_constant : fastLink.Constant := Or.inl rfl

theorem fastLink_apart : sockaddrCmp (loopback 1000) fastLink.dest_addr = true := by decide

/-- The first packet goes through the simulator and is written. -/
theorem exists_proxied : letI := zlib
    ∃ p, ProxyReachable fastLink (loopback 1000) SteadyWhole p ∧ p.senderStop = none ∧
      p.receiverStop = none ∧ p.chunks = [[7]] ∧ p.parties.delivered = 1 := by
  let _ := zlib
  let p₀ := ProxyWorld.start (fun _ => 0) default false 0 nullMemory false (fun _ => zeroSlot) (0, 0)
  have h₀ : ProxyReachable fastLink (loopback 1000) SteadyWhole p₀ :=
    .start _ _ _ _ _ _ _ _ fun _ => rfl
  obtain ⟨t₁, hok₁, hstop₁, hsent₁, -⟩ := exists_firstPkt_sent
  have h₁ := h₀.step (e := .sender (inputEnv [7])) ⟨trivial, trivial⟩
    (.sender rfl (inputEnv_reads [7]) ((inputEnv [7]).heard_of_silent rfl p₀.sender) hok₁)
  -- the simulator passes it on at once
  have hlink : (proxyLoop fastLink firstArrival p₀.link).map
      (fun t => (t.stop, arrivingAt (loopback 12345) t.sent)) = .ok (false, [firstPkt.wire]) := by
    decide +kernel
  obtain ⟨t₂, hok₂, ht₂⟩ := exists_ok_of_map hlink
  simp only [Prod.mk.injEq] at ht₂
  have hrises : ClockRises firstArrival p₀.link := by
    intro now hnow
    rw [← Option.some.inj hnow, Timeval.date, Timeval.date, Prod.Lex.toLex_lt_toLex]
    exact Or.inl (show (0 : Int) < 7 by decide)
  have h₂ := h₁.step (e := .link firstArrival) ⟨hrises, trivial⟩
    (.linkForward rfl ⟨_, rfl⟩ hsent₁ rfl hok₂)
  obtain ⟨t₃, hok₃, hstop₃, hwritten₃⟩ := exists_firstPkt_written
  have h₃ := h₂.step (e := .receiver (datagramEnv firstPkt.wire)) ⟨trivial, fun _ _ => rfl⟩
    (.receiverReceives rfl ht₂.2 rfl hok₃)
  refine ⟨_, h₃, hstop₁, hstop₃, rfl, ?_⟩
  show ([] ++ t₃.written).length = 1
  rw [hwritten₃]
  rfl

/-! ## Any link -/

section
variable [Zlib] {cfg : LinkConfig} {senderAddr : SockAddr} {p p' : ProxyWorld}
  {allowed : ProxyWorld → ProxyEvent → Prop}

/-- The three programs refine the two parties over a link that may do anything but invent.
    In every run, whatever the options, what the simulator does is what such a link does: the
    datagrams in flight are those on the way to it, those waiting in it and those that have left
    it, apart from corrupted ones, which the party they come to ignores. -/
theorem proxyReachable_refines (hd : DetectsOneByte)
    (hne : sockaddrCmp senderAddr cfg.dest_addr = true)
    (h : ProxyReachable cfg senderAddr allowed p) :
    ∃ (queue : List PktSlot) (data data' acks acks' : List Datagram),
      Reachable (fun _ _ => True) (p.view (data ++ data') (acks ++ acks')) ∧
      p.link.waiting = ↑queue ∧
      data'.map Datagram.bytes = p.fromSender ∧
      Among ReceiverIgnores Datagram.bytes data (p.toReceiver ++ waitingIn .forward queue) ∧
      acks'.map Datagram.bytes = p.fromReceiver ∧
      Among SenderIgnores Datagram.bytes acks (p.toSender ++ waitingIn .reverse queue) := by
  obtain ⟨queue, data, data', acks, acks', hsim⟩ :=
    h.simulates False hd hne False.elim fun hord => hord.elim
  exact ⟨queue, data, data', acks, acks', hsim.reachable.mono fun _ _ _ => trivial,
    hsim.linked.waiting, hsim.fromSender, hsim.toReceiver, hsim.fromReceiver, hsim.toSender⟩

end

theorem proxyReachable_refines_one : letI := zlib
    ∃ (p : ProxyWorld) (data acks : List Datagram), p.chunks = [[7]] ∧ p.parties.delivered = 1 ∧
      Reachable (fun _ _ => True) (p.view data acks) := by
  let _ := zlib
  obtain ⟨p, h, -, -, hchunks, hdelivered⟩ := exists_proxied
  obtain ⟨_, data, data', acks, acks', hreach, -⟩ :=
    proxyReachable_refines zlib_detects fastLink_apart h
  exact ⟨p, data ++ data', acks ++ acks', hchunks, hdelivered, hreach⟩

/-! ## Constant delay -/

section
variable [Zlib] {cfg : LinkConfig} {senderAddr : SockAddr} {p p' : ProxyWorld}
  {allowed : ProxyWorld → ProxyEvent → Prop}

/-- With a constant delay the link keeps the order. -/
theorem ProxyReachable.inOrder (hd : DetectsOneByte) (hconst : cfg.Constant)
    (hne : sockaddrCmp senderAddr cfg.dest_addr = true)
    (hsteady : ∀ p e, allowed p e → Steady p e) (h : ProxyReachable cfg senderAddr allowed p) :
    ∃ queue data data' acks acks', Simulates True cfg senderAddr p queue data data' acks acks' ∧
      ∃ log known, Joint (p.view (data ++ data') (acks ++ acks')) log known ∧
        InOrder (p.view (data ++ data') (acks ++ acks')) log known := by
  obtain ⟨queue, data, data', acks, acks', hsim⟩ :=
    h.simulates True hd hne (fun _ => hconst) fun _ => hsteady
  exact ⟨queue, data, data', acks, acks', hsim,
    reachable_inOrder (hsim.reachable.mono fun _ _ hfifo => hfifo trivial)⟩

/-- Every write was taken whole. -/
theorem ProxyStep.written_whole {e : ProxyEvent} (hstep : ProxyStep cfg senderAddr p e p')
    {data acks : List Datagram} {log : SendLog} {known : Nat → Option Item}
    (hparties : Parties (p.view data acks) log known) (hwhole : e.WritesWhole)
    (h : ∀ x ∈ p.written, x.2 = (x.1.length : Nat)) :
    ∀ x ∈ p'.written, x.2 = (x.1.length : Nat) := by
  cases hstep with
  | receiver hgo _ hturn | receiverReceives hgo _ _ hturn =>
      rw [ProxyWorld.replies, List.forall_mem_append]
      exact ⟨h, SelectiveRepeat.written_whole hwhole (hparties.receiver hgo) hturn⟩
  | _ => exact h

theorem ProxyReachable.written_whole (hd : DetectsOneByte) (hconst : cfg.Constant)
    (hne : sockaddrCmp senderAddr cfg.dest_addr = true)
    (h : ProxyReachable cfg senderAddr SteadyWhole p) :
    ∀ x ∈ p.written, x.2 = (x.1.length : Nat) := by
  induction h with
  | start => exact fun x hx => absurd hx List.not_mem_nil
  | step hprev hallowed hstep ih =>
      obtain ⟨_, _, _, _, _, -, log, known, hj, -⟩ :=
        hprev.inOrder hd hconst hne fun _ _ hboth => hboth.1
      exact hstep.written_whole hj.toParties hallowed.2 ih

/-- A transfer through the link simulator is correct if its delay is constant.  In every run in
    which UDP and the simulated link lose, duplicate, truncate and corrupt as they like, what
    came out of the receiver is the first chunks the sender has read, in order and each once;
    no packet leaves the sender's window before it is written; and a receiver that was told
    the end has written all. -/
theorem proxyReachable_delivers (hd : DetectsOneByte) (hconst : cfg.Constant)
    (hne : sockaddrCmp senderAddr cfg.dest_addr = true)
    (h : ProxyReachable cfg senderAddr SteadyWhole p) :
    p.parties.output = (p.chunks.take p.parties.delivered).flatten ∧
      p.parties.acked ≤ p.parties.delivered ∧ p.parties.delivered ≤ p.parties.built ∧
      p.parties.built ≤ p.parties.acked + 31 ∧
      (∃ l, p.sender.window.Holds l ∧ l.map Pkt.data = p.chunks.drop p.parties.acked) ∧
      (p.receiverStop = some .disconnect ∨ p.receiverStop = some .storedDisconnect →
        p.parties.output = p.chunks.flatten) := by
  have hwhole := h.written_whole hd hconst hne
  obtain ⟨-, data, data', acks, acks', -, log, known, hj, -⟩ :=
    h.inOrder hd hconst hne fun _ _ hboth => hboth.1
  have hwritten : p.written.map Prod.fst = p.chunks.take p.parties.delivered := hj.written
  have houtput : p.parties.output = (p.chunks.take p.parties.delivered).flatten := by
    rw [← hwritten, World.output]
    congr 1
    apply List.map_congr_left
    intro x hx
    rw [hwhole x hx, Int.toNat_natCast, List.take_length]
  have hacked : p.parties.acked = log.acked := hj.acked_eq
  have hbuilt : p.parties.built = log.log.length := hj.built_eq
  have hacked_le : log.acked ≤ p.parties.delivered := hj.acked_le
  have hdelivered_le : p.parties.delivered ≤ log.log.length := hj.delivered_le
  have hroom := log.room
  refine ⟨houtput, by omega, by omega, by omega, ?_, fun hstop => ?_⟩
  · obtain ⟨l, hl, hsame⟩ := hj.window
    refine ⟨l, hl, ?_⟩
    have hchunks : p.chunks = log.log.map Pkt.data := hj.chunks
    rw [hacked, hchunks, ← List.map_drop]
    exact hsame.datas
  · have hall : p.parties.delivered = log.log.length := (hj.disconnect hstop).2
    rw [houtput, List.take_of_length_le]
    rw [hall, ← hbuilt]
    exact Nat.le_refl _

end

theorem proxyReachable_delivers_one : letI := zlib
    ∃ p : ProxyWorld, p.chunks = [[7]] ∧ p.parties.output = [7] := by
  let _ := zlib
  obtain ⟨p, h, -, -, hchunks, hdelivered⟩ := exists_proxied
  obtain ⟨houtput, -⟩ :=
    proxyReachable_delivers zlib_detects fastLink_constant fastLink_apart h
  refine ⟨p, hchunks, ?_⟩
  rw [houtput, hdelivered, hchunks]
  rfl

section
variable [Zlib] {cfg : LinkConfig} {senderAddr : SockAddr} {p : ProxyWorld}
  {allowed : ProxyWorld → ProxyEvent → Prop}

/-- In every such run no program does anything undefined next: each turn of the simulator
    returns, whatever the system calls answer, and so does each turn of a party, with the
    oldest datagram on its way to it or none, as long as the reads of the input succeed. -/
theorem proxyReachable_defined (hd : DetectsOneByte) (hconst : cfg.Constant)
    (hne : sockaddrCmp senderAddr cfg.dest_addr = true)
    (hsteady : ∀ p e, allowed p e → Steady p e) (h : ProxyReachable cfg senderAddr allowed p) :
    (∀ env, ∃ t, proxyLoop cfg env p.link = .ok t) ∧
      (p.senderStop = none → ∀ env : SenderEnv, env.InputReads →
        ∃ t, readWriteLoopSender env p.sender = .ok t) ∧
      (p.receiverStop = none → ∀ env : ReceiverEnv,
        (env.incoming p.receiver = none ∨
          ∃ d ∈ p.toReceiver.head?, env.poll = .ready (.bytes d)) →
        ∃ t, readWriteLoopServer env p.receiver = .ok t) := by
  obtain ⟨queue, data, data', acks, acks', hsim, log, known, hj, ho⟩ :=
    h.inOrder hd hconst hne hsteady
  refine ⟨fun env => ?_, fun hgo env hin => hj.sender_ok hgo hin, fun hgo env hincoming => ?_⟩
  · exact proxyLoop_ok hsim.linked.valid hconst.divides
  · have hsilent (hnone : env.incoming p.receiver = none) :
        ∃ t, readWriteLoopServer env p.receiver = .ok t := by
      obtain ⟨t, hturn, -⟩ := readWriteLoopServer_of_none hnone
      exact ⟨t, hturn⟩
    rcases hincoming with hnone | ⟨d, hhead, hpoll⟩
    · exact hsilent hnone
    · obtain ⟨toReceiver', hto⟩ := List.head?_eq_some_iff.mp hhead
      have hamong := hsim.toReceiver
      rw [hto, List.cons_append] at hamong
      cases hamong with
      | @message a data _ _ =>
          have hmem : a ∈ (p.view (a :: data ++ data') (acks ++ acks')).data := List.mem_cons_self
          have hlow := ho.delivered_le hj hgo hmem
          exact hj.receiver_ok hgo hmem (by omega) hpoll
      | junk hjunk _ => exact hsilent (hjunk env p.receiver hpoll)

end

theorem proxyReachable_defined_one : letI := zlib
    ∃ p : ProxyWorld, p.parties.delivered = 1 ∧
      (∀ env, ∃ t, proxyLoop fastLink env p.link = .ok t) ∧
      ∃ t, readWriteLoopSender (inputEnv [8]) p.sender = .ok t := by
  let _ := zlib
  obtain ⟨p, h, hgo, -, -, hdelivered⟩ := exists_proxied
  obtain ⟨hlink, hsender, -⟩ :=
    proxyReachable_defined zlib_detects fastLink_constant fastLink_apart (fun _ _ hboth => hboth.1) h
  exact ⟨p, hdelivered, hlink, hsender hgo (inputEnv [8]) (inputEnv_reads [8])⟩

end SelectiveRepeat
