/-
  SelectiveRepeat.System.ProxySim

  The link simulator as the network of the two parties.  What is on its way to a
  party, from socket to socket, is the datagrams in flight there, with corrupted ones
  among them that the party ignores.  So every run of the three programs is a run of
  the two parties over a link that loses, duplicates, truncates and reorders; and it
  does not reorder if the delay is constant.
-/
import SelectiveRepeat.System.Corrupted
import SelectiveRepeat.System.Fifo
import SelectiveRepeat.System.Proxy

namespace SelectiveRepeat

open Channel

section
variable [Zlib]

/-! ## What the parties send, and what they ignore -/

/-- A DATA packet as the sender sends it. -/
def DataWire (d : Bytes) : Prop := ∃ pkt : Pkt, d = pkt.wire ∧ pkt.Valid ∧ pkt.type = ptypeData ∧ pkt.tr = 0

/-- A reply as the receiver sends it. -/
def ReplyWire (d : Bytes) : Prop :=
  ∃ pkt : Pkt, d = pkt.wire ∧ pkt.Valid ∧ (pkt.type = ptypeAck ∨ pkt.type = ptypeNack) ∧ pkt.tr = 0

def ReceiverIgnores (d : Bytes) : Prop :=
  ∀ (env : ReceiverEnv) (st : ReceiverState), env.poll = .ready (.bytes d) → env.incoming st = none

def SenderIgnores (d : Bytes) : Prop :=
  ∀ (env : SenderEnv) (st : SenderState), env.socket = some (.bytes d) → env.heard st = none

theorem DataWire.length {d : Bytes} (h : DataWire d) :
    MIN_PKT_LEN ≤ d.length ∧ d.length ≤ MAX_PKT_LEN := by
  obtain ⟨pkt, rfl, hv, htype, htr⟩ := h
  have hle := hv.length_le
  have hmin : MIN_PKT_LEN = 10 := rfl
  have hmax : MAX_PKT_LEN = 528 := rfl
  rw [pkt.wire_length_eq_size, Pkt.size, if_pos htype, hmin, hmax]
  split <;> omega

theorem ReplyWire.length {d : Bytes} (h : ReplyWire d) : d.length = MIN_PKT_LEN := by
  obtain ⟨pkt, rfl, hv, htype, htr⟩ := h
  have hne : pkt.type ≠ ptypeData := by
    rcases htype with htype | htype <;> rw [htype] <;> decide
  rw [pkt.wire_length_eq_size, Pkt.size, if_neg hne, hv.length_zero hne]
  simp [MIN_PKT_LEN]

theorem DataWire.corrupted (hd : DetectsOneByte) {d : Bytes} (h : DataWire d) {idx : Nat}
    (hidx : idx < d.length) : ReceiverIgnores (corruptPkt d idx) := by
  obtain ⟨pkt, rfl, hv, htype, -⟩ := h
  exact fun env st hpoll => incoming_corrupted hd hv htype hidx hpoll st

theorem ReplyWire.corrupted (hd : DetectsOneByte) {d : Bytes} (h : ReplyWire d) {idx : Nat}
    (hidx : idx < d.length) : SenderIgnores (corruptPkt d idx) := by
  obtain ⟨pkt, rfl, hv, htype, htr⟩ := h
  intro env st hsocket
  by_contra hsome
  obtain ⟨q, hq⟩ := Option.ne_none_iff_exists'.mp hsome
  obtain ⟨buf, hreply⟩ := SenderEnv.exists_reply hq
  rw [reply_corrupted hd hv htype htr hidx hsocket buf] at hreply
  exact absurd hreply (by simp)

/-- What a turn of the sender sends. -/
theorem Parties.dataWires {w : World} {log : SendLog} {known : Nat → Option Item}
    (h : Parties w log known) (hgo : w.senderStop = none) {env : SenderEnv} (hin : env.InputReads)
    {t : SenderTurn} (hturn : readWriteLoopSender env w.sender = .ok t) : ∀ d ∈ t.sent, DataWire d := by
  obtain ⟨t', mid, built, reply, hturn', hstep, -⟩ :=
    readWriteLoopSender_spec (h.sender hgo) (hin.inputRead_ne w.sender)
  rw [hturn, Except.ok.injEq] at hturn'
  subst hturn'
  obtain ⟨copies, closing, hsent, hcopies, hclosing⟩ := hstep.sent
  rw [hsent, List.forall_mem_append]
  refine ⟨fun d hd => ?_, fun d hd => ?_⟩
  · obtain ⟨k, pkt, site, -, hpkt, rfl⟩ := hcopies d hd
    have hq := (mid.queued pkt (List.mem_of_getElem? hpkt)).restamp (env.now site w.sender)
    exact ⟨_, rfl, ⟨hq.sized, by rw [hq.type]; decide, fun _ => hq.type⟩, hq.type, hq.tr⟩
  · obtain ⟨⟨-, pkt, window, ts, hbuilt, rfl⟩, -⟩ := hclosing d hd
    have hlen : pkt.length.toNat = 0 := hbuilt.length
    exact ⟨pkt, rfl, ⟨⟨by omega, fun hne => absurd hbuilt.type hne⟩, by rw [hbuilt.type]; decide,
      fun _ => hbuilt.type⟩, hbuilt.type, hbuilt.tr⟩

/-- What a turn of the receiver sends, which is nothing if it hears nothing. -/
theorem Parties.replyWires {w : World} {log : SendLog} {known : Nat → Option Item}
    (h : Parties w log known) (hgo : w.receiverStop = none) {env : ReceiverEnv} {t : ReceiverTurn}
    (hturn : readWriteLoopServer env w.receiver = .ok t) :
    (∀ d ∈ t.sent, ReplyWire d) ∧ (env.incoming w.receiver = none → t.sent = []) := by
  rcases readWriteLoopServer_cases (h.receiver hgo) hturn with ⟨-, -, -, -, hnil, -⟩ | ⟨q, hq, heffect⟩
  · rw [hnil]
    exact ⟨fun d hd => absurd hd List.not_mem_nil, fun _ => rfl⟩
  · refine ⟨fun d hd => ?_, fun hnone => ?_⟩
    · rcases heffect.replies with hnil | ⟨type, hor, reply, ts, hreply, hsent⟩
      · rw [hnil] at hd
        exact absurd hd List.not_mem_nil
      · rw [hsent, List.mem_singleton] at hd
        have htype : reply.type = ptypeAck ∨ reply.type = ptypeNack := by
          rw [hreply.type]
          exact hor.imp_right And.left
        refine ⟨reply, hd, ⟨hreply.sized, ?_, ?_⟩, htype, hreply.tr⟩
        · rcases htype with htype | htype <;> rw [htype] <;> decide
        · intro htr
          rw [hreply.tr] at htr
          exact absurd htr (by decide)
    · rw [hnone] at hq
      exact absurd hq (by simp)

end

/-! ## The simulator between two sockets -/

/-- What the network may do between two states of a channel. -/
def Drifts (ordered : Prop) : List Datagram → List Datagram → Prop :=
  Relation.ReflTransGen fun c c' =>
    ∃ kind, (ordered → kind ≠ .reorder) ∧ Disturbs Datagram.truncate kind c c'

theorem cutPkt_eq (d : Bytes) : cutPkt d = truncate d := by
  cases d with
  | nil => rfl
  | cons b d => rfl

section
variable {ordered : Prop} {cfg : LinkConfig} {dir : Direction} {junk : Bytes → Prop}
  {fly fresh : List Datagram}

theorem Enters.nil_of_none {entered : List Bytes} (h : Enters cfg dir none entered) : entered = [] := by
  cases h with
  | nothing => rfl

/-- What is taken in for the other direction does not enter. -/
theorem Enters.nil_of_ne {a : Arrival} {entered : List Bytes} (h : Enters cfg dir (some a) entered)
    (hne : a.direction ≠ dir) : entered = [] := by
  cases h with
  | nothing => rfl
  | altered hdir => exact absurd hdir hne

/-- The datagram taken in was delivered, lost or truncated, or junk has taken its place. -/
theorem Enters.drifts {a : Arrival} {d : Datagram} {entered before : List Bytes}
    (h : Enters cfg dir (some a) entered) (hbuf : a.buf = d.bytes)
    (hjunk : ∀ idx < d.bytes.length, junk (corruptPkt d.bytes idx))
    (hfly : Among junk Datagram.bytes fly before) :
    ∃ fly', Drifts ordered (fly ++ d :: fresh) (fly' ++ fresh) ∧
      Among junk Datagram.bytes fly' (before ++ entered) := by
  have hlose : Drifts ordered (fly ++ d :: fresh) (fly ++ fresh) :=
    .single ⟨.lose, fun _ hkind => Disturbance.noConfusion hkind, .lose fly d fresh⟩
  cases h with
  | nothing => exact ⟨fly, hlose, by rw [List.append_nil]; exact hfly⟩
  | altered hdir hx =>
      cases hx with
      | whole =>
          refine ⟨fly ++ [d], ?_, ?_⟩
          · rw [List.append_assoc]
            exact .refl
          · rw [hbuf]
            exact hfly.append (.message d .nil)
      | cut =>
          refine ⟨fly ++ [d.truncate], ?_, ?_⟩
          · rw [List.append_assoc]
            exact .single ⟨.alter, fun _ hkind => Disturbance.noConfusion hkind, .alter fly d fresh⟩
          · rw [hbuf, cutPkt_eq]
            exact hfly.append (.message d.truncate .nil)
      | @corrupt _ idx hidx =>
          rw [hbuf] at hidx ⊢
          have hbad := hfly.append (.junk (hjunk idx hidx) .nil)
          rw [List.append_nil] at hbad
          exact ⟨fly, hlose, hbad⟩

/-- What is on its way is rearranged, if the order is not kept. -/
theorem Among.drifts {before after : List Bytes} (h : Among junk Datagram.bytes fly before)
    (hperm : before.Perm after) (heq : ordered → before = after) :
    ∃ fly', Drifts ordered (fly ++ fresh) (fly' ++ fresh) ∧ Among junk Datagram.bytes fly' after := by
  by_cases ho : ordered
  · exact ⟨fly, .refl, heq ho ▸ h⟩
  · obtain ⟨fly', hp, h'⟩ := h.perm hperm
    exact ⟨fly', .single ⟨.reorder, fun hord => absurd hord ho, .reorder (hp.append_right fresh)⟩, h'⟩

end

/-- The simulator's queue, as a list that is in order if the order is kept. -/
structure Linked (ordered : Prop) (cfg : LinkConfig) (st : LinkState) (queue : List PktSlot) :
    Prop where
  valid : st.Valid
  waiting : st.waiting = ↑queue
  waits : ∀ p ∈ queue, Waits cfg p
  inLine : ordered → InLine cfg st queue

section
variable {ordered : Prop} {cfg : LinkConfig} {env : LinkEnv} {st : LinkState} {t : LinkTurn}
  {queue : List PktSlot}

theorem Linked.turn (h : Linked ordered cfg st queue) (hconst : ordered → cfg.Constant)
    (hrises : ordered → ClockRises env st) (hturn : LinkTurns cfg env st t) :
    ∃ queue', Linked ordered cfg t.state queue' ∧
      ∀ dir, ∃ entered, Enters cfg dir (arrivalOf cfg env st) entered ∧
        (waitingIn dir queue ++ entered).Perm (sentIn dir t.sent ++ waitingIn dir queue') ∧
        (ordered → waitingIn dir queue ++ entered = sentIn dir t.sent ++ waitingIn dir queue') := by
  by_cases ho : ordered
  · obtain ⟨queue', hline, hchannel⟩ := (h.inLine ho).turn (hconst ho) (hrises ho) hturn
    refine ⟨queue', ⟨hturn.valid, hline.waiting, hline.waits, fun _ => hline⟩, fun dir => ?_⟩
    obtain ⟨entered, henters, heq⟩ := hchannel dir
    exact ⟨entered, henters, heq ▸ .refl _, fun _ => heq⟩
  · obtain ⟨queue', hwaiting, hwaits, hchannel⟩ := hturn.perm h.waiting h.waits
    refine ⟨queue', ⟨hturn.valid, hwaiting, hwaits, fun hord => absurd hord ho⟩, fun dir => ?_⟩
    obtain ⟨entered, henters, hperm⟩ := hchannel dir
    exact ⟨entered, henters, hperm, fun hord => absurd hord ho⟩

end

/-! ## The simulation -/

/-- The three programs in the state `p` are the two parties with these datagrams in flight:
    `data` and `acks` have gone through the simulator, or wait in it, `data'` and `acks'` are
    on their way to it. -/
structure Simulates [Zlib] (ordered : Prop) (cfg : LinkConfig) (senderAddr : SockAddr)
    (p : ProxyWorld) (queue : List PktSlot) (data data' acks acks' : List Datagram) : Prop where
  reachable : Reachable (fun w e => ordered → Fifo w e) (p.view (data ++ data') (acks ++ acks'))
  fromSender : data'.map Datagram.bytes = p.fromSender
  dataWires : ∀ d ∈ p.fromSender, DataWire d
  toReceiver : Among ReceiverIgnores Datagram.bytes data (p.toReceiver ++ waitingIn .forward queue)
  fromReceiver : acks'.map Datagram.bytes = p.fromReceiver
  replyWires : ∀ d ∈ p.fromReceiver, ReplyWire d
  toSender : Among SenderIgnores Datagram.bytes acks (p.toSender ++ waitingIn .reverse queue)
  linked : Linked ordered cfg p.link queue
  heard : p.link.src_addr = some senderAddr ∨ p.link.src_addr = none ∧ queue = [] ∧
    p.toReceiver = [] ∧ p.fromReceiver = [] ∧ p.toSender = []

section
variable [Zlib] {ordered : Prop} {cfg : LinkConfig} {senderAddr : SockAddr} {p p' : ProxyWorld}
  {queue : List PktSlot} {data data' acks acks' : List Datagram}

/-- The network has moved on. -/
theorem reachable_drifts {data₁ acks₁ : List Datagram}
    (h : Reachable (fun w e => ordered → Fifo w e) (p.view data acks))
    (hdata : Drifts ordered data data₁) (hacks : Drifts ordered acks acks₁) :
    Reachable (fun w e => ordered → Fifo w e) (p.view data₁ acks₁) := by
  have hfirst : Reachable (fun w e => ordered → Fifo w e) (p.view data₁ acks) := by
    induction hdata with
    | refl => exact h
    | tail _ hlast ih =>
        obtain ⟨kind, hkind, hd⟩ := hlast
        exact ih.step (e := .data kind) hkind (.data hd)
  induction hacks with
  | refl => exact hfirst
  | tail _ hlast ih =>
      obtain ⟨kind, hkind, hd⟩ := hlast
      exact ih.step (e := .acks kind) hkind (.acks hd)

theorem simulates_start (buf : Mem) (logger : Logger) (statsFile : Bool) (clock : Int)
    {mem : ReceiverMemory} (hnull : ∀ i, mem.window.window i = none) (statFile : Bool)
    (block : Nat → PktSlot) (now : Int × Int) :
    Simulates ordered cfg senderAddr
      (ProxyWorld.start buf logger statsFile clock mem statFile block now) [] [] [] [] [] where
  reachable := ⟨buf, logger, statsFile, clock, mem, statFile, hnull, .refl⟩
  fromSender := rfl
  dataWires := fun _ hd => absurd hd List.not_mem_nil
  toReceiver := .nil
  fromReceiver := rfl
  replyWires := fun _ hd => absurd hd List.not_mem_nil
  toSender := .nil
  linked := {
    valid := minqNew_valid (fun a b => timevalCmp_iff a.ts b.ts) block
    waiting := rfl
    waits := fun _ hp => absurd hp List.not_mem_nil
    inLine := fun _ => ⟨rfl, fun _ hp => absurd hp List.not_mem_nil, .nil,
      fun _ hp => absurd hp List.not_mem_nil⟩ }
  heard := Or.inr ⟨rfl, rfl, rfl, rfl, rfl⟩

end

/-! ## UDP -/

section
variable {ordered : Prop}

/-- A disturbance of datagrams that carry no junk. -/
theorem drifts_of_map {front back : List Datagram} {kind : Disturbance} {bs bs' : List Bytes}
    (hbs : back.map Datagram.bytes = bs) (hd : Disturbs id kind bs bs')
    (hkind : ordered → kind ≠ .reorder) :
    ∃ back', back'.map Datagram.bytes = bs' ∧ Drifts ordered (front ++ back) (front ++ back') := by
  have hamong : Among (fun _ => False) Datagram.bytes back bs := hbs ▸ among_map back
  obtain ⟨back', hmap, rfl | hdist⟩ := @Among.disturbs _ Datagram.truncate _ _ _ _ _ _ _ hamong hd
  · exact ⟨back', hmap.eq_map, .refl⟩
  · exact ⟨back', hmap.eq_map, .single ⟨kind, hkind, hdist.append_left front⟩⟩

/-- A disturbance of datagrams with junk between them. -/
theorem drifts_of_among {junk : Bytes → Prop} {front back : List Datagram} {kind : Disturbance}
    {bs bs' waiting : List Bytes} (hfront : Among junk Datagram.bytes front (bs ++ waiting))
    (hd : Disturbs id kind bs bs') (hkind : ordered → kind ≠ .reorder) :
    ∃ front', Among junk Datagram.bytes front' (bs' ++ waiting) ∧
      Drifts ordered (front ++ back) (front' ++ back) := by
  obtain ⟨front', hamong, rfl | hdist⟩ :=
    @Among.disturbs _ Datagram.truncate _ _ _ _ _ _ _ hfront (hd.append_right waiting)
  · exact ⟨front', hamong, .refl⟩
  · exact ⟨front', hamong, .single ⟨kind, hkind, hdist.append_right back⟩⟩

end

section
variable [Zlib] {ordered : Prop} {cfg : LinkConfig} {senderAddr : SockAddr} {p p' : ProxyWorld}
  {queue : List PktSlot} {data data' acks acks' : List Datagram}

/-- UDP moves on on one of the four ways. -/
theorem Simulates.udp (h : Simulates ordered cfg senderAddr p queue data data' acks acks')
    {kind : Disturbance} (hstep : ProxyStep cfg senderAddr p (.udp kind) p')
    (hkind : ordered → kind ≠ .reorder) :
    ∃ data₁ data₁' acks₁ acks₁', Simulates ordered cfg senderAddr p' queue data₁ data₁' acks₁ acks₁' := by
  cases hstep with
  | udpFromSender hd =>
      obtain ⟨data₁', hmap, hdrifts⟩ := drifts_of_map h.fromSender hd hkind
      exact ⟨data, data₁', acks, acks', { h with
        reachable := reachable_drifts h.reachable hdrifts .refl
        fromSender := hmap
        dataWires := hd.forall (fun _ hm => hm) h.dataWires }⟩
  | udpToReceiver hd =>
      obtain ⟨data₁, hamong, hdrifts⟩ := drifts_of_among h.toReceiver hd hkind
      exact ⟨data₁, data', acks, acks', { h with
        reachable := reachable_drifts h.reachable hdrifts .refl
        toReceiver := hamong
        heard := h.heard.imp_right fun ⟨hnone, hqueue, hto, hfrom, hback⟩ =>
          ⟨hnone, hqueue, (hto ▸ hd).of_nil, hfrom, hback⟩ }⟩
  | udpFromReceiver hd =>
      obtain ⟨acks₁', hmap, hdrifts⟩ := drifts_of_map h.fromReceiver hd hkind
      exact ⟨data, data', acks, acks₁', { h with
        reachable := reachable_drifts h.reachable .refl hdrifts
        fromReceiver := hmap
        replyWires := hd.forall (fun _ hm => hm) h.replyWires
        heard := h.heard.imp_right fun ⟨hnone, hqueue, hto, hfrom, hback⟩ =>
          ⟨hnone, hqueue, hto, (hfrom ▸ hd).of_nil, hback⟩ }⟩
  | udpToSender hd =>
      obtain ⟨acks₁, hamong, hdrifts⟩ := drifts_of_among h.toSender hd hkind
      exact ⟨data, data', acks₁, acks', { h with
        reachable := reachable_drifts h.reachable .refl hdrifts
        toSender := hamong
        heard := h.heard.imp_right fun ⟨hnone, hqueue, hto, hfrom, hback⟩ =>
          ⟨hnone, hqueue, hto, hfrom, (hback ▸ hd).of_nil⟩ }⟩

/-! ## The parties -/

/-- A turn of the sender in which it hears nothing. -/
theorem Simulates.sends (h : Simulates ordered cfg senderAddr p queue data data' acks acks')
    (hgo : p.senderStop = none) {env : SenderEnv} (hin : env.InputReads)
    (hnone : env.heard p.sender = none) {t : SenderTurn}
    (hturn : readWriteLoopSender env p.sender = .ok t) :
    ∃ data₁', Simulates ordered cfg senderAddr (p.sends env t) queue data data₁' acks acks' := by
  obtain ⟨log, known, hparties⟩ := reachable_parties h.reachable
  have hstep := h.reachable.step (e := .sender env none) (fun _ => trivial)
    (.sender hgo hin hnone hturn)
  refine ⟨data' ++ t.sent.map (Datagram.sent (p.view (data ++ data') (acks ++ acks')).acked),
    { h with
      reachable := ?_
      fromSender := ?_
      dataWires := List.forall_mem_append.mpr ⟨h.dataWires, hparties.dataWires hgo hin hturn⟩ }⟩
  · rw [← List.append_assoc]
    exact hstep
  · rw [List.map_append, h.fromSender, List.map_map]
    exact congrArg (p.fromSender ++ ·) (List.map_id _)

/-- A turn of the sender with the oldest datagram on its way there. -/
theorem Simulates.sendsReceived
    (h : Simulates ordered cfg senderAddr p queue data data' acks acks')
    (hgo : p.senderStop = none) {env : SenderEnv} (hin : env.InputReads) {d : Bytes}
    {toSender' : List Bytes} (hto : p.toSender = d :: toSender')
    (hsocket : env.socket = some (.bytes d)) {t : SenderTurn}
    (hturn : readWriteLoopSender env p.sender = .ok t) :
    ∃ data₁' acks₁, Simulates ordered cfg senderAddr ({ p with toSender := toSender' }.sends env t)
      queue data data₁' acks₁ acks' := by
  have hamong := h.toSender
  rw [hto, List.cons_append] at hamong
  have hheard : p.link.src_addr = some senderAddr :=
    h.heard.resolve_right fun ⟨_, _, _, _, hnil⟩ => List.cons_ne_nil _ _ (hto.symm.trans hnil)
  cases hamong with
  | @message a acks₁ _ hrest =>
      obtain ⟨log, known, hparties⟩ := reachable_parties h.reachable
      have hstep := h.reachable.step (e := .sender env (some a)) (fun _ => trivial)
        (.senderReceives hgo hin rfl hsocket hturn)
      refine ⟨data' ++ t.sent.map (Datagram.sent (p.view (data ++ data') (acks₁ ++ acks')).acked),
        acks₁,
        { h with
          reachable := ?_
          fromSender := ?_
          dataWires := List.forall_mem_append.mpr ⟨h.dataWires, hparties.dataWires hgo hin hturn⟩
          toSender := hrest
          heard := Or.inl hheard }⟩
      · rw [← List.append_assoc]
        exact hstep
      · rw [List.map_append, h.fromSender, List.map_map]
        exact congrArg (p.fromSender ++ ·) (List.map_id _)
  | junk hjunk hrest =>
      have hpopped : Simulates ordered cfg senderAddr { p with toSender := toSender' } queue data
          data' acks acks' :=
        { h with toSender := hrest, heard := Or.inl hheard }
      obtain ⟨data₁', h'⟩ := hpopped.sends hgo hin (hjunk env p.sender hsocket) hturn
      exact ⟨data₁', acks, h'⟩

/-- A turn of the receiver in which it hears nothing. -/
theorem Simulates.replies (h : Simulates ordered cfg senderAddr p queue data data' acks acks')
    (hgo : p.receiverStop = none) {env : ReceiverEnv} (hnone : env.incoming p.receiver = none)
    {t : ReceiverTurn} (hturn : readWriteLoopServer env p.receiver = .ok t) :
    ∃ acks₁', Simulates ordered cfg senderAddr (p.replies t) queue data data' acks acks₁' := by
  obtain ⟨log, known, hparties⟩ := reachable_parties h.reachable
  have hstep := h.reachable.step (e := .receiver env none) (fun _ => trivial)
    (.receiver hgo hnone hturn)
  have hsilent : t.sent = [] := (hparties.replyWires hgo hturn).2 hnone
  refine ⟨acks', { h with reachable := ?_, fromReceiver := ?_, replyWires := ?_, heard := ?_ }⟩
  · rw [World.replies, hsilent, List.map_nil, List.append_nil] at hstep
    exact hstep
  · rw [ProxyWorld.replies, hsilent, List.append_nil]
    exact h.fromReceiver
  · rw [ProxyWorld.replies, hsilent, List.append_nil]
    exact h.replyWires
  · rw [ProxyWorld.replies, hsilent, List.append_nil]
    exact h.heard

/-- A turn of the receiver with the oldest datagram on its way there. -/
theorem Simulates.repliesReceived
    (h : Simulates ordered cfg senderAddr p queue data data' acks acks')
    (hgo : p.receiverStop = none) {env : ReceiverEnv} {d : Bytes} {toReceiver' : List Bytes}
    (hto : p.toReceiver = d :: toReceiver') (hpoll : env.poll = .ready (.bytes d))
    {t : ReceiverTurn} (hturn : readWriteLoopServer env p.receiver = .ok t) :
    ∃ data₁ acks₁', Simulates ordered cfg senderAddr
      ({ p with toReceiver := toReceiver' }.replies t) queue data₁ data' acks acks₁' := by
  have hamong := h.toReceiver
  rw [hto, List.cons_append] at hamong
  have hheard : p.link.src_addr = some senderAddr :=
    h.heard.resolve_right fun ⟨_, _, hnil, _, _⟩ => List.cons_ne_nil _ _ (hto.symm.trans hnil)
  cases hamong with
  | @message a data₁ _ hrest =>
      obtain ⟨log, known, hparties⟩ := reachable_parties h.reachable
      have hstep := h.reachable.step (e := .receiver env (some a)) (fun _ => trivial)
        (.receiverReceives hgo rfl hpoll hturn)
      refine ⟨data₁, acks' ++ t.sent.map fun d =>
          { num := (p.written ++ t.written).length, bytes := d },
        { h with
          reachable := ?_
          toReceiver := hrest
          fromReceiver := ?_
          replyWires := List.forall_mem_append.mpr
            ⟨h.replyWires, (hparties.replyWires hgo hturn).1⟩
          heard := Or.inl hheard }⟩
      · rw [← List.append_assoc]
        exact hstep
      · rw [List.map_append, h.fromReceiver, List.map_map]
        exact congrArg (p.fromReceiver ++ ·) (List.map_id _)
  | junk hjunk hrest =>
      have hpopped : Simulates ordered cfg senderAddr { p with toReceiver := toReceiver' } queue data
          data' acks acks' :=
        { h with toReceiver := hrest, heard := Or.inl hheard }
      obtain ⟨acks₁', h'⟩ := hpopped.replies hgo (hjunk env p.receiver hpoll) hturn
      exact ⟨data, acks₁', h'⟩

end

/-! ## The simulator -/

/-- The datagram in flight that a turn of the simulator takes in for a direction, if any. -/
inductive Comes (junk : Bytes → Prop) (dir : Direction) : Option Arrival → List Datagram → Prop where
  | nothing : Comes junk dir none []
  | other {a : Arrival} (hne : a.direction ≠ dir) : Comes junk dir (some a) []
  | taken {a : Arrival} {d : Datagram} (hbuf : a.buf = d.bytes)
      (hjunk : ∀ idx < d.bytes.length, junk (corruptPkt d.bytes idx)) : Comes junk dir (some a) [d]

section
variable {cfg : LinkConfig} {env : LinkEnv} {st : LinkState} {dir : Direction}
  {junk : Bytes → Prop} {fly came : List Datagram} {arrival : Option Arrival}

/-- One direction in a turn: what comes moves behind what is on its way already. -/
theorem Among.relays (ordered : Prop) (fresh : List Datagram)
    {out sent waiting waiting' entered : List Bytes}
    (hfly : Among junk Datagram.bytes fly (out ++ waiting)) (hcame : Comes junk dir arrival came)
    (henters : Enters cfg dir arrival entered)
    (hperm : (waiting ++ entered).Perm (sent ++ waiting'))
    (heq : ordered → waiting ++ entered = sent ++ waiting') :
    ∃ fly', Among junk Datagram.bytes fly' (out ++ sent ++ waiting') ∧
      Drifts ordered (fly ++ (came ++ fresh)) (fly' ++ fresh) := by
  have hentered : ∃ fly', Drifts ordered (fly ++ (came ++ fresh)) (fly' ++ fresh) ∧
      Among junk Datagram.bytes fly' (out ++ waiting ++ entered) := by
    cases hcame with
    | nothing =>
        rw [henters.nil_of_none, List.append_nil]
        exact ⟨fly, .refl, hfly⟩
    | other hne =>
        rw [henters.nil_of_ne hne, List.append_nil]
        exact ⟨fly, .refl, hfly⟩
    | taken hbuf hjunk => exact henters.drifts hbuf hjunk hfly
  obtain ⟨fly₁, hdrifts, hamong⟩ := hentered
  rw [List.append_assoc] at hamong
  obtain ⟨fly₂, hdrifts', hamong'⟩ :=
    @Among.drifts ordered _ _ fresh _ _ hamong (hperm.append_left out)
      fun hord => congrArg (out ++ ·) (heq hord)
  rw [← List.append_assoc] at hamong'
  exact ⟨fly₂, hamong', hdrifts.trans hdrifts'⟩

/-- The state in which the datagram is taken in knows the same party as the sender. -/
theorem LinkEnv.Reads.before (h : env.Reads cfg st) (hv : st.Valid) :
    ∃ st', arrivalOf cfg env st = env.arrival cfg st' ∧ st'.src_addr = st.src_addr := by
  obtain ⟨t, ht⟩ := h
  obtain ⟨st₁, t', gone, reads, hwake, hclock, hdel, -⟩ := @proxyWake_spec cfg env st hv
  rw [ht, Except.ok.injEq, Prod.mk.injEq] at hwake
  obtain ⟨rfl, -⟩ := hwake
  exact ⟨t.state, by rw [arrivalOf, ht], hdel.src_addr.trans hclock.frame.2⟩

/-- A datagram of one of the parties is taken in as it is. -/
theorem LinkEnv.Reads.takes (h : env.Reads cfg st) (hv : st.Valid) {d : Bytes} {source : SockAddr}
    (hrecv : env.recvfrom = .bytes d source) (hmin : MIN_PKT_LEN ≤ d.length)
    (hmax : d.length ≤ MAX_PKT_LEN)
    (hdir : ∀ st' : LinkState, st'.src_addr = st.src_addr →
      directionOf cfg (st'.heardFrom source) source = some dir) :
    ∃ a, arrivalOf cfg env st = some a ∧ a.source = source ∧ a.direction = dir ∧ a.buf = d := by
  obtain ⟨st', harr, hsrc⟩ := h.before hv
  rw [LinkEnv.arrival, hrecv] at harr
  dsimp only at harr
  rw [List.take_of_length_le hmax, if_neg (Nat.not_lt.mpr hmin), hdir st' hsrc] at harr
  exact ⟨_, harr, rfl, rfl, rfl⟩

/-- What the sender sends goes forward, also if it is the first that is heard. -/
theorem directionOf_sender {source : SockAddr} (h : st.src_addr = some source ∨ st.src_addr = none) :
    directionOf cfg (st.heardFrom source) source = some .forward := by
  rcases h with h | h
  · simp [directionOf, LinkState.heardFrom, h, sockaddrCmp_self]
  · exact directionOf_first source h

/-- What the receiver sends goes back, once the sender was heard. -/
theorem directionOf_receiver {source : SockAddr} (hne : sockaddrCmp source cfg.dest_addr = true)
    (h : st.src_addr = some source) :
    directionOf cfg (st.heardFrom cfg.dest_addr) cfg.dest_addr = some .reverse := by
  rw [sockaddrCmp_comm] at hne
  simp [directionOf, LinkState.heardFrom, h, hne, sockaddrCmp_self]

end

section
variable [Zlib] {ordered : Prop} {cfg : LinkConfig} {senderAddr : SockAddr} {p p' : ProxyWorld}
  {queue : List PktSlot} {data data' acks acks' came came' : List Datagram}

/-- A turn of the simulator. -/
theorem Simulates.relays
    (h : Simulates ordered cfg senderAddr p queue data (came ++ data') acks (came' ++ acks'))
    (hne : sockaddrCmp senderAddr cfg.dest_addr = true) (hconst : ordered → cfg.Constant)
    {env : LinkEnv} {t : LinkTurn} (hrises : ordered → ClockRises env p.link)
    (hturn : LinkTurns cfg env p.link t)
    (hcame : Comes ReceiverIgnores .forward (arrivalOf cfg env p.link) came)
    (hcame' : Comes SenderIgnores .reverse (arrivalOf cfg env p.link) came')
    (hsource : ∀ a, arrivalOf cfg env p.link = some a → p.link.src_addr.getD a.source = senderAddr) :
    ∃ queue' data₁ acks₁, Simulates ordered cfg senderAddr
      ({ p with
        fromSender := data'.map Datagram.bytes
        fromReceiver := acks'.map Datagram.bytes }.relays cfg senderAddr t)
      queue' data₁ data' acks₁ acks' := by
  have hwires := h.dataWires
  rw [← h.fromSender, List.map_append, List.forall_mem_append] at hwires
  have hwires' := h.replyWires
  rw [← h.fromReceiver, List.map_append, List.forall_mem_append] at hwires'
  -- the simulator knows the sender after the turn, or nothing has ever come to it
  have hsrc := hturn.src_addr
  have hheard : t.state.src_addr = some senderAddr ∨
      t.state.src_addr = none ∧ p.link.src_addr = none ∧ arrivalOf cfg env p.link = none := by
    cases harr : arrivalOf cfg env p.link with
    | some a =>
        rw [harr] at hsrc
        exact Or.inl (hsrc.trans (congrArg some (hsource a harr)))
    | none =>
        rw [harr] at hsrc
        rcases h.heard with hsome | ⟨hnone, -⟩
        · exact Or.inl (hsrc.trans hsome)
        · exact Or.inr ⟨hsrc.trans hnone, hnone, rfl⟩
  have hempty (hnone : p.link.src_addr = none) : queue = [] ∧ p.toReceiver = [] ∧
      p.fromReceiver = [] ∧ p.toSender = [] :=
    (h.heard.resolve_left (by rw [hnone]; simp)).2
  have haddr := hturn.addressed fun hnone => by
    rw [h.linked.waiting, (hempty hnone).1]
    rfl
  obtain ⟨queue', hlinked, hchannel⟩ := h.linked.turn hconst hrises hturn
  -- before anything has come nothing is sent
  have hnil (hnone : p.link.src_addr = none) (harr : arrivalOf cfg env p.link = none) :
      t.sent = [] ∧ queue' = [] := by
    cases hturn with
    | idle hclock hdel =>
        have hwaiting := hclock.frame.1.trans h.linked.waiting
        rw [(hempty hnone).1] at hwaiting
        obtain ⟨hsent, hleft⟩ := hdel.nil hwaiting
        rw [hlinked.waiting] at hleft
        exact ⟨List.map_eq_nil_iff.mp hsent, Multiset.coe_eq_zero _ |>.mp hleft⟩
    | takes _ _ hsome =>
        rw [harr] at hsome
        exact absurd hsome (by simp)
  have harriving : arrivingAt cfg.dest_addr t.sent = sentIn .forward t.sent ∧
      arrivingAt senderAddr t.sent = sentIn .reverse t.sent := by
    rcases hheard with hsome | ⟨-, hnone, harr⟩
    · exact arrivingAt_eq hne haddr hsome
    · rw [(hnil hnone harr).1]
      exact ⟨rfl, rfl⟩
  obtain ⟨entered, henters, hperm, heq⟩ := hchannel .forward
  obtain ⟨data₁, hto, hdrifts⟩ :=
    Among.relays ordered data' h.toReceiver hcame henters hperm heq
  obtain ⟨entered', henters', hperm', heq'⟩ := hchannel .reverse
  obtain ⟨acks₁, hback, hdrifts'⟩ :=
    Among.relays ordered acks' h.toSender hcame' henters' hperm' heq'
  refine ⟨queue', data₁, acks₁, {
    reachable := reachable_drifts h.reachable hdrifts hdrifts'
    fromSender := rfl
    dataWires := hwires.2
    toReceiver := by rw [ProxyWorld.relays, harriving.1]; exact hto
    fromReceiver := rfl
    replyWires := hwires'.2
    toSender := by rw [ProxyWorld.relays, harriving.2]; exact hback
    linked := hlinked
    heard := hheard.imp_right fun ⟨hnone', hnone, harr⟩ => ?_ }⟩
  obtain ⟨hsent, hqueue⟩ := hnil hnone harr
  obtain ⟨-, hto, hfrom, hback⟩ := hempty hnone
  have hacks := h.fromReceiver
  rw [hfrom, List.map_eq_nil_iff, List.append_eq_nil_iff] at hacks
  refine ⟨hnone', hqueue, ?_, ?_, ?_⟩
  · rw [ProxyWorld.relays, hsent, hto]
    rfl
  · rw [ProxyWorld.relays, hacks.2]
    rfl
  · rw [ProxyWorld.relays, hsent, hback]
    rfl

/-- The simulator takes in a datagram of the sender. -/
theorem Simulates.forward (hd : DetectsOneByte)
    (h : Simulates ordered cfg senderAddr p queue data data' acks acks')
    (hne : sockaddrCmp senderAddr cfg.dest_addr = true)
    (hconst : ordered → cfg.Constant) {env : LinkEnv} {t : LinkTurn}
    (hrises : ordered → ClockRises env p.link) (hreads : env.Reads cfg p.link) {d : Bytes}
    {fromSender' : List Bytes} (hfrom : p.fromSender = d :: fromSender')
    (hrecv : env.recvfrom = .bytes d senderAddr) (hturn : proxyLoop cfg env p.link = .ok t) :
    ∃ queue' data₁ data₁' acks₁, Simulates ordered cfg senderAddr
      ({ p with fromSender := fromSender' }.relays cfg senderAddr t) queue' data₁ data₁' acks₁ acks' := by
  have hmap := h.fromSender
  rw [hfrom, List.map_eq_cons_iff] at hmap
  obtain ⟨m, data₁', rfl, rfl, rfl⟩ := hmap
  have hwire : DataWire m.bytes := h.dataWires m.bytes (hfrom ▸ List.mem_cons_self)
  have hsrc : p.link.src_addr = some senderAddr ∨ p.link.src_addr = none :=
    h.heard.imp_right And.left
  obtain ⟨a, harr, hsource, hdir, hbuf⟩ := hreads.takes h.linked.valid hrecv hwire.length.1
    hwire.length.2 fun st' hst' => directionOf_sender (hst'.symm ▸ hsrc)
  have hcame : Comes ReceiverIgnores .forward (arrivalOf cfg env p.link) [m] := by
    rw [harr]
    exact .taken hbuf fun idx hidx => hwire.corrupted hd hidx
  have hcame' : Comes SenderIgnores .reverse (arrivalOf cfg env p.link) [] := by
    rw [harr]
    exact .other (by rw [hdir]; exact Direction.noConfusion)
  have hfirst : ∀ a, arrivalOf cfg env p.link = some a → p.link.src_addr.getD a.source = senderAddr := by
    intro a' ha'
    rw [harr, Option.some.injEq] at ha'
    subst ha'
    rw [hsource]
    rcases hsrc with hsrc | hsrc <;> rw [hsrc] <;> rfl
  have h' : Simulates ordered cfg senderAddr p queue data ([m] ++ data₁') acks ([] ++ acks') := h
  obtain ⟨queue', data₁, acks₁, hsim⟩ := h'.relays hne hconst hrises
    (linkTurns_of_ok h.linked.valid hturn) hcame hcame' hfirst
  rw [h.fromReceiver] at hsim
  exact ⟨queue', data₁, data₁', acks₁, hsim⟩

/-- The simulator takes in a datagram of the receiver. -/
theorem Simulates.reverse (hd : DetectsOneByte)
    (h : Simulates ordered cfg senderAddr p queue data data' acks acks')
    (hne : sockaddrCmp senderAddr cfg.dest_addr = true)
    (hconst : ordered → cfg.Constant) {env : LinkEnv} {t : LinkTurn}
    (hrises : ordered → ClockRises env p.link) (hreads : env.Reads cfg p.link) {d : Bytes}
    {fromReceiver' : List Bytes} (hfrom : p.fromReceiver = d :: fromReceiver')
    (hrecv : env.recvfrom = .bytes d cfg.dest_addr) (hturn : proxyLoop cfg env p.link = .ok t) :
    ∃ queue' data₁ acks₁ acks₁', Simulates ordered cfg senderAddr
      ({ p with fromReceiver := fromReceiver' }.relays cfg senderAddr t) queue' data₁ data' acks₁ acks₁' := by
  have hmap := h.fromReceiver
  rw [hfrom, List.map_eq_cons_iff] at hmap
  obtain ⟨m, acks₁', rfl, rfl, rfl⟩ := hmap
  have hwire : ReplyWire m.bytes := h.replyWires m.bytes (hfrom ▸ List.mem_cons_self)
  -- the receiver answers, so the sender was heard
  have hsrc : p.link.src_addr = some senderAddr :=
    h.heard.resolve_right fun ⟨_, _, _, hnil, _⟩ => List.cons_ne_nil _ _ (hfrom.symm.trans hnil)
  have hmax : m.bytes.length ≤ MAX_PKT_LEN := hwire.length.trans_le (by decide)
  obtain ⟨a, harr, -, hdir, hbuf⟩ := hreads.takes h.linked.valid hrecv (le_of_eq hwire.length.symm)
    hmax fun st' hst' => directionOf_receiver hne (hst'.trans hsrc)
  have hcame : Comes ReceiverIgnores .forward (arrivalOf cfg env p.link) [] := by
    rw [harr]
    exact .other (by rw [hdir]; exact Direction.noConfusion)
  have hcame' : Comes SenderIgnores .reverse (arrivalOf cfg env p.link) [m] := by
    rw [harr]
    exact .taken hbuf fun idx hidx => hwire.corrupted hd hidx
  have h' : Simulates ordered cfg senderAddr p queue data ([] ++ data') acks ([m] ++ acks₁') := h
  obtain ⟨queue', data₁, acks₁, hsim⟩ := h'.relays hne hconst hrises
    (linkTurns_of_ok h.linked.valid hturn) hcame hcame' fun a _ => by rw [hsrc]; rfl
  rw [h.fromSender] at hsim
  exact ⟨queue', data₁, acks₁, acks₁', hsim⟩

/-- A turn of the simulator in which it takes in nothing. -/
theorem Simulates.waits (h : Simulates ordered cfg senderAddr p queue data data' acks acks')
    (hne : sockaddrCmp senderAddr cfg.dest_addr = true)
    (hconst : ordered → cfg.Constant) {env : LinkEnv} {t : LinkTurn}
    (hrises : ordered → ClockRises env p.link) (hnone : arrivalOf cfg env p.link = none)
    (hturn : proxyLoop cfg env p.link = .ok t) :
    ∃ queue' data₁ acks₁,
      Simulates ordered cfg senderAddr (p.relays cfg senderAddr t) queue' data₁ data' acks₁ acks' := by
  have h' : Simulates ordered cfg senderAddr p queue data ([] ++ data') acks ([] ++ acks') := h
  obtain ⟨queue', data₁, acks₁, hsim⟩ := h'.relays hne hconst hrises
    (linkTurns_of_ok h.linked.valid hturn) (hnone ▸ .nothing) (hnone ▸ .nothing) fun a ha => by
      rw [hnone] at ha
      exact absurd ha (by simp)
  rw [h.fromSender, h.fromReceiver] at hsim
  exact ⟨queue', data₁, acks₁, hsim⟩

/-! ## Runs -/

/-- What one step preserves. -/
theorem Simulates.step (hd : DetectsOneByte)
    (h : Simulates ordered cfg senderAddr p queue data data' acks acks')
    (hne : sockaddrCmp senderAddr cfg.dest_addr = true)
    (hconst : ordered → cfg.Constant) {e : ProxyEvent} (hsteady : ordered → Steady p e)
    (hstep : ProxyStep cfg senderAddr p e p') :
    ∃ queue data data' acks acks',
      Simulates ordered cfg senderAddr p' queue data data' acks acks' := by
  cases e with
  | udp kind =>
      obtain ⟨data₁, data₁', acks₁, acks₁', h'⟩ := h.udp hstep hsteady
      exact ⟨queue, data₁, data₁', acks₁, acks₁', h'⟩
  | sender env =>
      cases hstep with
      | sender hgo hin hnone hturn =>
          obtain ⟨data₁', h'⟩ := h.sends hgo hin hnone hturn
          exact ⟨queue, data, data₁', acks, acks', h'⟩
      | senderReceives hgo hin hto hsocket hturn =>
          obtain ⟨data₁', acks₁, h'⟩ := h.sendsReceived hgo hin hto hsocket hturn
          exact ⟨queue, data, data₁', acks₁, acks', h'⟩
  | receiver env =>
      cases hstep with
      | receiver hgo hnone hturn =>
          obtain ⟨acks₁', h'⟩ := h.replies hgo hnone hturn
          exact ⟨queue, data, data', acks, acks₁', h'⟩
      | receiverReceives hgo hto hpoll hturn =>
          obtain ⟨data₁, acks₁', h'⟩ := h.repliesReceived hgo hto hpoll hturn
          exact ⟨queue, data₁, data', acks, acks₁', h'⟩
  | link env =>
      cases hstep with
      | link _ hnone hturn =>
          obtain ⟨queue', data₁, acks₁, h'⟩ := h.waits hne hconst hsteady hnone hturn
          exact ⟨queue', data₁, data', acks₁, acks', h'⟩
      | linkForward _ hreads hfrom hrecv hturn =>
          obtain ⟨queue', data₁, data₁', acks₁, h'⟩ :=
            h.forward hd hne hconst hsteady hreads hfrom hrecv hturn
          exact ⟨queue', data₁, data₁', acks₁, acks', h'⟩
      | linkReverse _ hreads hfrom hrecv hturn =>
          obtain ⟨queue', data₁, acks₁, acks₁', h'⟩ :=
            h.reverse hd hne hconst hsteady hreads hfrom hrecv hturn
          exact ⟨queue', data₁, data', acks₁, acks₁', h'⟩

/-- What every run preserves. -/
theorem ProxyReachable.simulates (ordered : Prop) (hd : DetectsOneByte)
    (hne : sockaddrCmp senderAddr cfg.dest_addr = true)
    (hconst : ordered → cfg.Constant) {allowed : ProxyWorld → ProxyEvent → Prop}
    (hsteady : ordered → ∀ p e, allowed p e → Steady p e)
    (h : ProxyReachable cfg senderAddr allowed p) :
    ∃ queue data data' acks acks', Simulates ordered cfg senderAddr p queue data data' acks acks' := by
  induction h with
  | start buf logger statsFile clock mem statFile block now hnull =>
      exact ⟨[], [], [], [], [], simulates_start buf logger statsFile clock hnull statFile block now⟩
  | step _ hallowed hstep ih =>
      obtain ⟨queue, data, data', acks, acks', hsim⟩ := ih
      exact hsim.step hd hne hconst (fun hord => hsteady hord _ _ hallowed) hstep

end

end SelectiveRepeat
