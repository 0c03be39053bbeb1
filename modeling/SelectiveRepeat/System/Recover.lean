/-
  SelectiveRepeat.System.Recover

  Recovery from losses over links that keep the order.  The oldest packet of the
  sender's window is the one the receiver expects, or one whose ACK was lost.  In
  the first case the receiver writes it and the run stored behind it, in the second
  it repeats its last ACK; either way the ACK moves the sender's window to the
  packet the receiver expects.
-/
import SelectiveRepeat.System.Fifo

namespace SelectiveRepeat

open Reassembly

/-! ## The last ACK can be repeated -/

/-- A run behind the expected packet is stored, so it is shorter than the window. -/
theorem Represents.run_length_le {st : ReceiverState} {W : Nat} {known : Nat → Option Item}
    (h : Represents st W known) {xs : List Item} (hrun : Run known (W + 1) xs) :
    xs.length ≤ 30 := by
  by_contra hlt
  obtain ⟨x, hx⟩ := hrun.exists_item (k := W + 31) (by omega) (by omega)
  rw [← h.cells 31, st.window.cells_of_ge (Nat.le_refl 31)] at hx
  exact absurd hx (by simp)

section
variable [Zlib] {env : ReceiverEnv} {st : ReceiverState} {W : Nat} {known : Nat → Option Item}

/-- `receive_pkt` tells whether something was written. -/
theorem receivePkt_turn (h : Represents st W known) {t : ReceiverTurn}
    (hturn : readWriteLoopServer env st = .ok t) (hst : 0 < W → st.receivePkt ≠ 0)
    (hgo : t.stop = none) : 0 < W + t.written.length → t.state.receivePkt ≠ 0 := by
  -- a turn that writes nothing leaves it alone
  have hkept (hreceive : t.state.receivePkt = st.receivePkt) (hwritten : t.written = []) :
      0 < W + t.written.length → t.state.receivePkt ≠ 0 := by
    rw [hreceive, hwritten]
    exact hst
  -- a turn that returns is the last one
  have hreturned {reason : ReceiverStop} (hstop : t.stop = some reason) :
      0 < W + t.written.length → t.state.receivePkt ≠ 0 := by
    rw [hgo] at hstop
    exact absurd hstop (by simp)
  rcases readWriteLoopServer_cases h hturn with ⟨-, -, hreceive, hwritten, -⟩ | ⟨q, -, heffect⟩
  · exact hkept hreceive hwritten
  · cases heffect with
    | truncated _ _ hreceive hwritten => exact hkept hreceive hwritten
    | ignored _ _ _ hreceive hwritten => exact hkept hreceive hwritten
    | stored _ _ _ _ hreceive hwritten => exact hkept hreceive hwritten
    | noMemory _ _ _ _ _ _ hstop => exact hreturned hstop
    | disconnect _ _ _ _ _ hstop => exact hreturned hstop
    | delivered xs _ _ _ hrun _ _ _ _ hreceive =>
        have hlen := h.run_length_le hrun
        intro _
        rw [hreceive, Ne, ← UInt64.toNat_inj, UInt64.toNat_add, UInt64.toNat_ofNat',
          UInt64.toNat_one, UInt64.toNat_zero]
        omega
    | storedDisconnect _ _ _ _ _ _ _ _ _ _ _ hstop => exact hreturned hstop
    | writeFailed _ _ _ _ _ _ _ _ _ hstop => exact hreturned hstop

/-- A receiver that is running and has written something has an ACK to repeat. -/
def World.Acks (w : World) : Prop :=
  w.receiverStop = none → 0 < w.delivered → w.receiver.receivePkt ≠ 0

theorem World.Acks.replies {w : World} {log : SendLog} (h : w.Acks) (hp : Parties w log known)
    (hgo : w.receiverStop = none) {t : ReceiverTurn}
    (hturn : readWriteLoopServer env w.receiver = .ok t) : (w.replies t).Acks := by
  intro hgo' hpos
  rw [World.replies_delivered] at hpos
  exact receivePkt_turn (hp.receiver hgo) hturn (h hgo) hgo' hpos

theorem reachable_acks {w : World} {allowed : World → Event → Prop} (h : Reachable allowed w) :
    w.Acks := by
  have hboth : (∃ log known, Parties w log known) ∧ w.Acks := by
    refine h.invariant (fun w => (∃ log known, Parties w log known) ∧ w.Acks) ?_ ?_
    · intro buf logger statsFile clock mem statFile hnull
      exact ⟨⟨_, _, parties_start buf logger statsFile clock hnull statFile⟩,
        fun _ hpos => absurd hpos (Nat.lt_irrefl 0)⟩
    · rintro w e w' ⟨⟨log, known, hp⟩, hacks⟩ - hstep
      refine ⟨hp.step hstep, ?_⟩
      cases hstep with
      | data => exact hacks
      | acks => exact hacks
      | sender => exact hacks
      | senderReceives => exact hacks
      | receiver hgo _ hturn => exact hacks.replies hp hgo hturn
      | receiverReceives hgo _ _ hturn => exact hacks.replies hp hgo hturn
  exact hboth.2

/-! ## The receiver -/

/-- The packet is the expected one, or one written before. -/
theorem Effect.answers {q : Pkt} {t : ReceiverTurn} (heffect : Effect env st W known q t)
    (htr : q.tr = 0) (hne : q.data ≠ []) (hfull : ∀ k x, known k = some x → x.1 ≠ [])
    (hwhole : env.WritesWhole)
    (hold : distance st.waitedSeqnum q.seqnum = 0 ∨
      32 < distance st.waitedSeqnum q.seqnum ∧ st.receivePkt ≠ 0) :
    Replies ptypeAck (W + t.written.length) t.sent ∧
      t.state.waitedSeqnum = UInt8.ofNat (W + t.written.length) ∧
      (distance st.waitedSeqnum q.seqnum = 0 → 0 < t.written.length) := by
  cases heffect with
  | truncated htr' => exact absurd (htr.symm.trans htr') (by decide)
  | ignored _ hd hrep _ hwritten hsent =>
      obtain ⟨-, hreceive⟩ := hold.resolve_left (by omega)
      rw [Reacks, if_neg hreceive] at hsent
      rw [hwritten]
      exact ⟨hsent, hrep.waited, fun hzero => by omega⟩
  | stored _ hpos hd => omega
  | noMemory _ hpos hd => omega
  | disconnect _ _ hempty => exact absurd hempty hne
  | delivered xs _ _ _ _ _ _ _ hrep _ hwritten hsent =>
      have hlen : W + t.written.length = W + 1 + xs.length := by
        rw [hwritten, env.writes_length, List.length_cons, List.length_map]
        omega
      rw [hlen]
      refine ⟨hsent, hrep.waited, fun _ => ?_⟩
      omega
  | storedDisconnect _ _ _ _ _ _ _ hend => exact absurd rfl (hfull _ _ hend)
  | writeFailed _ _ _ _ _ _ _ hfail =>
      obtain ⟨n, payload, hpayload, hzero⟩ := hfail
      exact absurd hzero (hwhole.ne_zero n hpayload)

/-- The receiver answers the oldest packet of the sender's window with an ACK, and then
    expects one behind it. -/
theorem Joint.answers_oldest {w : World} {log : SendLog} (h : Joint w log known)
    (hgo : w.receiverStop = none) (hacks : w.Acks) {d : Bytes} (hcopy : log.Copy log.acked d)
    (hpoll : env.poll = .ready (.bytes d)) (hwhole : env.WritesWhole) :
    ∃ t, readWriteLoopServer env w.receiver = .ok t ∧
      Replies ptypeAck (w.delivered + t.written.length) t.sent ∧
      t.state.waitedSeqnum = UInt8.ofNat (w.delivered + t.written.length) ∧
      log.acked < w.delivered + t.written.length ∧
      w.delivered + t.written.length ≤ log.log.length := by
  have hrep := h.receiver hgo
  have hacked := h.acked_le
  have hdel := h.delivered_le
  have hroom := log.room
  obtain ⟨hnum, -, hcarries⟩ := hcopy.carries (Nat.le_refl _) hroom (w.Closed log)
  -- what the receiver decodes is that packet
  obtain ⟨q, hinc, hq⟩ := h.heard hcarries (by omega) hpoll
  obtain ⟨p, ts, hp, rfl⟩ := hcopy
  have hqueued := log.queued p (List.mem_of_getElem? hp)
  obtain ⟨q', hinc', -, htr, hdata⟩ :=
    ReceiverEnv.incoming_wire w.receiver hpoll (hqueued.restamp ts).sized hqueued.type
  rw [hinc, Option.some.injEq] at hinc'
  subst hinc'
  replace htr : q.tr = 0 := htr.trans hqueued.tr
  have hne : q.data ≠ [] := by
    rw [hdata hqueued.tr]
    exact hqueued.data_ne_nil
  have hfull : ∀ k x, known k = some x → x.1 ≠ [] :=
    fun k x hx => h.chunk_ne_nil (h.honest k x hx)
  have hseq : q.seqnum = UInt8.ofNat log.acked := by
    rw [hq.seqnum, hnum]
  obtain ⟨hslot, -⟩ := hrep.arrive_near (show log.acked ≤ w.delivered + 30 by omega)
    (show w.delivered ≤ log.acked + 223 by omega) htr hseq
  obtain ⟨t, hturn, heffect⟩ := readWriteLoopServer_effect hrep hinc (Or.inr hslot)
  obtain ⟨-, hle⟩ := hq.written h hgo heffect
  have hbuilt : w.chunks.length = log.log.length := h.built_eq
  -- at most 31 behind the expected packet is at least 225 ahead of it
  have hold : distance w.receiver.waitedSeqnum q.seqnum = 0 ∧ log.acked = w.delivered ∨
      log.acked < w.delivered ∧ 32 < distance w.receiver.waitedSeqnum q.seqnum := by
    rw [hrep.waited, hseq]
    rcases Nat.lt_or_eq_of_le hacked with hlt | heq
    · have hd := distance_ofNat_back hlt (by omega)
      exact Or.inr ⟨hlt, by omega⟩
    · rw [heq]
      exact Or.inl ⟨distance_self _, rfl⟩
  obtain ⟨hsent, hwaited, hpos⟩ := heffect.answers htr hne hfull hwhole
    (hold.imp And.left fun hlate => ⟨hlate.2, hacks hgo (by omega)⟩)
  refine ⟨t, hturn, hsent, hwaited, ?_, by omega⟩
  rcases hold with ⟨hzero, heq⟩ | ⟨hlt, -⟩
  · have hsome := hpos hzero
    omega
  · omega

end

/-! ## The sender -/

/-- A turn in which the sender takes an ACK: the log moves by it, and the window gets the
    size it advertises. -/
theorem readWriteLoopSender_ack [Zlib] {env : SenderEnv} {st : SenderState} {w : SendLog}
    (hr : Refines st w) (hpoll : env.pollFails = false) (hin : env.InputReads)
    (hsend : env.chunkRead st ≠ [] → 0 ≤ env.send) {reply : Pkt} {seqnum : UInt8} {ts : UInt32}
    (hreply : reply.Reply ptypeAck seqnum ts) (hsocket : env.socket = some (.bytes reply.wire)) :
    ∃ (t : SenderTurn) (w' : SendLog) (built : List Pkt) (q : Pkt),
      readWriteLoopSender env st = .ok t ∧ t.stop = none ∧ w'.acked = w.acked ∧
      w'.log = w.log ++ built ∧ built.map Pkt.data = env.chunkRead st ∧
      q.type = ptypeAck ∧ q.seqnum = seqnum ∧ Refines t.state (w'.receive (some q)) ∧
      t.state.sendingWindowSize = 31 := by
  obtain ⟨t₁, w', built, hrun₁, hinput, hsent₁, -⟩ :=
    inputBranch_spec hr hpoll (hin.inputRead_ne st)
  have hgo₁ := hsent₁ hsend
  have hr₁ := hinput.refines hgo₁
  -- the ACK is heard whatever is in the buffer
  have hspells : Datagram.Spells { num := seqnum.toNat, bytes := reply.wire } reply :=
    ⟨rfl, hreply.sized, by rw [hreply.seqnum, UInt8.ofNat_toNat]⟩
  have hne : reply.type ≠ ptypeData := by
    rw [hreply.type]
    decide
  obtain ⟨q, hq, hqtype, hqseq, hqwindow⟩ := hspells.reply hne hsocket t₁.state.pktBuffer
  rw [hreply.type] at hqtype
  rw [UInt8.ofNat_toNat] at hqseq
  rw [hreply.window] at hqwindow
  obtain ⟨buf, hcase, htr⟩ := socketBranch_of_reply hq
  have hread : Refines { t₁.state with nb := env.socketNb t₁.state.nb, pktBuffer := buf } w' :=
    ⟨hr₁.holds, hr₁.count, hr₁.seqnum, hr₁.windowSize⟩
  obtain ⟨l, hl, -⟩ := hread.holds
  obtain ⟨window', lg, hack, -⟩ := ackCase_spec env hl q (q.seqnum - 1)
  obtain ⟨t₂, hrun₂, hgo₂, hr₂, -⟩ := socketCase_spec env hread htr
  have ht₂ := hrun₂
  rw [socketCase_ack env _ hqtype htr, hack, Except.ok.injEq] at ht₂
  subst ht₂
  obtain ⟨t₃, hrun₃, hgo₃, hr₃, ⟨hnb, hsize⟩, -⟩ := checkRt_refines env hr₂
  -- `nb` is the size of the ACK, so this is not the end of the transfer
  have hnb' : env.socketNb t₁.state.nb = 10 := by
    have hlen := hreply.wire_length (by decide)
    rw [SenderEnv.socketNb, hsocket]
    show (ReadResult.bytes reply.wire).nb 12 = 10
    rw [ReadResult.nb, List.take_of_length_le (by omega), hlen]
    rfl
  have hclose : closeBranch env t₃.state = .ok { state := t₃.state } := by
    rw [closeBranch, if_neg]
    rintro ⟨hzero, -⟩
    rw [hnb] at hzero
    have hten : env.socketNb t₁.state.nb = 0 := hzero
    omega
  refine ⟨_, w', built, q,
    readWriteLoopSender_of_go hpoll hrun₁ hgo₁ (hcase.trans hrun₂) hgo₂ hrun₃ hgo₃ hclose,
    rfl, hinput.acked, hinput.log, hinput.read, hqtype, hqseq, hr₃, ?_⟩
  rw [hsize, hqwindow]
  rfl

/-! ## The exchange -/

/-- A turn of the sender, whose window held `window` before it, takes out at least the
    oldest packet and comes to the number `expected`; `built` is what it reads besides. -/
structure Recovers (env : SenderEnv) (st : SenderState) (window : List Pkt) (expected : UInt8)
    (t : SenderTurn) : Prop where
  stop : t.stop = none
  window : ∃ n built left, 0 < n ∧ n ≤ window.length ∧ built.map Pkt.data = env.chunkRead st ∧
    t.state.window.Holds left ∧ SameButTimestamp ((window ++ built).drop n) left ∧
    ∀ pkt ∈ left.head?, pkt.seqnum = expected
  windowSize : t.state.sendingWindowSize = 31

/-- Retransmitting the oldest packet always recovers.  In every state of a run over links
    that keep the order, while both parties are running: a copy of the oldest packet of
    the sender's window, whenever it was sent, is answered with an ACK, and the sender
    that takes this ACK drops at least that packet and goes on with the one the receiver
    expects, with the window the receiver advertises. -/
theorem oldest_recovers [Zlib] {w : World} (h : Reachable Fifo w) (hgo : w.senderStop = none)
    (hgo' : w.receiverStop = none) {pkt : Pkt} {l : List Pkt}
    (hwindow : w.sender.window.Holds (pkt :: l)) (ts : UInt32) {env : ReceiverEnv}
    (hpoll : env.poll = .ready (.bytes (pkt.restamp ts).wire)) (hwhole : env.WritesWhole) :
    ∃ (t : ReceiverTurn) (reply : Pkt), readWriteLoopServer env w.receiver = .ok t ∧
      t.sent = [reply.wire] ∧ reply.type = ptypeAck ∧
      ∀ env' : SenderEnv, env'.pollFails = false → env'.InputReads →
        (env'.chunkRead w.sender ≠ [] → 0 ≤ env'.send) →
        env'.socket = some (.bytes reply.wire) →
        ∃ t', readWriteLoopSender env' w.sender = .ok t' ∧
          Recovers env' w.sender (pkt :: l) t.state.waitedSeqnum t' := by
  obtain ⟨log, known, hj, -⟩ := reachable_inOrder h
  obtain ⟨l', hl', hsame⟩ := hj.window
  have hl : l' = pkt :: l := hl'.unique hwindow
  rw [hl] at hsame
  -- the oldest packet is the first of the log that is not acknowledged
  obtain ⟨pkt₀, ts₀, hpkt₀, rfl⟩ := hsame.getElem? (j := 0) (List.getElem?_cons_zero)
  rw [SendLog.outstanding, List.getElem?_drop, Nat.add_zero] at hpkt₀
  have hcopy : log.Copy log.acked (pkt₀.restamp ts).wire := ⟨pkt₀, ts, hpkt₀, rfl⟩
  obtain ⟨t, hturn, ⟨reply, ts', hreply, hsent⟩, hwaited, hlt, hle⟩ :=
    hj.answers_oldest hgo' (reachable_acks h) hcopy hpoll hwhole
  generalize w.delivered + t.written.length = A at *
  refine ⟨t, reply, hturn, hsent, hreply.type, fun env' hpoll' hin hsend hsocket => ?_⟩
  obtain ⟨t', w', built, q, hturn', hstop, hacked, hlog, hread, hqtype, hqseq, hr, hsize⟩ :=
    readWriteLoopSender_ack (hj.sender hgo) hpoll' hin hsend hreply hsocket
  refine ⟨t', hturn', hstop, ?_, hsize⟩
  -- the ACK moves the log to what the receiver has written
  have hmax : (w'.receive (some q)).acked = A := by
    have hgrown : A ≤ w'.log.length := by
      rw [hlog, List.length_append]
      omega
    rw [w'.receive_acked hqtype hqseq hgrown (by omega), hacked]
    exact Nat.max_eq_right (Nat.le_of_lt hlt)
  obtain ⟨left, hleft, hsame'⟩ := hr.holds
  have hdrop : (w'.receive (some q)).outstanding =
      (log.outstanding ++ built).drop (A - log.acked) := by
    rw [SendLog.outstanding, hmax, SendLog.receive_log, hlog, SendLog.outstanding,
      ← List.drop_append_of_le_length log.acked_le, List.drop_drop]
    congr 1
    omega
  have hlen := hsame.length_eq
  rw [log.outstanding_length] at hlen
  refine ⟨A - log.acked, built, left, by omega, by omega, hread, hleft, ?_, ?_⟩
  · have hboth := (hsame.symm.append (sameButTimestamp_refl built)).drop (A - log.acked)
    rw [hdrop] at hsame'
    exact hboth.trans hsame'
  · have hc := (w'.receive (some q)).outstanding_consecutive.congr hsame'.seqnums
    rw [hmax] at hc
    cases left with
    | nil => exact fun p hp => absurd hp (by simp)
    | cons next left =>
        intro p hp
        rw [List.head?_cons, Option.mem_some_iff] at hp
        rw [← hp, hc.1, hwaited]

/-- A packet was written and its ACK lost: the packet is sent again, the ACK repeated, and the
    packet taken out. -/
theorem oldest_recovers_written : letI := zlib
    ∃ (w : World) (pkt reply : Pkt) (t : SenderTurn), w.delivered = 1 ∧
      w.sender.window.Holds [pkt] ∧
      readWriteLoopSender { quietEnv 0 with socket := some (.bytes reply.wire) } w.sender = .ok t ∧
      t.state.window.Holds [] ∧ t.state.sendingWindowSize = 31 := by
  let _ := zlib
  obtain ⟨w, h⟩ := exists_written
  have hreach := h.reachable.mono fun _ _ he => he.2
  -- one packet is in the window
  obtain ⟨log, known, hp⟩ := reachable_parties hreach
  obtain ⟨l, hl, hsame⟩ := hp.window
  have hlen := hsame.length_eq
  rw [log.outstanding_length, ← hp.built_eq, ← hp.acked_eq, h.acked, World.built, h.chunks] at hlen
  obtain ⟨pkt, rfl⟩ := List.length_eq_one_iff.mp hlen.symm
  have hpoll : (datagramEnv pkt.wire).poll = .ready (.bytes (pkt.restamp pkt.timestamp).wire) := rfl
  obtain ⟨t, reply, -, -, -, hall⟩ :=
    oldest_recovers hreach h.sender h.receiver hl pkt.timestamp hpoll fun _ _ => rfl
  obtain ⟨t', hturn, hrecovers⟩ :=
    hall { quietEnv 0 with socket := some (.bytes reply.wire) } rfl
      (fun r hr => absurd hr (by simp [quietEnv])) (fun _ => Int.le_refl 0) rfl
  -- nothing was read, so nothing is left
  obtain ⟨n, built, left, hpos, hle, hread, hleft, hsame', -⟩ := hrecovers.window
  have hnil : built = [] := List.map_eq_nil_iff.mp hread
  have hone : n = 1 := Nat.le_antisymm hle hpos
  rw [hnil, hone] at hsame'
  have hempty : left = [] := List.eq_nil_of_length_eq_zero hsame'.length_eq.symm
  rw [hempty] at hleft
  exact ⟨w, pkt, reply, t', h.delivered, hl, hturn, hleft, hrecovers.windowSize⟩

end SelectiveRepeat
