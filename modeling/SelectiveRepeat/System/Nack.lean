/-
  SelectiveRepeat.System.Nack

  What a NACK names.  The receiver answers a truncated packet with the number it
  expects next; the sender takes the number of a NACK for one more than that of
  the packet to send again, as it does for an ACK.  So the packet sent again is the
  one before the expected one, whichever packet was truncated.
-/
import SelectiveRepeat.System.Safety

namespace SelectiveRepeat

open Channel Reassembly

/-! ## A truncated packet, its NACK and the answer to it -/

/-- `d` is packet `k` as the sender sends it. -/
def World.CopyOf [Zlib] (w : World) (k : Nat) (d : Bytes) : Prop :=
  ∃ pkt : Pkt, pkt.Queued ∧ pkt.seqnum = UInt8.ofNat k ∧ w.chunks[k]? = some pkt.data ∧
    d = pkt.wire

/-- The receiver takes a truncated copy of packet `k` in the state `w`, which goes on
    with `w'`, and sends `nack`. -/
inductive NackSent [Zlib] (w : World) (k : Nat) : World → Bytes → Prop where
  | turn {env : ReceiverEnv} {t : ReceiverTurn} {d : Datagram} {data' : List Datagram}
      {copy nack : Bytes} (hgo : w.receiverStop = none) (hdata : w.data = d :: data')
      (hcopy : w.CopyOf k copy) (htruncated : d.bytes = truncate copy)
      (hpoll : env.poll = .ready (.bytes d.bytes))
      (hturn : readWriteLoopServer env w.receiver = .ok t) (hnack : nack ∈ t.sent) :
      NackSent w k ({ w with data := data' }.replies t) nack

/-- The sender takes `nack` in the state `w`, with packet `k` in its window; `t` is its
    turn up to the socket. -/
structure NackReceived [Zlib] (w : World) (k : Nat) (nack : Bytes) (env : SenderEnv)
    (t : SenderTurn) : Prop where
  running : w.senderStop = none
  held : w.acked ≤ k ∧ k < w.built
  reads : env.InputReads
  poll : env.pollFails = false
  socket : env.socket = some (.bytes nack)
  input : inputBranch env w.sender = .ok t
  goes_on : t.stop = none

/-- The socket block of the turn sends packet `k`. -/
def Resends [Zlib] (w : World) (k : Nat) (env : SenderEnv) (t : SenderTurn) : Prop :=
  ∃ t', socketBranch env t.state = .ok t' ∧ ∃ d ∈ t'.sent, w.CopyOf k d

/-! ## The number in the NACK -/

section
variable [Zlib] {w w' : World} {log : SendLog} {known : Nat → Option Item} {k : Nat} {nack : Bytes}

theorem NackSent.step (h : NackSent w k w' nack) : ∃ e, Step w e w' := by
  obtain ⟨hgo, hdata, -, -, hpoll, hturn, -⟩ := h
  exact ⟨_, .receiverReceives hgo hdata hpoll hturn⟩

/-- A turn that takes a truncated packet is defined, and sends a NACK with the expected
    number. -/
theorem truncated_turn {st : ReceiverState} {W : Nat} (hrep : Represents st W known)
    {pkt : Pkt} (hq : pkt.Queued) {env : ReceiverEnv}
    (hpoll : env.poll = .ready (.bytes (truncate pkt.wire))) :
    ∃ t, readWriteLoopServer env st = .ok t ∧ Replies ptypeNack W t.sent := by
  rw [truncate_wire hq.sized] at hpoll
  obtain ⟨q, hinc, -, htr, -⟩ :=
    ReceiverEnv.incoming_wire st hpoll hq.sized.truncated hq.type
  have hone : q.tr = 1 := htr
  obtain ⟨t, hturn, heffect⟩ := readWriteLoopServer_effect hrep hinc (Or.inl hone)
  refine ⟨t, hturn, ?_⟩
  have hne : q.tr ≠ 0 := by
    rw [hone]
    exact show (1 : BitVec 1) ≠ 0 by decide
  -- the other effects are those of a packet without TR
  cases heffect with
  | truncated _ _ _ _ hsent => exact hsent
  | ignored htr' => exact absurd htr' hne
  | stored htr' => exact absurd htr' hne
  | noMemory htr' => exact absurd htr' hne
  | disconnect htr' => exact absurd htr' hne
  | delivered _ htr' => exact absurd htr' hne
  | storedDisconnect _ _ htr' => exact absurd htr' hne
  | writeFailed _ htr' => exact absurd htr' hne

/-- The receiver sends the number it expects next, whatever `k` is. -/
theorem NackSent.names_expected (h : NackSent w k w' nack) (hp : Parties w log known) :
    ∃ pkt : Pkt, nack = pkt.wire ∧ pkt.Sized ∧ pkt.type = ptypeNack ∧
      pkt.seqnum = w.receiver.waitedSeqnum := by
  obtain @⟨env, t, d, data', copy, nack, hgo, -, hcopy, htruncated, hpoll, hturn, hnack⟩ := h
  obtain ⟨pkt, hq, -, -, rfl⟩ := hcopy
  have hrep := hp.receiver hgo
  rw [htruncated] at hpoll
  obtain ⟨t', hturn', reply, ts, hreply, hsent⟩ := truncated_turn hrep hq hpoll
  rw [hturn, Except.ok.injEq] at hturn'
  subst hturn'
  rw [hsent, List.mem_singleton] at hnack
  refine ⟨reply, hnack, hreply.sized, hreply.type, ?_⟩
  rw [hreply.seqnum, hrep.waited]

/-- A truncated packet at the head of the channel can always be answered. -/
theorem Parties.exists_nackSent (h : Parties w log known) (hgo : w.receiverStop = none)
    {d : Datagram} {data' : List Datagram} (hdata : w.data = d :: data') {copy : Bytes}
    (hcopy : w.CopyOf k copy) (htruncated : d.bytes = truncate copy) :
    ∃ (t : ReceiverTurn) (nack : Bytes),
      NackSent w k ({ w with data := data' }.replies t) nack := by
  obtain ⟨pkt, hq, hseq, hchunk, rfl⟩ := hcopy
  have hpoll : (datagramEnv d.bytes).poll = .ready (.bytes (truncate pkt.wire)) := by
    rw [← htruncated]
    rfl
  obtain ⟨t, hturn, reply, ts, hreply, hsent⟩ := truncated_turn (h.receiver hgo) hq hpoll
  refine ⟨t, reply.wire, .turn hgo hdata ⟨pkt, hq, hseq, hchunk, rfl⟩ htruncated rfl hturn ?_⟩
  rw [hsent]
  exact List.mem_singleton.mpr rfl

/-! ## The packet sent for it -/

/-- The sender sends the packet of its window with the number before the one in the
    NACK, if there is one. -/
theorem NackReceived.sends {env : SenderEnv} {t : SenderTurn}
    (h : NackReceived w k nack env t) (hp : Parties w log known) {pkt : Pkt}
    (hnack : nack = pkt.wire) (hs : pkt.Sized) (htype : pkt.type = ptypeNack) :
    ∃ (log' : SendLog) (t' : SenderTurn) (ts : UInt32),
      log'.acked = log.acked ∧ log.log <+: log'.log ∧ socketBranch env t.state = .ok t' ∧
      t'.sent = ((log'.outstanding[distance (UInt8.ofNat log.acked) (pkt.seqnum - 1)]?).map
        fun pkt : Pkt => (pkt.restamp ts).wire).toList := by
  obtain ⟨t₀, log', built, hrun, hinput, -⟩ :=
    inputBranch_spec (hp.sender h.running) h.poll (h.reads.inputRead_ne w.sender)
  rw [h.input, Except.ok.injEq] at hrun
  subst hrun
  have hne : pkt.type ≠ ptypeData := by
    rw [htype]
    decide
  have hnum : pkt.seqnum = UInt8.ofNat pkt.seqnum.toNat := (UInt8.ofNat_toNat).symm
  have hspells : Datagram.Spells { num := pkt.seqnum.toNat, bytes := nack } pkt :=
    ⟨hnack, hs, hnum⟩
  obtain ⟨q, hreply, hqtype, hqseq, -⟩ := hspells.reply hne h.socket t.state.pktBuffer
  obtain ⟨buf, hcase, htr⟩ := socketBranch_of_reply hreply
  -- the socket is read in the state the input block leaves
  have hr := hinput.refines h.goes_on
  have hread : Refines { t.state with nb := env.socketNb t.state.nb, pktBuffer := buf } log' :=
    ⟨hr.holds, hr.count, hr.seqnum, hr.windowSize⟩
  obtain ⟨t', hrun', -, -, -, hsent⟩ := socketCase_nack env hread htr (hqtype.trans htype)
  rw [hqseq, ← hnum, hinput.acked] at hsent
  exact ⟨log', t', _, hinput.acked, ⟨built, hinput.log.symm⟩, hcase.trans hrun', hsent⟩

/-- Among the packets of the window, only packet `k` is a copy of it. -/
theorem copyOf_outstanding_iff (hp : Parties w log known) {log' : SendLog}
    (hacked : log'.acked = log.acked) (hgrown : log.log <+: log'.log) (hk : log.acked ≤ k)
    (hlt : k < log.log.length) {j : Nat} {pkt : Pkt} (hpkt : log'.outstanding[j]? = some pkt)
    (ts : UInt32) : w.CopyOf k (pkt.restamp ts).wire ↔ log.acked + j = k := by
  rw [SendLog.outstanding, List.getElem?_drop, hacked] at hpkt
  obtain ⟨hj', hget⟩ := List.getElem?_eq_some_iff.mp hpkt
  have hroom := log'.room
  have hlen := hgrown.length_le
  have hq := log'.queued pkt (List.mem_of_getElem? hpkt)
  have hseq : pkt.seqnum = UInt8.ofNat (log.acked + j) := by
    rw [← hget]
    exact log'.numbered _ hj'
  refine ⟨?_, ?_⟩
  · -- the sequence numbers in the window are different
    rintro ⟨pkt', hq', hseq', -, hwire⟩
    have hbyte : (pkt.restamp ts).wire[3]? = pkt'.wire[3]? := by rw [hwire]
    rw [Pkt.wire_seqnum (hq.restamp ts).type, Pkt.wire_seqnum hq'.type, Option.some.injEq,
      Pkt.restamp_seqnum, hseq, hseq'] at hbyte
    have hd := distance_ofNat (Nat.le_add_right log.acked j) (by omega)
    rw [hbyte, distance_ofNat hk (by omega)] at hd
    omega
  · intro heq
    refine ⟨pkt.restamp ts, hq.restamp ts, ?_, ?_, rfl⟩
    · rw [Pkt.restamp_seqnum, hseq, heq]
    · obtain ⟨built, hbuilt⟩ := hgrown
      rw [heq, ← hbuilt, List.getElem?_append_left hlt] at hpkt
      rw [hp.chunks, List.getElem?_map, hpkt]
      rfl

/-- A NACK makes the sender send packet `k` exactly when it has the number after it. -/
theorem NackReceived.resends_iff {env : SenderEnv} {t : SenderTurn}
    (h : NackReceived w k nack env t) (hp : Parties w log known) {pkt : Pkt}
    (hnack : nack = pkt.wire) (hs : pkt.Sized) (htype : pkt.type = ptypeNack) :
    Resends w k env t ↔ pkt.seqnum = UInt8.ofNat k + 1 := by
  obtain ⟨log', t', ts, hacked, hgrown, hrun, hsent⟩ := h.sends hp hnack hs htype
  have hheld := h.held
  rw [hp.acked_eq, hp.built_eq] at hheld
  have hroom := log'.room
  have hlen := log'.outstanding_length
  have hgrow := hgrown.length_le
  have hresends : Resends w k env t ↔ ∃ d ∈ t'.sent, w.CopyOf k d := by
    refine ⟨?_, ?_⟩
    · rintro ⟨t'', hrun', hd⟩
      rw [hrun, Except.ok.injEq] at hrun'
      rw [hrun']
      exact hd
    · intro hd
      exact ⟨t', hrun, hd⟩
  -- the place in the window of the packet that is looked up
  have hplace : pkt.seqnum = UInt8.ofNat k + 1 ↔
      distance (UInt8.ofNat log.acked) (pkt.seqnum - 1) = k - log.acked := by
    rw [← distance_ofNat hheld.1 (by omega), distance_inj]
    refine ⟨?_, ?_⟩
    · intro hseq
      rw [hseq, UInt8.add_sub_cancel]
    · intro hseq
      rw [← hseq, UInt8.sub_add_cancel]
  rw [hresends, hsent, hplace]
  cases hpkt : log'.outstanding[distance (UInt8.ofNat log.acked) (pkt.seqnum - 1)]? with
  | none =>
      -- nothing is sent, and packet `k` has a place in the window
      rw [List.getElem?_eq_none_iff] at hpkt
      refine ⟨?_, ?_⟩
      · rintro ⟨d, hd, -⟩
        exact absurd hd (by simp)
      · intro heq
        omega
  | some pkt' =>
      have hcopy : (∃ d ∈ ((some pkt').map fun pkt : Pkt => (pkt.restamp ts).wire).toList,
          w.CopyOf k d) ↔ w.CopyOf k (pkt'.restamp ts).wire := by simp
      rw [hcopy, copyOf_outstanding_iff hp hacked hgrown hheld.1 hheld.2 hpkt ts]
      omega

/-- In the runs of the safety theorem the packet before the expected one is the last one
    written, which the receiver does not need again. -/
theorem waited_eq_iff (h : Reachable Fresh w) (hgo : w.receiverStop = none)
    (hheld : w.acked ≤ k ∧ k < w.built) :
    w.receiver.waitedSeqnum = UInt8.ofNat k + 1 ↔ k + 1 = w.delivered := by
  obtain ⟨log, known, hj⟩ := reachable_joint h
  rw [hj.acked_eq, hj.built_eq] at hheld
  have hacked := hj.acked_le
  have hdelivered := hj.delivered_le
  have hroom := log.room
  have hwaited := (hj.receiver hgo).waited
  rw [hwaited, ← ofNat_succ]
  refine ⟨?_, ?_⟩
  · intro heq
    -- both numbers are from the window
    have hd := distance_ofNat hacked (by omega)
    rw [heq, distance_ofNat (show log.acked ≤ k + 1 by omega) (by omega)] at hd
    omega
  · intro heq
    rw [heq]

/-- In every run, whatever the link does: the NACK for a truncated copy of packet `k`
    makes the sender send packet `k` again exactly when `k` came just before the packet
    the receiver expected. -/
theorem nack_resends_iff {allowed : World → Event → Prop} {w₁ : World} {env : SenderEnv}
    {t : SenderTurn} (h : Reachable allowed w) (hsent : NackSent w k w₁ nack)
    (hsteps : Steps allowed w₁ w') (hreceived : NackReceived w' k nack env t) :
    Resends w' k env t ↔ w.receiver.waitedSeqnum = UInt8.ofNat k + 1 := by
  have hany {w : World} (h : Reachable allowed w) : Reachable (fun _ _ => True) w :=
    h.mono fun _ _ _ => trivial
  obtain ⟨log, known, hp⟩ := reachable_parties h
  obtain ⟨e, hstep⟩ := hsent.step
  have h' : Reachable (fun _ _ => True) w' :=
    ((hany h).step trivial hstep).steps (hsteps.mono fun _ _ _ => trivial)
  obtain ⟨log', known', hp'⟩ := reachable_parties h'
  obtain ⟨pkt, hnack, hs, htype, hseq⟩ := hsent.names_expected hp
  rw [← hseq]
  exact hreceived.resends_iff hp' hnack hs htype

end

/-! ## Two runs -/

/-- A turn of the sender that takes `nack` and reads nothing. -/
def nackEnv (nack : Bytes) : SenderEnv := { quietEnv 0 with socket := some (.bytes nack) }

/-- After one packet was sent, a copy of it is truncated, its NACK is sent, and the
    sender takes it. -/
theorem OneSent.exists_nackReceived [Zlib] {w : World} {delivered : Nat} (h : OneSent w delivered) :
    ∃ w₀ w₁ nack env t, Reachable Orderly w₀ ∧ w₀.delivered = delivered ∧
      w₀.receiver = w.receiver ∧ (w₀.acked ≤ 0 ∧ 0 < w₀.built) ∧ NackSent w₀ 0 w₁ nack ∧
      NackReceived w₁ 0 nack env t := by
  let d := Datagram.sent 0 firstPkt.wire
  -- the link truncates the packet in flight
  have hcut : Disturbs Datagram.truncate .alter w.data [d.truncate] := by
    rw [h.data]
    exact .alter [] d []
  have hreach := h.reachable.step (e := .data .alter)
    ⟨⟨trivial, trivial⟩, fun hkind => Disturbance.noConfusion hkind⟩ (.data hcut)
  have hcopy : World.CopyOf { w with data := [d.truncate] } 0 firstPkt.wire := by
    refine ⟨firstPkt, ⟨rfl, rfl, Nat.one_pos, show (1 : Nat) ≤ 512 by omega⟩, rfl, ?_, rfl⟩
    rw [h.chunks]
    rfl
  have hheld : World.acked { w with data := [d.truncate] } ≤ 0 ∧
      0 < World.built { w with data := [d.truncate] } := by
    refine ⟨Nat.le_of_eq h.acked, ?_⟩
    rw [World.built, h.chunks]
    exact Nat.one_pos
  obtain ⟨log, known, hp⟩ := reachable_parties hreach
  obtain ⟨t, nack, hsent⟩ := hp.exists_nackSent h.receiver rfl hcopy rfl
  refine ⟨_, _, nack, nackEnv nack, { state := w.sender }, hreach, h.delivered, rfl, hheld, hsent,
    h.sender, hheld, ?_, rfl, rfl, rfl, rfl⟩
  intro r hr
  exact absurd hr (by simp [nackEnv, quietEnv])

/-- The packet is already written when its truncated copy arrives: it is sent again. -/
theorem nack_resends_iff_written : letI := zlib
    ∃ w₀ w₁ nack env t, NackSent w₀ 0 w₁ nack ∧ NackReceived w₁ 0 nack env t ∧
      Resends w₁ 0 env t := by
  let _ := zlib
  obtain ⟨w, h⟩ := exists_written
  obtain ⟨w₀, w₁, nack, env, t, hreach, hdelivered, hreceiver, hheld, hsent, hreceived⟩ :=
    h.exists_nackReceived
  have hgo : w₀.receiverStop = none := by
    cases hsent with
    | turn hgo => exact hgo
  have hwaited : w₀.receiver.waitedSeqnum = UInt8.ofNat 0 + 1 :=
    (waited_eq_iff (hreach.mono fun _ _ he => he.1.1) hgo hheld).mpr hdelivered.symm
  exact ⟨w₀, w₁, nack, env, t, hsent, hreceived,
    (nack_resends_iff hreach hsent .refl hreceived).mpr hwaited⟩

/-- The receiver still waits for the packet when its truncated copy arrives: the NACK
    has its number, and the sender looks up the one before. -/
theorem nack_not_resends : ¬ ∀ [Zlib] (w w₁ w' : World) (k : Nat) (nack : Bytes) (env : SenderEnv)
    (t : SenderTurn), Reachable Reordering w → w.acked ≤ k ∧ k < w.built → NackSent w k w₁ nack →
    Steps Reordering w₁ w' → NackReceived w' k nack env t → Resends w' k env t := by
  intro hall
  let _ := zlib
  obtain ⟨w, h, hinit⟩ := exists_sent
  obtain ⟨w₀, w₁, nack, env, t, hreach, -, hreceiver, hheld, hsent, hreceived⟩ :=
    h.exists_nackReceived
  have hresends := hall w₀ w₁ w₁ 0 nack env t (hreach.mono fun _ _ he => he.1) hheld hsent .refl
    hreceived
  obtain ⟨log, known, hp⟩ := reachable_parties hreach
  obtain ⟨e, hstep⟩ := hsent.step
  obtain ⟨log', known', hp'⟩ := hp.step hstep
  obtain ⟨pkt, hnack, hs, htype, hseq⟩ := hsent.names_expected hp
  have hnext := (hreceived.resends_iff hp' hnack hs htype).mp hresends
  rw [hseq, hreceiver, hinit] at hnext
  exact absurd hnext (by decide)

end SelectiveRepeat
