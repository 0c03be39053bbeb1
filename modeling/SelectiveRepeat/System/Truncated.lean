/-
  SelectiveRepeat.System.Truncated

  Truncation in the network.  What a link leaves of a DATA packet is the header with
  TR set and the CRC1 that both sides compute with TR cleared, so the receiver
  recognises it, answers with a NACK and looks no further: neither at the sequence
  number nor at the length, which still counts the bytes that were cut off.
-/
import SelectiveRepeat.Receiver.Uninitialised
import SelectiveRepeat.Segment.Encode
import SelectiveRepeat.System.Datagram

namespace SelectiveRepeat

/-! ## The decoder -/

/-- Cutting off the payload leaves 12 bytes. -/
theorem truncated_wire_length [Zlib] {pkt : Pkt} (htype : pkt.type = ptypeData) :
    pkt.truncated.wire.length = 12 := by
  have hnone : ¬ (pkt.truncated.tr = 0 ∧ 0 < pkt.truncated.length) :=
    fun h => absurd h.1 (show ¬ (1 : BitVec 1) = 0 by decide)
  have htype' : pkt.truncated.type = ptypeData := htype
  rw [Pkt.wire_length_eq_size, Pkt.size, if_pos htype', if_neg hnone]

/-- The encoding is the wire image, and what is left of it that of the truncated packet. -/
theorem truncate_encoded [Zlib] {pkt : Pkt} (hs : pkt.Sized) {buf buf' : Mem} {cap n : Nat}
    (hcap : cap < 2 ^ 31) (henc : pktEncode pkt buf cap = .ok (.pktOk, buf', n)) :
    truncate (buf'.slice 0 n) = pkt.truncated.wire := by
  have hroom : pkt.wire.length ≤ cap := by
    by_contra hlt
    have hfail : intOfSize cap < encodeBase pkt := by
      rw [intOfSize_of_lt hcap, ← pkt.wire_length]
      omega
    rw [pktEncode, if_pos hfail] at henc
    cases henc
  rw [pktEncode_blit hs buf hcap hroom] at henc
  cases henc
  rw [Mem.slice_blit, truncate_wire hs]

/-! ## The receiver -/

/-- A reply always is 10 bytes, whatever memory the run started from: a run is like itself. -/
theorem receiverRun_ackSize [Zlib] {mem : ReceiverMemory} {statFile : Bool}
    {envs : List ReceiverEnv} {run : ReceiverRun}
    (hrun : receiverRun mem statFile envs = .ok run) : run.state.ackSize = 10 := by
  have hsame : List.Forall₂ ReceiverEnv.SameOutside envs envs :=
    List.forall₂_same.mpr fun env _ => ReceiverEnv.SameOutside.refl env
  have hinit : ReceiverRun.Alike { state := receiverInit mem statFile }
      { state := receiverInit mem statFile } := ⟨⟨rfl, rfl, rfl, rfl, rfl⟩, rfl, rfl, rfl⟩
  have hagree := receiverTurns_alike hsame hinit
  rw [← receiverRun.eq_1, hrun] at hagree
  cases hagree with
  | ok h => exact h.state.ackSize

/-- The NACK carries the expected number and the timestamp of what was truncated. -/
theorem truncatedCase_spec [Zlib] (env : ReceiverEnv) {st : ReceiverState} (hsize : st.ackSize = 10) :
    ∃ t reply, truncatedCase env st = .ok t ∧
      Pkt.Reply reply ptypeNack st.waitedSeqnum st.pkt.timestamp ∧ t.sent = [reply.wire] ∧
      t.written = [] ∧ t.state.window = st.window ∧ t.state.waitedSeqnum = st.waitedSeqnum := by
  have hlog : ReceiverState.ackSize { st with
      receiverLogger := st.receiverLogger.addDataTruncatedReceived } = 10 := hsize
  obtain ⟨reply, buffer, hreply, hrun⟩ := sendReply_spec env hlog [] st.pkt.timestamp
    (show (3 : UInt32) ≠ 0 by decide) (by decide) Logger.addNackSent
  by_cases hsend : env.send = 0
  · rw [if_pos hsend] at hrun
    exact ⟨_, reply, hrun, hreply, rfl, rfl, rfl, rfl⟩
  · rw [if_neg hsend] at hrun
    exact ⟨_, reply, hrun, hreply, rfl, rfl, rfl, rfl⟩

/-- A truncated DATA packet is answered with one NACK, and nothing else happens. -/
theorem readWriteLoopServer_truncated [Zlib] {env : ReceiverEnv} {st : ReceiverState} {q : Pkt}
    (hsize : st.ackSize = 10) (hinc : env.incoming st = some q) (htr : q.tr = 1) :
    ∃ t reply, readWriteLoopServer env st = .ok t ∧
      Pkt.Reply reply ptypeNack st.waitedSeqnum q.timestamp ∧ t.sent = [reply.wire] ∧
      t.written = [] ∧ t.state.window = st.window ∧ t.state.waitedSeqnum = st.waitedSeqnum := by
  obtain ⟨buf, hturn, -, -⟩ := readWriteLoopServer_of_incoming hinc
  have hdata : ReceiverState.ackSize { st with
      dataBuffer := buf
      pkt := q
      receiverLogger := st.receiverLogger.addDataReceived } = 10 := hsize
  obtain ⟨t, reply, hrun, hrest⟩ := truncatedCase_spec env hdata
  refine ⟨t, reply, ?_, hrest⟩
  rw [hturn, dataCase, if_pos htr]
  exact hrun

/-- For every DATA packet with a legal length, what the network leaves of its
    encoding is accepted as the same packet with TR set, into any destination; and at any
    moment of any run the receiver answers it with exactly one NACK and leaves the expected
    number, the window and what it has written as they are. -/
theorem truncated_harmless [Zlib] (pkt : Pkt) (htype : pkt.type = ptypeData)
    (hle : pkt.length.toNat ≤ 512) (buf buf' : Mem) (cap n : Nat) (hcap : cap < 2 ^ 31)
    (henc : pktEncode pkt buf cap = .ok (.pktOk, buf', n)) :
    (∀ (data : Mem) (prior : Pkt), data.slice 0 12 = truncate (buf'.slice 0 n) →
      ∃ q, pktDecode data 12 prior = .ok (.pktOk, q) ∧ q.tr = 1 ∧ q.type = pkt.type ∧
        q.window = pkt.window ∧ q.length = pkt.length ∧ q.seqnum = pkt.seqnum ∧
        q.timestamp = pkt.timestamp) ∧
    ∀ (mem : ReceiverMemory) (statFile : Bool) (envs : List ReceiverEnv) (run : ReceiverRun),
      receiverRun mem statFile envs = .ok run → run.stop = none →
      ∀ env : ReceiverEnv, env.poll = .ready (.bytes (truncate (buf'.slice 0 n))) →
      ∃ run' reply, receiverRun mem statFile (envs ++ [env]) = .ok run' ∧
        Pkt.Reply reply ptypeNack run.state.waitedSeqnum pkt.timestamp ∧
        run'.sent = run.sent ++ [reply.wire] ∧ run'.written = run.written ∧
        run'.state.window = run.state.window ∧
        run'.state.waitedSeqnum = run.state.waitedSeqnum := by
  have hs : pkt.Sized := ⟨hle, fun hne => absurd htype hne⟩
  have hlen := truncated_wire_length htype
  rw [truncate_encoded hs hcap henc]
  refine ⟨?_, ?_⟩
  · intro data prior hdata
    rw [← hlen] at hdata
    obtain ⟨q, hdec, hsame, htr', -⟩ :=
      pktDecode_wire hs.truncated hdata (Nat.le_of_eq hlen) (by omega) prior
    rw [Pkt.decodedTr, if_pos (show pkt.truncated.type = ptypeData from htype)] at htr'
    exact ⟨q, hdec, htr', hsame.type, hsame.window, hsame.length, hsame.seqnum, hsame.timestamp⟩
  · intro mem statFile envs run hrun hgo env hpoll
    obtain ⟨q, hinc, hsame, htr', -⟩ :=
      ReceiverEnv.incoming_wire run.state hpoll hs.truncated htype
    obtain ⟨t, reply, hturn, hreply, hsent, hwritten, hwindow, hwaited⟩ :=
      readWriteLoopServer_truncated (receiverRun_ackSize hrun) hinc htr'
    rw [hsame.timestamp] at hreply
    refine ⟨_, reply, (receiverRun_last hrun env).trans (ReceiverRun.turn_of_ok hgo hturn), hreply,
      ?_, ?_, hwindow, hwaited⟩
    · rw [hsent]
    · rw [hwritten, List.append_nil]

/-- The packet of packet_test.c, truncated on its way to a receiver that expects 0. -/
theorem truncated_harmless_hello : letI := zlib
    ∃ buf' n, pktEncode helloPkt (fun _ => 0) 57 = .ok (.pktOk, buf', n) ∧
      (∀ (data : Mem) (prior : Pkt), data.slice 0 12 = truncate (buf'.slice 0 n) →
        ∃ q, pktDecode data 12 prior = .ok (.pktOk, q) ∧ q.tr = 1 ∧ q.length = 11) ∧
      ∃ run' reply, receiverRun nullMemory false
          ([] ++ [datagramEnv (truncate (buf'.slice 0 n))]) = .ok run' ∧
        Pkt.Reply reply ptypeNack 0 0x17 ∧ run'.sent = [] ++ [reply.wire] := by
  let _ := zlib
  have hroom : helloPkt.wire.length ≤ 57 := by
    rw [helloPkt.wire_length_eq_size]
    decide
  have henc := pktEncode_blit ⟨by decide, by decide⟩ (fun _ => 0) (by decide) hroom
  obtain ⟨hdecode, hreceive⟩ := truncated_harmless helloPkt rfl (by decide) (fun _ => 0) _ 57 _
    (by decide) henc
  refine ⟨_, _, henc, fun data prior hdata => ?_, ?_⟩
  · obtain ⟨q, hdec, htr, -, -, hlength, -, -⟩ := hdecode data prior hdata
    exact ⟨q, hdec, htr, hlength⟩
  · obtain ⟨run', reply, hrun', hreply, hsent, -, -, -⟩ :=
      hreceive nullMemory false [] { state := receiverInit nullMemory false } rfl rfl
        (datagramEnv _) rfl
    exact ⟨run', reply, hrun', hreply, hsent⟩

end SelectiveRepeat
