/-
  SelectiveRepeat.Receiver.Reject

  Datagrams that `pkt_decode` turns down, or that are no DATA.  The receiver
  counts them and goes on, with one exception: `recv` returns 0 for an empty
  datagram, which the loop takes for the end of the connection.
-/
import SelectiveRepeat.Receiver.Run
import SelectiveRepeat.Segment.Format

namespace SelectiveRepeat

/-- The run goes on, and nothing but counters and buffers has changed. -/
structure ReceiverRun.Unchanged (run run' : ReceiverRun) : Prop where
  stop : run'.stop = none
  waitedSeqnum : run'.state.waitedSeqnum = run.state.waitedSeqnum
  receivePkt : run'.state.receivePkt = run.state.receivePkt
  window : run'.state.window = run.state.window
  written : run'.written = run.written
  sent : run'.sent = run.sent

/-- `pkt_decode` on the datagram in `data_buffer` returns no DATA packet. -/
def ReceiverState.Rejects [Zlib] (st : ReceiverState) (datagram : Bytes) : Prop :=
  ∀ q, pktDecode (st.dataBuffer.blit 0 datagram) datagram.length st.pkt = .ok (.pktOk, q) →
    q.type ≠ ptypeData

theorem nb_of_le {datagram : Bytes} (hlen : datagram.length ≤ dataBufferSize) :
    (ReadResult.bytes datagram).nb dataBufferSize = (datagram.length : Nat) := by
  rw [ReadResult.nb, List.take_of_length_le hlen]

theorem fill_of_le {datagram : Bytes} (hlen : datagram.length ≤ dataBufferSize) (buf : Mem) :
    (ReadResult.bytes datagram).fill dataBufferSize buf = buf.blit 0 datagram := by
  rw [ReadResult.fill, List.take_of_length_le hlen]

theorem ReceiverState.Rejects.incoming [Zlib] {env : ReceiverEnv} {st : ReceiverState}
    {datagram : Bytes} (h : st.Rejects datagram) (hpoll : env.poll = .ready (.bytes datagram))
    (hlen : datagram.length ≤ dataBufferSize) : env.incoming st = none := by
  have hbound : dataBufferSize = 528 := rfl
  have hsize : sizeOfInt (datagram.length : Nat) = datagram.length := sizeOfInt_natCast (by omega)
  simp only [ReceiverEnv.incoming, hpoll, nb_of_le hlen, fill_of_le hlen, hsize]
  split
  · rfl
  · split
    · rename_i resp pkt hdec
      by_cases hok : resp = .pktOk
      · rw [hok] at hdec
        rw [if_neg fun hc => h pkt hdec hc.2]
      · rw [if_neg fun hc => hok hc.1]
    · rfl

theorem rejects_of_short [Zlib] (st : ReceiverState) {datagram : Bytes}
    (hlen : datagram.length < 10) : st.Rejects datagram := by
  intro q hdec
  rw [pktDecode_short _ hlen] at hdec
  cases hdec

/-- At any moment of any run, a datagram that is rejected leaves everything as it was exactly
    when it is not empty. -/
theorem receiverRun_reject_iff [Zlib] {mem : ReceiverMemory} {statFile : Bool}
    {envs : List ReceiverEnv} {run : ReceiverRun}
    (hrun : receiverRun mem statFile envs = .ok run) (hgo : run.stop = none)
    (env : ReceiverEnv) (datagram : Bytes) (hpoll : env.poll = .ready (.bytes datagram))
    (hlen : datagram.length ≤ dataBufferSize) (hreject : run.state.Rejects datagram) :
    (∃ run', receiverRun mem statFile (envs ++ [env]) = .ok run' ∧ run.Unchanged run') ↔
      datagram ≠ [] := by
  have hinc := hreject.incoming hpoll hlen
  obtain ⟨t, hturn, hwritten, hsent, hwindow, hwaited, hreceive, -, hstop⟩ :=
    readWriteLoopServer_of_none hinc
  rw [receiverRun_last hrun env, ReceiverRun.turn_of_ok hgo hturn]
  have hidle : env.idleStop = none ↔ datagram ≠ [] := by
    simp only [ReceiverEnv.idleStop, hpoll, nb_of_le hlen, Int.natCast_eq_zero,
      List.length_eq_zero_iff, ite_eq_right_iff, reduceCtorEq, imp_false, ne_eq]
  rw [← hidle, ← hstop]
  refine ⟨?_, ?_⟩
  · rintro ⟨run', hrun', hsame⟩
    rw [Except.ok.injEq] at hrun'
    subst hrun'
    exact hsame.stop
  · intro hnone
    refine ⟨_, rfl, hnone, hwaited, hreceive, hwindow, ?_, ?_⟩
    · simp only [hwritten, List.append_nil]
    · simp only [hsent, List.append_nil]

/-- One byte, at the start of a run. -/
theorem receiverRun_reject_iff_byte : letI := zlib
    ∃ run run', receiverRun nullMemory false [] = .ok run ∧
      receiverRun nullMemory false ([] ++ [datagramEnv [0]]) = .ok run' ∧ run.Unchanged run' := by
  let _ := zlib
  have hstart : receiverRun nullMemory false [] = .ok { state := receiverInit nullMemory false } :=
    rfl
  obtain ⟨run', hrun', hsame⟩ := (receiverRun_reject_iff hstart rfl (datagramEnv [0]) [0] rfl
    (by decide) (rejects_of_short _ (by decide))).mpr (by decide)
  exact ⟨_, run', hstart, hrun', hsame⟩

/-- An empty datagram, at the start of a run: the receiver returns. -/
theorem receiverRun_not_unchanged : ¬ ∀ [Zlib] (mem : ReceiverMemory) (statFile : Bool)
    (envs : List ReceiverEnv) (run : ReceiverRun) (env : ReceiverEnv) (datagram : Bytes),
    receiverRun mem statFile envs = .ok run → run.stop = none →
      env.poll = .ready (.bytes datagram) → datagram.length ≤ dataBufferSize →
      run.state.Rejects datagram →
      ∃ run', receiverRun mem statFile (envs ++ [env]) = .ok run' ∧ run.Unchanged run' := by
  intro hall
  let _ := zlib
  have hstart : receiverRun nullMemory false [] = .ok { state := receiverInit nullMemory false } :=
    rfl
  obtain ⟨run', hrun', hsame⟩ := hall nullMemory false [] _ (datagramEnv []) [] hstart rfl rfl
    (by decide) (rejects_of_short _ (by decide))
  have hreturned : (receiverRun nullMemory false ([] ++ [datagramEnv []])).map ReceiverRun.stop =
      .ok (some .empty) := rfl
  rw [hrun'] at hreturned
  have hstop := Except.ok.inj hreturned
  rw [hsame.stop] at hstop
  exact absurd hstop (by decide)

end SelectiveRepeat
