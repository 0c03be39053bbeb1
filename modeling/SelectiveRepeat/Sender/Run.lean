/-
  SelectiveRepeat.Sender.Run

  Whole runs of the sender, from its first turn to the one in which it returns,
  against the log: in every run, whatever the input, the clock and the socket
  bring, the state at each loop boundary refines a log whose packets carry the
  chunks read, in order, and everything that was sent is a copy of one of them or
  the empty packet of the end.
-/
import SelectiveRepeat.Sender.Window

namespace SelectiveRepeat

/-- `SenderRun st stop chunks sent`: some run of `read_write_loop_sender` comes to
    the state `st`, having read `chunks` and sent `sent`; `stop` is the `return` it
    took, if any. -/
inductive SenderRun [Zlib] : SenderState → Option SenderStop → List Bytes → List Bytes → Prop where
  | init (buf : Mem) (mem : Logger) (statsFile : Bool) (start : Int) :
      SenderRun (senderInit buf mem statsFile start) none [] []
  | turn {st : SenderState} {chunks sent : List Bytes} {env : SenderEnv} {t : SenderTurn} :
      SenderRun st none chunks sent → env.InputReads → readWriteLoopSender env st = .ok t →
      SenderRun t.state t.stop (chunks ++ env.chunkRead st) (sent ++ t.sent)

/-- A DATA packet without a payload. -/
def Closing [Zlib] (d : Bytes) : Prop :=
  ∃ pkt window seqnum ts, Pkt.Built pkt window seqnum [] ts ∧ d = pkt.wire

theorem SendLog.Closes.closing [Zlib] {w : SendLog} {d : Bytes} (h : w.Closes d) : Closing d := by
  obtain ⟨-, pkt, window, ts, hbuilt, hd⟩ := h
  exact ⟨pkt, window, _, ts, hbuilt, hd⟩

/-- A copy stays a copy when the log grows. -/
theorem SendLog.Copy.mono [Zlib] {w w' : SendLog} {k : Nat} {d : Bytes} (h : w.Copy k d)
    {built : List Pkt} (hlog : w'.log = w.log ++ built) : w'.Copy k d := by
  obtain ⟨pkt, ts, hpkt, hd⟩ := h
  obtain ⟨hk, -⟩ := List.getElem?_eq_some_iff.mp hpkt
  exact ⟨pkt, ts, by rw [hlog, List.getElem?_append_left hk, hpkt], hd⟩

/-- Two copies of one packet differ in the timestamp and in CRC1 only, which are the
    bytes 4 to 11. -/
theorem SendLog.Copy.differ [Zlib] {w : SendLog} {k : Nat} {d d' : Bytes} (h : w.Copy k d)
    (h' : w.Copy k d') : d.take 4 = d'.take 4 ∧ d.drop 12 = d'.drop 12 := by
  obtain ⟨pkt, ts, hpkt, rfl⟩ := h
  obtain ⟨pkt', ts', hpkt', rfl⟩ := h'
  rw [hpkt, Option.some.injEq] at hpkt'
  subst hpkt'
  have hdata := (w.queued pkt (List.mem_of_getElem? hpkt)).type
  -- four bytes, then timestamp and CRC1, then payload and CRC2
  have hwire (ts : UInt32) : ∃ mid : Bytes, mid.length = 8 ∧ (pkt.restamp ts).wire =
      (headerByte pkt.type pkt.tr pkt.window :: (bytes16 (htons pkt.length) ++ [pkt.seqnum])) ++
        (mid ++ if pkt.tr = 0 ∧ 0 < pkt.length then
          pkt.data ++ bytes32 (htonl (blockCrc pkt.data)) else []) := by
    refine ⟨bytes32 ts ++ bytes32 (htonl (blockCrc ((pkt.restamp ts).headerBytes 0))), rfl, ?_⟩
    have hdata' : (pkt.restamp ts).type = ptypeData := hdata
    simp only [Pkt.wire, Pkt.headerBytes, if_pos hdata', List.cons_append, List.append_assoc,
      List.nil_append]
    rfl
  obtain ⟨mid, hmid, heq⟩ := hwire ts
  obtain ⟨mid', hmid', heq'⟩ := hwire ts'
  have hhead : (headerByte pkt.type pkt.tr pkt.window ::
      (bytes16 (htons pkt.length) ++ [pkt.seqnum])).length = 4 := rfl
  rw [heq, heq']
  refine ⟨?_, ?_⟩
  · rw [List.take_left' hhead, List.take_left' hhead]
  · rw [show 12 = 4 + 8 from rfl, ← List.drop_drop, ← List.drop_drop, List.drop_left' hhead,
      List.drop_left' hhead, List.drop_left' hmid, List.drop_left' hmid']

/-- What a turn sends is a copy of a packet of the log, or the empty packet. -/
theorem SendLog.Turn.sent_copy [Zlib] {w w' : SendLog} {env : SenderEnv} {st : SenderState}
    {t : SenderTurn} {built : List Pkt} {reply : Option Pkt}
    (h : w.Turn env st t w' built reply) {d : Bytes} (hd : d ∈ t.sent) :
    (∃ k, (w'.receive reply).Copy k d) ∨ Closing d := by
  obtain ⟨copies, closing, heq, hcopies, hclosing⟩ := h.sent
  rw [heq] at hd
  rcases List.mem_append.mp hd with hd | hd
  · obtain ⟨k, -, hk⟩ := (hcopies d hd).copy
    have hsame : (w'.receive reply).log = w'.log ++ [] := by
      rw [SendLog.receive_log, List.append_nil]
    exact Or.inl ⟨k, hk.mono hsame⟩
  · exact Or.inr (hclosing d hd).1.closing

/-- The run lemma: the log grows with the chunks read and explains all that is sent. -/
theorem SenderRun.log [Zlib] {st : SenderState} {stop : Option SenderStop}
    {chunks sent : List Bytes} (hrun : SenderRun st stop chunks sent) :
    ∃ w : SendLog, chunks = w.log.map Pkt.data ∧ (stop = none → Refines st w) ∧
      ∀ d ∈ sent, (∃ k, w.Copy k d) ∨ Closing d := by
  induction hrun with
  | init buf mem statsFile start =>
      exact ⟨SendLog.empty, rfl, fun _ => senderInit_refines buf mem statsFile start,
        fun d hd => absurd hd List.not_mem_nil⟩
  | @turn st chunks sent env t _ hin hturn ih =>
      obtain ⟨w, hchunks, href, hsent⟩ := ih
      obtain ⟨t', w', built, reply, hturn', hstep, -⟩ :=
        readWriteLoopSender_spec (href rfl) (hin.inputRead_ne st)
      rw [hturn, Except.ok.injEq] at hturn'
      subst hturn'
      have hlog : (w'.receive reply).log = w.log ++ built := by
        rw [SendLog.receive_log, hstep.log]
      -- the log after the turn explains what was sent before and what the turn sends
      refine ⟨w'.receive reply, ?_, hstep.refines, fun d hd => ?_⟩
      · rw [hlog, List.map_append, hchunks, hstep.read]
      · rcases List.mem_append.mp hd with hd | hd
        · rcases hsent d hd with ⟨k, hk⟩ | hclose
          · exact Or.inl ⟨k, hk.mono hlog⟩
          · exact Or.inr hclose
        · exact hstep.sent_copy hd

/-- The refinement of the sender's window, in every run: the chunks read are the
    payloads of the log; everything sent is a copy of a packet of the log or empty;
    copies of one packet differ in timestamp and CRC1 only; and at each loop boundary
    the two counts agree and are at most 31, the ring holds exactly the packets from
    `w.acked` on, the next number is the length of the log modulo 256, the next turn
    is defined, and a slot it adds a packet to is free. -/
theorem senderRun_refines [Zlib] {st : SenderState} {stop : Option SenderStop}
    {chunks sent : List Bytes} (hrun : SenderRun st stop chunks sent) :
    ∃ w : SendLog, chunks = w.log.map Pkt.data ∧
      (∀ k pkt, w.log[k]? = some pkt → pkt.seqnum = UInt8.ofNat k) ∧
      (∀ d ∈ sent, (∃ k, w.Copy k d) ∨ Closing d) ∧
      (∀ k d d', w.Copy k d → w.Copy k d' → d.take 4 = d'.take 4 ∧ d.drop 12 = d'.drop 12) ∧
      (stop = none →
        st.window.size = st.pktInWindow.toNat ∧ st.pktInWindow.toNat = w.log.length - w.acked ∧
        st.pktInWindow.toNat ≤ 31 ∧ st.sendingWindowSize.toNat ≤ 31 ∧
        (∃ l, st.window.Holds l ∧ SameButTimestamp (w.log.drop w.acked) l) ∧
        st.seqnum = UInt8.ofNat w.log.length ∧
        ∀ env : SenderEnv, env.InputReads →
          (∃ t, readWriteLoopSender env st = .ok t) ∧
          (env.chunkRead st ≠ [] → st.window.window st.window.ptrAdd = none)) := by
  obtain ⟨w, hchunks, href, hsent⟩ := hrun.log
  refine ⟨w, hchunks, fun k pkt hpkt => ?_, hsent, fun k d d' h h' => h.differ h', fun hgo => ?_⟩
  · obtain ⟨hk, rfl⟩ := List.getElem?_eq_some_iff.mp hpkt
    exact w.numbered k hk
  · have hr := href hgo
    refine ⟨hr.size, by rw [hr.count, w.outstanding_length], ?_, hr.windowSize, hr.holds,
      hr.seqnum, fun env hin => ⟨?_, fun hread => ?_⟩⟩
    · rw [hr.count]
      exact w.outstanding_length_le
    · obtain ⟨t, -, -, -, hturn, -⟩ := readWriteLoopSender_spec hr (hin.inputRead_ne st)
      exact ⟨t, hturn⟩
    · -- a chunk is read only while the window has room
      apply hr.free
      by_contra hfull
      apply hread
      simp only [SenderEnv.chunkRead, hfull, false_and, if_false]
      split
      · rfl
      · split <;> rfl

/-- A turn in which the input brings `chunk`. -/
def inputEnv (chunk : Bytes) : SenderEnv := { quietEnv 0 with input := some (.bytes chunk) }

/-- The run that reads one chunk: afterwards the ring holds its packet. -/
theorem senderRun_refines_chunk : letI := zlib
    ∃ t, readWriteLoopSender (inputEnv [1, 2, 3]) (senderInit (fun _ => 0) default false 0) = .ok t ∧
      (∃ w : SendLog, [[1, 2, 3]] = w.log.map Pkt.data ∧
        ∀ d ∈ t.sent, (∃ k, w.Copy k d) ∨ Closing d) ∧
      ∃ l, t.state.window.Holds l ∧ l.map Pkt.data = [[1, 2, 3]] := by
  let _ := zlib
  have hin : (inputEnv [1, 2, 3]).InputReads := by
    rintro r hr rfl
    exact absurd hr (by simp [inputEnv])
  have hrun : (readWriteLoopSender (inputEnv [1, 2, 3])
      (senderInit (fun _ => 0) default false 0)).map
        (fun t => (t.stop, t.state.pktInWindow.toNat)) = .ok (none, 1) := by
    decide +kernel
  obtain ⟨t, hturn, ht⟩ := exists_ok_of_map hrun
  rw [Prod.mk.injEq] at ht
  obtain ⟨w, hchunks, -, hsent, -, hstate⟩ :=
    senderRun_refines (.turn (.init (fun _ => 0) default false 0) hin hturn)
  have hlog : [[1, 2, 3]] = w.log.map Pkt.data := hchunks
  obtain ⟨-, hcount, -, -, ⟨l, hl, hsame⟩, -⟩ := hstate ht.1
  -- one packet was built, and it is not acknowledged
  have hbuilt : w.log.length = 1 := by
    rw [← List.length_map Pkt.data, ← hlog]
    rfl
  have hacked : w.acked = 0 := by
    have hle := w.acked_le
    omega
  refine ⟨t, hturn, ⟨w, hlog, hsent⟩, l, hl, ?_⟩
  rw [hacked, List.drop_zero] at hsame
  rw [hlog, hsame.datas]

end SelectiveRepeat
