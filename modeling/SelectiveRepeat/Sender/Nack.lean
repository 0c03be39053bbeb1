/-
  SelectiveRepeat.Sender.Nack

  The NACK case of the sender: the number before the one received is looked up in
  the window and the packet found, if any, is sent again.
-/
import SelectiveRepeat.Sender.Ack
import SelectiveRepeat.Sender.Queued

namespace SelectiveRepeat

section
variable [Zlib] (env : SenderEnv) {st : SenderState} {h s : UInt8} {l : List Pkt}

theorem socketCase_of_nack (st : SenderState) {socketPkt : Pkt}
    (htype : socketPkt.type = ptypeNack) (htr : socketPkt.tr ≠ 1) :
    socketCase env st socketPkt = nackCase env st (socketPkt.seqnum - 1) := by
  have hdata : ptypeNack ≠ ptypeData := by decide
  have hack : ptypeNack ≠ ptypeAck := by decide
  simp only [socketCase, if_pos htr, htype, if_neg hdata, if_neg hack, if_pos, previousSeqnum_eq]

/-- A number that is in the window: its packet is sent, with a new timestamp, and
    the window shrinks. -/
theorem nackCase_held (hl : st.window.Holds l) (hc : Consecutive h l)
    (hq : ∀ pkt ∈ l, pkt.Queued) (hlt : distance h s < l.length) :
    ∃ buf window' senderLogger',
      window'.Holds (l.set (distance h s) (l[distance h s].restamp (env.now .nack st))) ∧
      nackCase env st s =
        .ok { state := { st with
                pktBuffer := buf
                window := window'
                senderLogger := senderLogger'
                sendingWindowSize :=
                  if st.sendingWindowSize = 1 then 1 else st.sendingWindowSize / 2 },
              sent := [(l[distance h s].restamp (env.now .nack st)).wire] } := by
  -- `get` starts at the head and stops at the place of `s`
  have hget : st.window.get s none =
      .ok (some { tmpPtk := Ring.slot st.window.ptrPop (distance h s),
                  supportIt := Ring.slot st.window.ptrPop (distance h s + 1) }) := by
    rw [Queue.get_head]
    exact hl.get_found hc (Nat.zero_le _) hlt
  have hcell := hl.cell hlt
  have hset : (pktSetTimestamp l[distance h s] (env.now .nack st)).2 =
      l[distance h s].restamp (env.now .nack st) := rfl
  -- the restamped packet is encoded into the buffer without an error
  have hqueued := (hq _ (List.getElem_mem hlt)).restamp (env.now .nack st)
  obtain ⟨buf, henc, hbuf⟩ := hqueued.encode st.pktBuffer
  have hholds := hl.store hlt (l[distance h s].restamp (env.now .nack st))
  simp only [nackCase, hget, hcell, hset, henc, ok_bind]
  refine ⟨buf, _, st.senderLogger.addNackReceived.addPacketRetransmitted, hholds, ?_⟩
  rw [hbuf]
  rfl

/-- Any other number is ignored. -/
theorem nackCase_ignored (hl : st.window.Holds l) (hc : Consecutive h l)
    (hge : l.length ≤ distance h s) :
    nackCase env st s =
      .ok { state := { st with
        senderLogger := st.senderLogger.addNackReceived.addPacketIgnored } } := by
  simp only [nackCase, hl.get_none hc hge none, ok_bind]
  rfl

end

end SelectiveRepeat
