/-
  SelectiveRepeat.System.Corrupted

  What the parties make of a datagram in which the link has inverted a byte.  An
  inverted byte behind the first leaves a CRC wrong.  Inverting the first one makes
  an ACK of a DATA packet, DATA with TR set of an ACK, and a type that does not exist
  of a NACK; each party ignores what it then gets.
-/
import SelectiveRepeat.Link.LinkSim
import SelectiveRepeat.Receiver.Reject
import SelectiveRepeat.Segment.Corrupt
import SelectiveRepeat.Sender.Window

namespace SelectiveRepeat

/-! ## The bytes -/

@[simp] theorem corruptPkt_length (d : Bytes) (idx : Nat) : (corruptPkt d idx).length = d.length :=
  List.length_modify _ _ _

/-- Inverting changes a byte. -/
theorem not_ne_self (b : UInt8) : b ≠ ~~~b := by
  intro h
  have hbits : ∀ x : BitVec 8, x ≠ ~~~x := by decide
  exact hbits b.toBitVec (congrArg UInt8.toBitVec h)

theorem blit_corruptPkt_apart (m : Mem) {d : Bytes} {idx : Nat} (hidx : idx < d.length) :
    (m.blit 0 d).ApartAt (m.blit 0 (corruptPkt d idx)) d.length idx ∧
      m.blit 0 (corruptPkt d idx) idx = ~~~m.blit 0 d idx := by
  have hget (j : Nat) (hj : j < d.length) : m.blit 0 d j = d[j] := by
    have h := @Mem.blit_at m 0 j d hj
    rwa [Nat.zero_add] at h
  have hget' (j : Nat) (hj : j < d.length) :
      m.blit 0 (corruptPkt d idx) j = if idx = j then ~~~d[j] else d[j] := by
    have hj' : j < (corruptPkt d idx).length := by rwa [corruptPkt_length]
    have h := @Mem.blit_at m 0 j _ hj'
    rw [Nat.zero_add] at h
    rw [h]
    exact List.getElem_modify _ _ _ _ _
  have hnot : m.blit 0 (corruptPkt d idx) idx = ~~~m.blit 0 d idx := by
    rw [hget' idx hidx, if_pos rfl, hget idx hidx]
  refine ⟨⟨hidx, ?_, fun j hj hne => ?_⟩, hnot⟩
  · rw [hnot]
    exact not_ne_self _
  · rw [hget j hj, hget' j hj, if_neg (Ne.symm hne)]

/-- The type with both bits inverted. -/
theorem typeField_not {m m' : Mem} (h : m' 0 = ~~~m 0) : m'.typeField = ~~~m.typeField := by
  rw [Mem.typeField, Mem.typeField, h, UInt8.toBitVec_not]
  generalize (m 0).toBitVec = b
  revert b
  decide

theorem trField_not {m m' : Mem} (h : m' 0 = ~~~m 0) : m'.trField = ~~~m.trField := by
  rw [Mem.trField, Mem.trField, h, UInt8.toBitVec_not]
  generalize (m 0).toBitVec = b
  revert b
  decide

/-- The decoder takes the type and TR from the first byte. -/
theorem pktDecode_header [Zlib] {m : Mem} {len : Nat} {prior q : Pkt} (hlen : len < 2 ^ 31)
    (h : pktDecode m len prior = .ok (.pktOk, q)) :
    q.type = m.typeField ∧ (m.typeField = ptypeData → q.tr = m.trField) := by
  obtain ⟨-, -, hdec⟩ := pktDecode_ok hlen h
  obtain ⟨payload, crc2, rfl⟩ := decodePayload_keeps hdec
  exact ⟨rfl, fun hd => if_pos hd⟩

section
variable [Zlib]

theorem wire_fields {pkt : Pkt} {m : Mem} (hm : m.slice 0 pkt.wire.length = pkt.wire) :
    m.typeField = pkt.type ∧ m.trField = pkt.tr := by
  obtain ⟨htype, -, htr, -, -⟩ := headerByte_fields (wireReads_of_slice hm).first
  rw [wireType_field] at htype
  rw [wireTr_field] at htr
  exact ⟨htype, htr⟩

/-! ## The receiver -/

/-- The receiver ignores a DATA packet with an inverted byte. -/
theorem incoming_corrupted (hd : DetectsOneByte) {pkt : Pkt} (hv : pkt.Valid)
    (htype : pkt.type = ptypeData) {idx : Nat} (hidx : idx < pkt.wire.length) {env : ReceiverEnv}
    (hpoll : env.poll = .ready (.bytes (corruptPkt pkt.wire idx))) (st : ReceiverState) :
    env.incoming st = none := by
  have hlen : (corruptPkt pkt.wire idx).length ≤ dataBufferSize := by
    have hle := hv.length_le
    have hbound : dataBufferSize = 528 := rfl
    rw [corruptPkt_length, pkt.wire_length_eq_size, Pkt.size, if_pos htype]
    split <;> omega
  have hbound : dataBufferSize < 2 ^ 31 := by decide
  suffices hrejects : st.Rejects (corruptPkt pkt.wire idx) from hrejects.incoming hpoll hlen
  intro q hdec
  obtain ⟨hapart, hnot⟩ := blit_corruptPkt_apart st.dataBuffer hidx
  have hwire := st.dataBuffer.slice_blit 0 pkt.wire
  obtain ⟨hvalid, hsize⟩ := validDatagram_wire hv hwire
  rcases Nat.eq_zero_or_pos idx with rfl | hpos
  · -- the type is now that of an ACK
    rw [(pktDecode_header (Nat.lt_of_le_of_lt hlen hbound) hdec).1, typeField_not hnot,
      (wire_fields hwire).1, htype]
    decide
  · obtain ⟨status, q', hdec', hne⟩ := hvalid.corrupted hd hsize (.byte idx hpos hapart)
      (corruptPkt pkt.wire idx).length st.pkt
    rw [hdec'] at hdec
    cases hdec
    exact absurd rfl hne

/-! ## The sender -/

/-- CRC1 does not fit a NACK with the first byte inverted. -/
theorem crc1_wrong_of_not (hd : DetectsOneByte) {m m' : Mem} {n : Nat} (h : m.ApartAt m' n 0)
    (hnot : m' 0 = ~~~m 0) (htype : m.typeField ≠ ptypeData) (htype' : m'.typeField ≠ ptypeData)
    (hn : 10 ≤ n) (hright : m.Crc1Right) : ¬ m'.Crc1Right := by
  have hsize : m.headerSize = 6 := by rw [Mem.headerSize, lengthInc, if_neg htype]
  have hsize' : m'.headerSize = 6 := by rw [Mem.headerSize, lengthInc, if_neg htype']
  have hmask : ∀ b : BitVec 8, b &&& 0xDF ≠ ~~~b &&& 0xDF := by decide
  rw [Mem.Crc1Right, hsize] at hright
  rw [Mem.Crc1Right, hsize']
  refine h.stored_ne hd (by omega) (by omega) hright (fun _ => ?_) fun hge => by omega
  have hrest : m.slice 1 5 = m'.slice 1 5 := h.slice_eq (.inl Nat.one_pos) (by omega)
  rw [Mem.clearedHeader, Mem.clearedHeader, hsize, hsize', hrest, hnot]
  exact ⟨[], _, _, _, fun heq => hmask (m 0).toBitVec (congrArg UInt8.toBitVec heq), rfl, rfl⟩

/-- The sender ignores an ACK or a NACK with an inverted byte. -/
theorem reply_corrupted (hd : DetectsOneByte) {pkt : Pkt} (hv : pkt.Valid)
    (htype : pkt.type = ptypeAck ∨ pkt.type = ptypeNack) (htr : pkt.tr = 0) {idx : Nat}
    (hidx : idx < pkt.wire.length) {env : SenderEnv}
    (hsocket : env.socket = some (.bytes (corruptPkt pkt.wire idx))) (buf : Mem) :
    env.reply buf = none := by
  have hne : pkt.type ≠ ptypeData := by
    rcases htype with htype | htype <;> rw [htype] <;> decide
  have hlen : pkt.wire.length = 10 := by
    rw [pkt.wire_length_eq_size, Pkt.size, if_neg hne, hv.length_zero hne]
    simp
  have hfill : (ReadResult.bytes (corruptPkt pkt.wire idx)).fill 12 buf =
      buf.blit 0 (corruptPkt pkt.wire idx) := by
    rw [ReadResult.fill, List.take_of_length_le (by rw [corruptPkt_length]; omega)]
  obtain ⟨hapart, hnot⟩ := blit_corruptPkt_apart buf hidx
  have hwire := buf.slice_blit 0 pkt.wire
  obtain ⟨hvalid, hsize⟩ := validDatagram_wire hv hwire
  obtain ⟨hfield, hfieldtr⟩ := wire_fields hwire
  simp only [SenderEnv.reply, hsocket, hfill]
  split
  · rename_i status q hdec
    rw [if_neg]
    rintro ⟨rfl, hq⟩
    rcases Nat.eq_zero_or_pos idx with rfl | hpos
    · have hfield' := typeField_not hnot
      rw [hfield] at hfield'
      rcases htype with htype | htype
      · -- a DATA packet with TR
        rw [htype] at hfield'
        apply hq
        rw [(pktDecode_header (by decide) hdec).2 (hfield'.trans (by decide)), trField_not hnot,
          hfieldtr, htr]
        decide
      · rw [htype] at hfield'
        have hwrong := crc1_wrong_of_not hd hapart hnot (by rw [hfield]; exact hne)
          (by rw [hfield']; decide) (by omega) hvalid.crc1
        exact hwrong (pktDecode_ok (by decide) hdec).2.1
    · obtain ⟨status, q', hdec', hbad⟩ := hvalid.corrupted hd hsize (.byte idx hpos hapart) 12
        (env.fresh .socket)
      rw [hdec'] at hdec
      cases hdec
      exact hbad rfl
  · rfl

end

end SelectiveRepeat
