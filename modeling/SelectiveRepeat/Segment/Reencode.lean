/-
  SelectiveRepeat.Segment.Reencode

  The other direction of the round trip: an accepted datagram with a header the
  setters take is the encoding of the packet it decodes to.
-/
import SelectiveRepeat.Segment.Accept
import SelectiveRepeat.Segment.Encode

namespace SelectiveRepeat

/-- The header of the decoded packet is laid out as the bytes it was read from. -/
theorem headerBytes_decodedHeader {m : Mem} (prior : Pkt)
    (hle : m.typeField = ptypeData → m.lengthField ≤ 512) :
    (m.decodedHeader prior).headerBytes m.trField = m.slice 0 m.headerSize := by
  have hts := bytes32_load32 m (2 + lengthInc m.typeField)
  have hfirst : m.slice 0 m.headerSize = m 0 :: m.slice 1 (lengthInc m.typeField + 5) := by
    rw [Mem.headerSize, show 6 + lengthInc m.typeField = (lengthInc m.typeField + 5) + 1 by omega]
    exact m.slice_succ 0 _
  have hrest : m.slice 1 (lengthInc m.typeField + 5) = m.slice 1 (lengthInc m.typeField) ++
      m (1 + lengthInc m.typeField) :: m.slice (2 + lengthInc m.typeField) 4 := by
    rw [Mem.slice_add, Mem.slice_succ,
      show 1 + lengthInc m.typeField + 1 = 2 + lengthInc m.typeField by omega]
  have hlength : (if m.typeField = ptypeData then bytes16 (htons (m.decodedLength prior)) else []) =
      m.slice 1 (lengthInc m.typeField) := by
    by_cases hd : m.typeField = ptypeData
    · have hload : m.decodedLength prior = ntohs (m.load16 1) := by
        apply UInt16.toNat_inj.mp
        rw [decodedLength_of_le hd (hle hd), ntohs_load16, Mem.lengthField]
      rw [if_pos hd, hload, show lengthInc m.typeField = 2 from if_pos hd, ← bytes16_load16,
        ← ntohs_htons (m.load16 1)]
      simp
    · rw [if_neg hd, show lengthInc m.typeField = 0 from if_neg hd, Mem.slice_zero]
  rw [hfirst, hrest, ← hlength, ← hts, ← headerByte_ofFields m]
  rfl

/-- The decoded packet is encoded with the CRC1 it was accepted for. -/
theorem wire_decodedHeader [Zlib] {m : Mem} (prior : Pkt) (hcrc : m.Crc1Right)
    (hle : m.typeField = ptypeData → m.lengthField ≤ 512) :
    (m.decodedHeader prior).headerBytes m.trField ++
        bytes32 (htonl (blockCrc ((m.decodedHeader prior).headerBytes 0))) =
      m.slice 0 (m.headerSize + 4) := by
  have hheader := headerBytes_decodedHeader prior hle
  have hcleared : (m.decodedHeader prior).headerBytes 0 = m.clearedHeader := by
    rw [← Pkt.clearTr_headerBytes _ m.trField, hheader, clearTr_slice]
  rw [hcleared, bytes32_of_net32 hcrc, hheader, Mem.slice_add, Nat.zero_add]

theorem datagramSize_of_payload {m : Mem} (h : m.HasPayload) :
    m.datagramSize = m.headerSize + 4 + (m.lengthField + 4) := by
  obtain ⟨hd, htr, hne⟩ := h
  have h1 : ¬ (m.trField = 1 ∨ m.lengthField = 0) := by
    rintro (h1 | h0)
    · exact trField_ne_one.mpr htr h1
    · exact hne h0
  rw [Mem.datagramSize, if_neg (not_not.mpr hd), if_neg h1, Mem.headerSize, lengthInc, if_pos hd]
  omega

theorem datagramSize_of_none {m : Mem} (h : ¬ m.HasPayload) :
    m.datagramSize = m.headerSize + 4 := by
  by_cases hd : m.typeField = ptypeData
  · have hempty : m.trField = 1 ∨ m.lengthField = 0 := by
      by_contra hne
      rw [not_or] at hne
      exact h ⟨hd, trField_ne_one.mp hne.1, hne.2⟩
    rw [Mem.datagramSize, if_neg (not_not.mpr hd), if_pos hempty, Mem.headerSize, lengthInc,
      if_pos hd]
  · rw [Mem.datagramSize, if_pos hd, Mem.headerSize, lengthInc, if_neg hd]

section Coherent

variable {m : Mem} (prior : Pkt)

/-- `pkt_set_tr` keeps a TR that is clear, and any TR of a DATA packet. -/
theorem decodedHeader_tr (htr : m.trField = 0 ∨ m.typeField = ptypeData) :
    (m.decodedHeader prior).tr = m.trField := by
  show (if m.typeField = ptypeData then m.trField else 0) = m.trField
  rcases htr with h0 | hd
  · rw [h0, ite_self]
  · rw [if_pos hd]

theorem decodedHeader_sized (hle : m.typeField = ptypeData → m.lengthField ≤ 512) :
    (m.decodedHeader prior).Sized := by
  refine ⟨?_, ?_⟩
  · show (m.decodedLength prior).toNat ≤ 512
    by_cases hd : m.typeField = ptypeData
    · rw [decodedLength_of_le hd (hle hd)]
      exact hle hd
    · rw [decodedLength_of_ne hd]
      decide
  · intro hd
    exact decodedLength_of_ne hd prior

/-- The payload block runs on what the wire says. -/
theorem decodedHeader_payload (htr : m.trField = 0 ∨ m.typeField = ptypeData)
    (hle : m.typeField = ptypeData → m.lengthField ≤ 512) :
    (m.decodedHeader prior).tr = 0 ∧ 0 < (m.decodedHeader prior).length ↔ m.HasPayload := by
  rw [decodedHeader_tr prior htr, uint16_pos]
  show m.trField = 0 ∧ 0 < (m.decodedLength prior).toNat ↔ m.HasPayload
  by_cases hd : m.typeField = ptypeData
  · rw [decodedLength_of_le hd (hle hd), Mem.HasPayload, Nat.pos_iff_ne_zero]
    simp [hd]
  · simp [decodedLength_of_ne hd, Mem.HasPayload, hd]

end Coherent

/-- An accepted packet is one `pkt_encode` sends, and it sends the accepted bytes. -/
theorem wire_of_pktDecode [Zlib] {m : Mem} {len : Nat} {prior q : Pkt} (hlen : len < 2 ^ 31)
    (h : pktDecode m len prior = .ok (.pktOk, q))
    (htr : m.trField = 0 ∨ m.typeField = ptypeData)
    (hle : m.typeField = ptypeData → m.lengthField ≤ 512) :
    q.Sized ∧ q.wire = m.slice 0 m.datagramSize := by
  obtain ⟨-, hcrc, hdec⟩ := pktDecode_ok hlen h
  have hhead := wire_decodedHeader prior hcrc hle
  have hsized := decodedHeader_sized prior hle
  rw [← decodedHeader_tr prior htr] at hhead
  by_cases hpay : m.HasPayload
  · -- the payload and its CRC2 follow CRC1
    have hblock := (decodedHeader_payload prior htr hle).mpr hpay
    have hlength : (m.decodedHeader prior).length.toNat = m.lengthField :=
      decodedLength_of_le hpay.1 (hle hpay.1) prior
    have hinc : lengthInc m.typeField = 2 := if_pos hpay.1
    have hdata : ((m.decodedHeader prior).payload.blit 0 (m.slice 12 m.lengthField)).slice 0
        (m.decodedHeader prior).length.toNat = m.slice 12 m.lengthField := by
      rw [hlength, Mem.slice_blit_slice]
    have hbase : 0 + (m.headerSize + 4) = 12 := by rw [Mem.headerSize, hinc]
    rw [decodePayload_eq m _ hblock hsized.length_le, hlength, hinc] at hdec
    by_cases hcrc2 : m.Crc2Right (10 + 2) m.lengthField
    · rw [if_pos hcrc2] at hdec
      cases hdec
      refine ⟨⟨hsized.length_le, hsized.length_zero⟩, ?_⟩
      rw [Pkt.wire, if_pos hblock]
      simp only [Pkt.data, hdata]
      rw [datagramSize_of_payload hpay, Mem.slice_add, ← hhead, hbase, Mem.slice_add,
        ← bytes32_of_net32 hcrc2]
      rfl
    · rw [if_neg hcrc2] at hdec
      cases hdec
  · -- nothing follows CRC1
    have hblock := (decodedHeader_payload prior htr hle).not.mpr hpay
    rw [decodePayload_none m _ hblock] at hdec
    cases hdec
    refine ⟨hsized, ?_⟩
    rw [Pkt.wire, if_neg hblock, List.append_nil, datagramSize_of_none hpay, ← hhead]

/-- Decode then encode is the identity on accepted bytes: into any buffer with room for it, the
    encoding puts back the part of the input that the header announces, and nothing else. -/
theorem pktEncode_pktDecode [Zlib] (m : Mem) (len : Nat) (hlen : len < 2 ^ 31) (prior q : Pkt)
    (h : pktDecode m len prior = .ok (.pktOk, q))
    (htr : m.trField = 0 ∨ m.typeField = ptypeData)
    (hle : m.typeField = ptypeData → m.lengthField ≤ 512) (buf : Mem) (cap : Nat)
    (hfit : m.datagramSize ≤ cap) (hcap : cap < 2 ^ 31) :
    pktEncode q buf cap =
      .ok (.pktOk, buf.blit 0 (m.slice 0 m.datagramSize), m.datagramSize) := by
  obtain ⟨hsized, hwire⟩ := wire_of_pktDecode hlen h htr hle
  have hsize : q.wire.length = m.datagramSize := by rw [hwire, Mem.slice_length]
  have henc := pktEncode_blit hsized buf hcap (by rwa [hsize])
  rw [henc, hsize, hwire]

theorem pktEncode_pktDecode_hello : letI := zlib
    ∃ q, pktDecode helloDatagram 27 (replyPkt ptypeAck 0 0) = .ok (.pktOk, q) ∧
      pktEncode q (fun _ => 0) 57 =
        .ok (.pktOk, Mem.blit (fun _ => 0) 0 (helloDatagram.slice 0 27), 27) := by
  have hok : letI := zlib
      (pktDecode helloDatagram 27 (replyPkt ptypeAck 0 0)).map Prod.fst = .ok .pktOk := by
    decide +kernel
  obtain ⟨⟨status, q⟩, hdec, hstatus⟩ := exists_ok_of_map hok
  simp only at hstatus
  subst hstatus
  exact ⟨q, hdec, @pktEncode_pktDecode zlib helloDatagram 27 (by decide) _ q hdec (by decide)
    (by decide) (fun _ => 0) 57 (by decide) (by decide)⟩

end SelectiveRepeat
