/-
  SelectiveRepeat.Segment.Total

  `pkt_decode` on arbitrary bytes.  The decoder is never given more than the 528
  bytes of the longest packet, and then the size it checks first keeps every
  copy inside `payload`: a longer length field is refused, and with it the
  datagram, unless TR says there is no payload to copy.
-/
import SelectiveRepeat.Segment.RoundTrip

namespace SelectiveRepeat

/-- The type read through the sign extension is DATA exactly when the field is. -/
theorem wireType_data (m : Mem) : wireType m = 1 ↔ (wireType m).setWidth 2 = ptypeData := by
  simp only [wireType, promoteChar]
  generalize (m 0).toBitVec = b
  revert b
  decide

theorem wireTr_zero (m : Mem) : wireTr m = 0 ↔ (wireTr m).setWidth 1 = 0 := by
  simp only [wireTr, promoteChar]
  generalize (m 0).toBitVec = b
  revert b
  decide

theorem decodePayload_total [Zlib] (m : Mem) (inc : Nat) {pkt : Pkt}
    (hlen : pkt.tr = 0 → pkt.length.toNat ≤ 512) :
    ∃ status q, decodePayload m inc pkt = .ok (status, q) ∧
      (q.tr = 0 → q.length.toNat ≤ 512) := by
  by_cases h : pkt.tr = 0 ∧ 0 < pkt.length
  · have hmax : ¬ MAX_PAYLOAD_SIZE < pkt.length.toNat := Nat.not_lt.mpr (hlen h.1)
    simp only [decodePayload, if_pos h, if_neg hmax]
    split
    · exact ⟨_, _, rfl, fun _ => hlen h.1⟩
    · exact ⟨_, _, rfl, fun _ => hlen h.1⟩
  · rw [decodePayload, if_neg h]
    exact ⟨_, _, rfl, hlen⟩

/-- Where TR is off, the length field is bounded by the size that was checked. -/
theorem decodeHeader_length {m : Mem} {len : Nat} (hlen : len ≤ 528)
    (hroom : ¬ intOfSize len < decodeBase m) (prior : Pkt) :
    let q := (pktSetTr (decodeHeader m prior) (UInt8.ofNat ((wireTr m).setWidth 1).toNat)).2
    q.tr = 0 → q.length.toNat ≤ 512 := by
  intro q htr
  have hq : q = (pktSetTr (decodeHeader m prior)
      (UInt8.ofNat ((wireTr m).setWidth 1).toNat)).2 := rfl
  rw [decodeHeader_eq, pktSetTr_decoded rfl] at hq
  rw [hq] at htr ⊢
  rw [intOfSize_of_lt (by omega)] at hroom
  by_cases hd : (wireType m).setWidth 2 = ptypeData
  · -- the datagram is as long as the length field says, so at most 528 - 16 bytes of payload
    simp only [if_pos hd] at htr ⊢
    have hbase : decodeBase m =
        if 0 < (ntohs (m.load16 1)).toNat then 12 + (ntohs (m.load16 1)).toNat + 4
        else 12 + (ntohs (m.load16 1)).toNat := by
      simp only [decodeBase, if_pos ((wireType_data m).mpr hd), if_pos ((wireTr_zero m).mpr htr)]
    rw [hbase] at hroom
    have hle : (ntohs (m.load16 1)).toNat ≤ 512 := by
      split at hroom <;> omega
    rw [if_neg (Nat.not_lt.mpr hle)]
    exact hle
  · simp only [if_neg hd]
    decide

/-- No datagram of at most 528 bytes runs the decoder out of bounds, and a packet
    it accepts without TR has at most 512 bytes of payload. -/
theorem pktDecode_total [Zlib] (m : Mem) {len : Nat} (hlen : len ≤ 528) (prior : Pkt) :
    ∃ status q, pktDecode m len prior = .ok (status, q) ∧
      (status = .pktOk → q.tr = 0 → q.length.toNat ≤ 512) := by
  have hrefused : ∀ status : PktStatusCode, ∀ q : Pkt, status ≠ .pktOk →
      (status = .pktOk → q.tr = 0 → q.length.toNat ≤ 512) := fun _ _ hne h => absurd h hne
  by_cases hroom : intOfSize len < decodeBase m
  · rw [pktDecode, if_pos hroom]
    exact ⟨.eNomem, prior, rfl, hrefused _ _ (by decide)⟩
  · -- whichever CRC it fails or passes, the copy of the payload is in bounds
    have hbound := decodeHeader_length hlen hroom prior
    simp only [pktDecode, if_neg hroom]
    generalize blockCrc _ = crc
    split
    · exact ⟨.eCrc, _, rfl, hrefused _ _ (by decide)⟩
    · obtain ⟨status, q, hok, hq⟩ := decodePayload_total m
        (if (decodeHeader m prior).type = ptypeData then 2 else 0) hbound
      exact ⟨status, q, hok, fun _ => hq⟩

end SelectiveRepeat
