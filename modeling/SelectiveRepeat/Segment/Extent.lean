/-
  SelectiveRepeat.Segment.Extent

  `pkt_decode` looks at nothing behind the bytes it is given.  The size it checks
  first covers the header and CRC1 and, where a payload is copied, the payload and
  CRC2, also when the length is one left over from another packet.
-/
import SelectiveRepeat.Segment.Accept

namespace SelectiveRepeat

/-! ## What the size covers -/

/-- The payload that is copied and its CRC2 are within the size that was checked: a length
    that is refused is over 512, and the one that stays in force is not. -/
theorem payload_within {m : Mem} {prior : Pkt} (hpay : (m.decodedHeader prior).tr = 0)
    (hpos : 0 < (m.decodedHeader prior).length)
    (hle : (m.decodedHeader prior).length.toNat ≤ 512) :
    10 + lengthInc m.typeField + (m.decodedHeader prior).length.toNat + 4 ≤ m.datagramSize := by
  have hlength : (m.decodedHeader prior).length = m.decodedLength prior := rfl
  rw [uint16_pos] at hpos
  rw [hlength] at hpos hle ⊢
  by_cases hd : m.typeField = ptypeData
  · have htr : ¬ m.trField = 1 := by
      have h0 : (if m.typeField = ptypeData then m.trField else 0) = 0 := hpay
      rw [if_pos hd] at h0
      rw [h0]
      decide
    have hinc : lengthInc ptypeData = 2 := rfl
    simp only [Mem.decodedLength, Mem.datagramSize, hd, hinc, htr, if_true, ne_eq,
      not_true_eq_false, if_false, false_or] at hpos hle ⊢
    split at hpos
    next hover =>
      rw [if_pos hover] at hle ⊢
      rw [if_neg (by omega)]
      omega
    next hover =>
      rw [if_neg hover, UInt16.toNat_ofNat']
      rw [UInt16.toNat_ofNat'] at hpos
      split <;> omega
  · rw [decodedLength_of_ne hd, UInt16.toNat_zero] at hpos
    exact absurd hpos (Nat.lt_irrefl 0)

theorem header_within (m : Mem) : 10 + lengthInc m.typeField ≤ m.datagramSize := by
  simp only [lengthInc, Mem.datagramSize]
  by_cases hd : m.typeField = ptypeData
  · simp only [hd, if_true, ne_eq, not_true_eq_false, if_false]
    split <;> omega
  · simp only [hd, if_false, ne_eq, not_false_eq_true, if_true]
    omega

/-! ## Two memories that start alike -/

theorem Mem.headerSize_congr {m m' : Mem} (htype : m.typeField = m'.typeField) :
    m.headerSize = m'.headerSize := by
  rw [Mem.headerSize, Mem.headerSize, htype]

section
variable {m m' : Mem} {n : Nat} (h : ∀ i < n, m i = m' i)
include h

theorem Mem.slice_congr {off k : Nat} (hle : off + k ≤ n) : m.slice off k = m'.slice off k := by
  rw [Mem.slice_eq_iff]
  intro i hi
  exact h _ (by omega)

theorem Mem.net32_congr {off : Nat} (hle : off + 4 ≤ n) : m.net32 off = m'.net32 off := by
  simp only [Mem.net32, h off (by omega), h (off + 1) (by omega), h (off + 2) (by omega),
    h (off + 3) (by omega)]

theorem Mem.load32_congr {off : Nat} (hle : off + 4 ≤ n) : m.load32 off = m'.load32 off := by
  simp only [Mem.load32, h off (by omega), h (off + 1) (by omega), h (off + 2) (by omega),
    h (off + 3) (by omega)]

theorem Mem.typeField_congr (hn : 0 < n) : m.typeField = m'.typeField := by
  rw [Mem.typeField, Mem.typeField, h 0 hn]

theorem Mem.lengthField_congr (hn : 3 ≤ n) : m.lengthField = m'.lengthField := by
  simp only [Mem.lengthField, Mem.net16, h 1 (by omega), h (1 + 1) (by omega)]

theorem Mem.trField_congr (hn : 0 < n) : m.trField = m'.trField := by
  rw [Mem.trField, Mem.trField, h 0 hn]

theorem Mem.datagramSize_congr (hn : 3 ≤ n) : m.datagramSize = m'.datagramSize := by
  rw [Mem.datagramSize, Mem.datagramSize, Mem.typeField_congr h (by omega),
    Mem.trField_congr h (by omega), Mem.lengthField_congr h hn]

/-- What is decided before the payload is in the header and CRC1. -/
theorem crc1Right_congr [Zlib] (hn : 10 + lengthInc m.typeField ≤ n) :
    m.Crc1Right ↔ m'.Crc1Right := by
  have hheader := Mem.headerSize_congr (Mem.typeField_congr h (by omega))
  have hsize : m.headerSize + 4 ≤ n := by
    rw [Mem.headerSize]
    omega
  rw [Mem.Crc1Right, Mem.Crc1Right, Mem.clearedHeader, Mem.clearedHeader, ← hheader,
    Mem.net32_congr h hsize, Mem.slice_congr h (by omega), h 0 (by omega)]

theorem crc2Right_congr [Zlib] {off k : Nat} (hle : off + k + 4 ≤ n) :
    m.Crc2Right off k ↔ m'.Crc2Right off k := by
  rw [Mem.Crc2Right, Mem.Crc2Right, Mem.net32_congr h hle, Mem.slice_congr h (by omega)]

theorem decodedHeader_congr (hn : 10 + lengthInc m.typeField ≤ n) (prior : Pkt) :
    m.decodedHeader prior = m'.decodedHeader prior := by
  have htype := Mem.typeField_congr h (by omega)
  have hheader := Mem.headerSize_congr htype
  have hsize : m.headerSize + 4 ≤ n := by
    rw [Mem.headerSize]
    omega
  have hlength : m.decodedLength prior = m'.decodedLength prior := by
    rw [Mem.decodedLength, Mem.decodedLength, htype, Mem.lengthField_congr h (by omega)]
  simp only [Mem.decodedHeader, hlength, ← hheader, ← htype, Mem.load32_congr h hsize,
    h (1 + lengthInc m.typeField) (by omega),
    Mem.load32_congr h (show 2 + lengthInc m.typeField + 4 ≤ n by omega)]
  simp only [Mem.trField, Mem.windowField, h 0 (by omega)]

theorem decodePayload_congr [Zlib] (hn : m.datagramSize ≤ n) (prior : Pkt) :
    decodePayload m (lengthInc m.typeField) (m.decodedHeader prior) =
      decodePayload m' (lengthInc m.typeField) (m.decodedHeader prior) := by
  by_cases hpay : (m.decodedHeader prior).tr = 0 ∧ 0 < (m.decodedHeader prior).length
  · by_cases hle : (m.decodedHeader prior).length.toNat ≤ 512
    · have hwithin := payload_within hpay.1 hpay.2 hle
      rw [decodePayload_eq m _ hpay hle, decodePayload_eq m' _ hpay hle]
      have hbound := Nat.le_trans hwithin hn
      rw [Mem.slice_congr h (Nat.le_of_add_right_le hbound), Mem.load32_congr h hbound]
      simp only [crc2Right_congr h hbound]
    · rw [decodePayload_over m _ hpay.1 (Nat.lt_of_not_le hle),
        decodePayload_over m' _ hpay.1 (Nat.lt_of_not_le hle)]
  · rw [decodePayload_none m _ hpay, decodePayload_none m' _ hpay]

/-- `pkt_decode` looks at nothing behind the bytes it is given. -/
theorem pktDecode_congr [Zlib] (hn : n < 2 ^ 31) (prior : Pkt) :
    pktDecode m n prior = pktDecode m' n prior := by
  by_cases hshort : n < 10
  · rw [pktDecode_short m hshort, pktDecode_short m' hshort]
  rw [pktDecode_eq, pktDecode_eq, ← Mem.datagramSize_congr h (by omega), intOfSize_of_lt hn]
  by_cases hsize : n < m.datagramSize
  · rw [if_pos (Int.ofNat_lt.mpr hsize), if_pos (Int.ofNat_lt.mpr hsize)]
  have hheader := header_within m
  rw [← decodedHeader_congr h (by omega), ← Mem.typeField_congr h (by omega),
    decodePayload_congr h (by omega)]
  simp only [crc1Right_congr h (show 10 + lengthInc m.typeField ≤ n by omega)]

end

/-! ## Every call returns -/

/-- A length that is refused leaves a legal one in force. -/
theorem decodedLength_le (m : Mem) {prior : Pkt} (hprior : prior.length.toNat ≤ 512) :
    (m.decodedLength prior).toNat ≤ 512 := by
  by_cases hd : m.typeField = ptypeData
  · by_cases hle : m.lengthField ≤ 512
    · rw [decodedLength_of_le hd hle]
      exact hle
    · rw [decodedLength_of_lt hd (Nat.lt_of_not_le hle)]
      exact hprior
  · rw [decodedLength_of_ne hd]
    decide

theorem pktDecode_returns [Zlib] (m : Mem) (len : Nat) {prior : Pkt}
    (hprior : prior.length.toNat ≤ 512) : ∃ r, pktDecode m len prior = .ok r := by
  rw [pktDecode_eq]
  split
  · exact ⟨_, rfl⟩
  split
  · exact ⟨_, rfl⟩
  · have hlength : (m.decodedHeader prior).tr = 0 →
        (m.decodedHeader prior).length.toNat ≤ 512 := fun _ => decodedLength_le m hprior
    obtain ⟨status, q, hok, -⟩ := decodePayload_total m (lengthInc m.typeField) hlength
    exact ⟨_, hok⟩

/-- Bytes past the received length never matter: on two buffers that agree on their first
    `len` bytes `pkt_decode` returns, and it returns the same status and the same packet. -/
theorem pktDecode_extent [Zlib] (len : Nat) (hlen : len < 2 ^ 31) (prior : Pkt)
    (hprior : prior.length.toNat ≤ 512) (data data' : Mem) (hagree : ∀ i < len, data i = data' i) :
    ∃ status pkt, pktDecode data len prior = .ok (status, pkt) ∧
      pktDecode data' len prior = .ok (status, pkt) := by
  obtain ⟨⟨status, pkt⟩, hok⟩ := pktDecode_returns data len hprior
  refine ⟨status, pkt, hok, ?_⟩
  rw [← pktDecode_congr hagree hlen]
  exact hok

/-- One byte of a DATA datagram in front of two leftovers: the length field is read from
    behind its end. -/
theorem pktDecode_extent_leftover : letI := zlib
    ∃ status pkt,
      pktDecode (Mem.blit (fun _ => 0) 0 [0x5c]) 1 helloPkt = .ok (status, pkt) ∧
      pktDecode (Mem.blit (fun _ => 7) 0 [0x5c]) 1 helloPkt = .ok (status, pkt) :=
  letI := zlib
  pktDecode_extent 1 (by decide) helloPkt (by decide) (Mem.blit (fun _ => 0) 0 [0x5c])
    (Mem.blit (fun _ => 7) 0 [0x5c]) (by decide)

end SelectiveRepeat
