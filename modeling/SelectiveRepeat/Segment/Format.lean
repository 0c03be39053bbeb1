/-
  SelectiveRepeat.Segment.Format

  A datagram as the format lays it out: fields at fixed offsets, numbers in
  network order.  Nothing here is taken from `pkt_decode`; `pktDecode_eq` says
  what the decoder does in these terms, for every memory and every previous
  content of the destination.
-/
import SelectiveRepeat.Segment.Total

namespace SelectiveRepeat

/-! ## Numbers in network order -/

/-- Two bytes, the high one first. -/
def Mem.net16 (m : Mem) (off : Nat) : Nat :=
  256 * (m off).toNat + (m (off + 1)).toNat

/-- Four bytes, the highest one first. -/
def Mem.net32 (m : Mem) (off : Nat) : Nat :=
  16777216 * (m off).toNat + 65536 * (m (off + 1)).toNat + 256 * (m (off + 2)).toNat +
    (m (off + 3)).toNat

/-- A load and a swap read a number in network order. -/
theorem ntohs_load16 (m : Mem) (off : Nat) : (ntohs (m.load16 off)).toNat = m.net16 off := by
  have h0 := (m off).toNat_lt
  have h1 := (m (off + 1)).toNat_lt
  have hload : (m.load16 off).toNat = (m off).toNat + (m (off + 1)).toNat * 256 := by
    rw [Mem.load16, UInt16.toNat_ofNat']
    omega
  rw [ntohs, htons, hload, UInt16.toNat_ofNat', (digits16 h0).1, (digits16 h0).2, Mem.net16]
  omega

theorem ntohl_load32 (m : Mem) (off : Nat) : (ntohl (m.load32 off)).toNat = m.net32 off := by
  have h0 := (m off).toNat_lt
  have h1 := (m (off + 1)).toNat_lt
  have h2 := (m (off + 2)).toNat_lt
  have h3 := (m (off + 3)).toNat_lt
  have hload : (m.load32 off).toNat = (m off).toNat + (m (off + 1)).toNat * 256 +
      (m (off + 2)).toNat * 65536 + (m (off + 3)).toNat * 16777216 := by
    rw [Mem.load32, UInt32.toNat_ofNat']
    omega
  obtain ⟨d0, d1, d2, d3⟩ := digits32 (d := (m (off + 3)).toNat) h0 h1 h2
  rw [ntohl, htonl, hload, UInt32.toNat_ofNat', d0, d1, d2, d3, Mem.net32]
  omega

/-! ## The fields -/

/-- The two high bits of the first byte. -/
def Mem.typeField (m : Mem) : BitVec 2 := (m 0).toBitVec.extractLsb' 6 2

def Mem.trField (m : Mem) : BitVec 1 := (m 0).toBitVec.extractLsb' 5 1

def Mem.windowField (m : Mem) : BitVec 5 := (m 0).toBitVec.extractLsb' 0 5

/-- Only a DATA packet has it. -/
def Mem.lengthField (m : Mem) : Nat := m.net16 1

/-- The offset of CRC1: the header is 8 bytes on DATA and 6 on the others. -/
def Mem.headerSize (m : Mem) : Nat := 6 + lengthInc m.typeField

/-- The size the header implies. -/
def Mem.datagramSize (m : Mem) : Nat :=
  if m.typeField ≠ ptypeData then 10
  else if m.trField = 1 ∨ m.lengthField = 0 then 12
  else 16 + m.lengthField

/-- The header with TR taken as 0. -/
def Mem.clearedHeader (m : Mem) : Bytes :=
  (m 0 &&& 0xDF) :: m.slice 1 (m.headerSize - 1)

/-- CRC1 is the crc32 of the header with TR taken as 0. -/
def Mem.Crc1Right [Zlib] (m : Mem) : Prop :=
  m.net32 m.headerSize = (blockCrc m.clearedHeader).toNat

/-- What follows `n` bytes of payload at `off` is their crc32. -/
def Mem.Crc2Right [Zlib] (m : Mem) (off n : Nat) : Prop :=
  m.net32 (off + n) = (blockCrc (m.slice off n)).toNat

instance [Zlib] (m : Mem) : Decidable m.Crc1Right := by
  unfold Mem.Crc1Right
  infer_instance

instance [Zlib] (m : Mem) (off n : Nat) : Decidable (m.Crc2Right off n) := by
  unfold Mem.Crc2Right
  infer_instance

/-! ## The fields as the decoder reads them -/

theorem wireType_field (m : Mem) : (wireType m).setWidth 2 = m.typeField := by
  simp only [wireType, promoteChar, Mem.typeField]
  generalize (m 0).toBitVec = b
  revert b
  decide

theorem wireTr_field (m : Mem) : (wireTr m).setWidth 1 = m.trField := by
  simp only [wireTr, promoteChar, Mem.trField]
  generalize (m 0).toBitVec = b
  revert b
  decide

theorem wireWindow_field (m : Mem) : (wireWindow m).setWidth 5 = m.windowField := by
  simp only [wireWindow, promoteChar, Mem.windowField]
  generalize (m 0).toBitVec = b
  revert b
  decide

/-- The first byte holds the three fields and nothing else. -/
theorem headerByte_ofFields (m : Mem) :
    headerByte m.typeField m.trField m.windowField = m 0 := by
  apply UInt8.toBitVec_inj.mp
  simp only [headerByte, Mem.typeField, Mem.trField, Mem.windowField]
  generalize (m 0).toBitVec = b
  revert b
  decide

/-- `header[0] -= 32` on a set bit, and nothing on a clear one, is TR taken as 0. -/
theorem clearedByte (m : Mem) : (if m.trField = 1 then m 0 - 32 else m 0) = m 0 &&& 0xDF := by
  have hbits : ∀ b : BitVec 8,
      (if b.extractLsb' 5 1 = 1 then b - 32 else b) = b &&& 0xDF := by decide
  apply UInt8.toBitVec_inj.mp
  rw [UInt8.toBitVec_and, apply_ite UInt8.toBitVec, UInt8.toBitVec_sub]
  exact hbits (m 0).toBitVec

theorem clearTr_slice (m : Mem) :
    (if m.trField = 1 then clearTr (m.slice 0 m.headerSize) else m.slice 0 m.headerSize) =
      m.clearedHeader := by
  have hslice : m.slice 0 m.headerSize = m 0 :: m.slice 1 (m.headerSize - 1) := by
    have hpos : m.headerSize = (m.headerSize - 1) + 1 := by simp only [Mem.headerSize]; omega
    rw [hpos]
    exact m.slice_succ 0 (m.headerSize - 1)
  rw [Mem.clearedHeader, ← clearedByte, hslice, clearTr]
  split <;> simp

/-- The `CHECK SIZE` block computes the size the header implies. -/
theorem decodeBase_eq (m : Mem) : decodeBase m = m.datagramSize := by
  have htr : wireTr m = 0 ↔ ¬ m.trField = 1 := by
    rw [wireTr_zero, wireTr_field]
    rcases bitVec1_cases m.trField with h | h <;> rw [h] <;> decide
  simp only [decodeBase, Mem.datagramSize, wireType_data, wireType_field, ntohs_load16, htr,
    ← Mem.lengthField.eq_1]
  by_cases hd : m.typeField = ptypeData
  · by_cases h1 : m.trField = 1
    · simp [hd, h1]
    · by_cases h0 : m.lengthField = 0
      · simp [hd, h0]
      · have hpos : 0 < m.lengthField := Nat.pos_of_ne_zero h0
        simp only [hd, h1, h0, hpos, or_self, ne_eq, not_true_eq_false, not_false_eq_true, if_true,
          if_false]
        omega
  · simp [hd]

/-! ## The decoder -/

/-- The length `pkt_set_length` leaves: it refuses one over 512, and the previous one
    stays in force. -/
def Mem.decodedLength (m : Mem) (prior : Pkt) : UInt16 :=
  if m.typeField = ptypeData then
    if 512 < m.lengthField then prior.length else UInt16.ofNat m.lengthField
  else 0

/-- The packet once CRC1 is accepted: the TR of the wire, which `pkt_set_tr` refuses on
    types other than DATA, is back. -/
def Mem.decodedHeader (m : Mem) (prior : Pkt) : Pkt where
  type := m.typeField
  tr := if m.typeField = ptypeData then m.trField else 0
  window := m.windowField
  length := m.decodedLength prior
  seqnum := m (1 + lengthInc m.typeField)
  timestamp := m.load32 (2 + lengthInc m.typeField)
  crc1 := ntohl (m.load32 m.headerSize)
  payload := prior.payload
  crc2 := prior.crc2

theorem decodedLength_eq (m : Mem) (prior : Pkt) :
    m.decodedLength prior =
      if m.typeField = ptypeData then
        if 512 < (ntohs (m.load16 1)).toNat then prior.length else ntohs (m.load16 1)
      else 0 := by
  rw [Mem.decodedLength, Mem.lengthField, ← ntohs_load16]
  simp

theorem ntohl_load32_eq_iff (m : Mem) (off : Nat) (crc : UInt32) :
    crc = ntohl (m.load32 off) ↔ m.net32 off = crc.toNat := by
  rw [← ntohl_load32, UInt32.toNat_inj, eq_comm]

/-- A number in network order is stored as the bytes it is read from. -/
theorem bytes32_of_net32 {m : Mem} {off : Nat} {crc : UInt32} (h : m.net32 off = crc.toNat) :
    bytes32 (htonl crc) = m.slice off 4 := by
  rw [(ntohl_load32_eq_iff m off crc).mpr h, ← bytes32_load32]
  exact congrArg bytes32 (ntohl_htonl (m.load32 off))

/-- `pkt_decode` in the terms of the format: the size, CRC1, and then the payload. -/
theorem pktDecode_eq [Zlib] (m : Mem) (len : Nat) (prior : Pkt) :
    pktDecode m len prior =
      if intOfSize len < m.datagramSize then .ok (.eNomem, prior)
      else if ¬ m.Crc1Right then .ok (.eCrc, { m.decodedHeader prior with tr := 0 })
      else decodePayload m (lengthInc m.typeField) (m.decodedHeader prior) := by
  have hprev : UInt8.ofNat m.trField.toNat = 1 ↔ m.trField = 1 := by
    rcases bitVec1_cases m.trField with h | h <;> rw [h] <;> decide
  have hlh : (if m.typeField = ptypeData then 6 + 2 else 6) = m.headerSize := by
    simp only [Mem.headerSize, lengthInc]
    split <;> rfl
  have hhdr := decodeHeader_eq m prior
  simp only [wireType_field, wireWindow_field, ← decodedLength_eq] at hhdr
  have hcrc : blockCrc m.clearedHeader = ntohl (m.load32 m.headerSize) ↔ m.Crc1Right := by
    rw [ntohl_load32_eq_iff, Mem.Crc1Right]
  simp only [pktDecode, decodeBase_eq, wireTr_field, hhdr, wireType_data, wireType_field,
    ← lengthInc.eq_1, hlh, hprev, clearTr_slice]
  rw [pktSetTr_decoded rfl]
  simp only [ne_eq, ← Mem.headerSize.eq_1, hcrc]
  rfl

/-- Acceptance, step by step. -/
theorem pktDecode_ok [Zlib] {m : Mem} {len : Nat} {prior q : Pkt} (hlen : len < 2 ^ 31)
    (h : pktDecode m len prior = .ok (.pktOk, q)) :
    m.datagramSize ≤ len ∧ m.Crc1Right ∧
      decodePayload m (lengthInc m.typeField) (m.decodedHeader prior) = .ok (.pktOk, q) := by
  rw [pktDecode_eq] at h
  by_cases hsize : intOfSize len < m.datagramSize
  · rw [if_pos hsize] at h
    cases h
  rw [if_neg hsize] at h
  rw [intOfSize_of_lt hlen, Int.ofNat_lt, Nat.not_lt] at hsize
  by_cases hcrc : m.Crc1Right
  · rw [if_neg (not_not.mpr hcrc)] at h
    exact ⟨hsize, hcrc, h⟩
  · rw [if_pos hcrc] at h
    cases h

/-- Fewer bytes than the shortest header and its CRC1 are no packet. -/
theorem pktDecode_short [Zlib] (m : Mem) {len : Nat} (hlen : len < 10) (prior : Pkt) :
    pktDecode m len prior = .ok (.eNomem, prior) := by
  have hsize : 10 ≤ m.datagramSize := by
    rw [Mem.datagramSize]
    split
    · omega
    · split <;> omega
  rw [pktDecode_eq, intOfSize_of_lt (by omega), if_pos (by omega)]

/-- The payload block leaves the header alone. -/
theorem decodePayload_keeps [Zlib] {m : Mem} {inc : Nat} {pkt q : Pkt} {status : PktStatusCode}
    (h : decodePayload m inc pkt = .ok (status, q)) :
    ∃ payload crc2, q = { pkt with payload := payload, crc2 := crc2 } := by
  rw [decodePayload] at h
  split at h
  · split at h
    · cases h
    · dsimp only at h
      split at h
      · cases h
        exact ⟨_, _, rfl⟩
      · cases h
        exact ⟨_, _, rfl⟩
  · cases h
    exact ⟨_, _, rfl⟩

/-- The payload block has nothing to check on a truncated or an empty packet. -/
theorem decodePayload_none [Zlib] (m : Mem) (inc : Nat) {pkt : Pkt}
    (h : ¬ (pkt.tr = 0 ∧ 0 < pkt.length)) : decodePayload m inc pkt = .ok (.pktOk, pkt) := by
  rw [decodePayload, if_neg h]

/-- A length of more than 512 bytes takes the copy out of `payload`. -/
theorem decodePayload_over [Zlib] (m : Mem) (inc : Nat) {pkt : Pkt} (htr : pkt.tr = 0)
    (h : 512 < pkt.length.toNat) :
    decodePayload m inc pkt = .error (.payload pkt.length.toNat) := by
  have hpos : 0 < pkt.length := uint16_pos.mpr (Nat.zero_lt_of_lt h)
  rw [decodePayload, if_pos ⟨htr, hpos⟩, if_pos (by simpa only [MAX_PAYLOAD_SIZE] using h)]

/-- The payload block on a packet that has one: CRC2 is looked for after the bytes the
    length field counts. -/
theorem decodePayload_eq [Zlib] (m : Mem) (inc : Nat) {pkt : Pkt}
    (h : pkt.tr = 0 ∧ 0 < pkt.length) (hle : pkt.length.toNat ≤ 512) :
    decodePayload m inc pkt =
      .ok (if m.Crc2Right (10 + inc) pkt.length.toNat then .pktOk else .eCrc,
        { pkt with
          payload := pkt.payload.blit 0 (m.slice (10 + inc) pkt.length.toNat)
          crc2 := ntohl (m.load32 (10 + inc + pkt.length.toNat)) }) := by
  have hmax : ¬ MAX_PAYLOAD_SIZE < pkt.length.toNat := Nat.not_lt.mpr hle
  rw [decodePayload, if_pos h, if_neg hmax]
  simp only [pktSetCrc2, pktGetCrc2, h.1, Mem.slice_blit_slice, ne_eq, not_true_eq_false, if_false,
    ntohl_load32_eq_iff, ← Mem.Crc2Right.eq_1]
  split <;> simp_all

end SelectiveRepeat
